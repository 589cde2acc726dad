import Mathlib.Data.List.DropRight
import ExchangeClient.Proofs.Settings.Credentials

/-!
# Settings that are changed

An address never ends in a slash and no answer is waited for less than a second,
wherever the settings come from and whatever is changed in them. An address that
is given as nothing but slashes is left empty, because the usual one stands in for
an empty address only before the slashes go. It stays empty until an address is
given again, and making such settings normal changes them.
-/

namespace ExchangeClient.Settings

/-- The two addresses. -/
inductive Place where
  | main
  | tradeApi
  deriving DecidableEq

namespace Place

def key : Place → String
  | .main => "address"
  | .tradeApi => "v1_address"

def held (s : Settings) : Place → String
  | .main => s.address
  | .tradeApi => s.tradeApiAddress

def usual (place : Place) : String := place.held {}

end Place

/-- One change of settings. -/
inductive Change where
  | credentials (token secret : String)
  | address (place : Place) (text : String)
  | timeout (seconds : UInt64)
  | reconnectDelay (seconds : UInt64)
  | insecure (unchecked : Bool)

namespace Change

def apply (s : Settings) : Change → Settings
  | .credentials token secret => s.withCredentials token secret
  | .address .main text => s.withAddress text
  | .address .tradeApi text => s.withTradeApiAddress text
  | .timeout seconds => s.withTimeoutSeconds seconds
  | .reconnectDelay seconds => s.withReconnectSeconds seconds
  | .insecure unchecked => s.withInsecure unchecked

/-- The address that a change gives. -/
def address? : Change → Option (Place × String)
  | .address place text => some (place, text)
  | _ => none

end Change

def adjusted (s : Settings) (changes : List Change) : Settings := changes.foldl Change.apply s

/-- Where settings come from before they are changed. -/
inductive Start where
  | usual
  | known (token secret : String)
  | loaded (file : Option File) (given : List (String × String))

/-- The text that is loaded for a setting: that of its variable as it would be printed, or else
that of the file. -/
def loadedText? (key : String) (file : Option File) (given : List (String × String)) :
    Option String :=
  match variableText? key given with
  | some t => some (respelled t)
  | none => (fileFound? key file).bind fun x => x.asText.toOption

namespace Start

def settings : Start → Outcome Settings
  | .usual => .ok {}
  | .known token secret => .ok (withCredentials {} token secret)
  | .loaded file given => load file given

/-- The address that is given where settings come from. -/
def address? (place : Place) : Start → Option String
  | .loaded file given => loadedText? place.key file given
  | _ => none

end Start

def EndsInSlash (t : String) : Prop := ∃ u, t = u ++ "/"

def OnlySlashes (t : String) : Prop := t ≠ "" ∧ ∀ c ∈ t.toList, c = '/'

/-- The address given last, for whichever place, is for this one and is made of slashes. -/
def LeftEmpty (start : Start) (changes : List Change) (place : Place) : Prop :=
  (∃ t, (changes.filterMap Change.address?).getLast? = some (place, t) ∧ OnlySlashes t) ∨
    changes.filterMap Change.address? = [] ∧
      ∃ t, start.address? place = some t ∧ OnlySlashes t

/-! ## Addresses -/

theorem toList_withoutSlashes (t : String) :
    (withoutSlashes t).toList = t.toList.rdropWhile (· == '/') := by
  rw [withoutSlashes, String.toList_ofList, List.rdropWhile]

theorem withoutSlashes_eq_empty_iff {t : String} :
    withoutSlashes t = "" ↔ ∀ c ∈ t.toList, c = '/' := by
  rw [← String.toList_eq_nil_iff, toList_withoutSlashes, List.rdropWhile_eq_nil_iff]
  simp only [beq_iff_eq]

theorem withoutSlashes_not_endsInSlash (t : String) : ¬EndsInSlash (withoutSlashes t) := by
  rintro ⟨u, hslash⟩
  have hchars : t.toList.rdropWhile (· == '/') = u.toList ++ ['/'] := by
    rw [← toList_withoutSlashes, hslash, String.toList_append]
    rfl
  have hpresent : t.toList.rdropWhile (· == '/') ≠ [] := by
    rw [hchars]
    exact List.append_ne_nil_of_right_ne_nil _ (List.cons_ne_nil _ _)
  have hlast := List.rdropWhile_last_not (· == '/') t.toList hpresent
  simp only [hchars, List.getLast_append_singleton] at hlast
  exact hlast rfl

theorem withoutSlashes_eq_self {t : String} (plain : ¬EndsInSlash t) : withoutSlashes t = t := by
  refine String.toList_inj.1 ?_
  rw [toList_withoutSlashes, List.rdropWhile_eq_self_iff]
  intro hpresent hlast
  refine plain ⟨String.ofList t.toList.dropLast, String.toList_inj.1 ?_⟩
  rw [String.toList_append, String.toList_ofList]
  have hslash : t.toList.getLast hpresent = '/' := beq_iff_eq.1 hlast
  have hsplit := List.dropLast_append_getLast hpresent
  rw [hslash] at hsplit
  exact hsplit.symm

theorem not_onlySlashes {t : String} (plain : ¬EndsInSlash t) : ¬OnlySlashes t := by
  rintro ⟨hpresent, hslashes⟩
  exact hpresent ((withoutSlashes_eq_self plain).symm.trans
    (withoutSlashes_eq_empty_iff.2 hslashes))

theorem Place.usual_plain (place : Place) :
    place.usual ≠ "" ∧ withoutSlashes place.usual = place.usual := by
  cases place with
  | main => exact ⟨by decide, rfl⟩
  | tradeApi => exact ⟨by decide, rfl⟩

section

variable {place : Place} {t : String}

theorem normalAddress_empty : normalAddress place.usual "" = place.usual :=
  place.usual_plain.2

theorem normalAddress_present (present : t ≠ "") :
    normalAddress place.usual t = withoutSlashes t := by
  rw [normalAddress, if_neg (by rwa [String.isEmpty_iff])]

theorem Place.normalAddress_usual (place : Place) :
    normalAddress place.usual place.usual = place.usual := by
  rw [normalAddress_present place.usual_plain.1]
  exact place.usual_plain.2

theorem normalAddress_not_endsInSlash (place : Place) (t : String) :
    ¬EndsInSlash (normalAddress place.usual t) := withoutSlashes_not_endsInSlash _

theorem normalAddress_eq_empty_iff : normalAddress place.usual t = "" ↔ OnlySlashes t := by
  by_cases hempty : t = ""
  · rw [hempty, normalAddress_empty]
    exact ⟨fun h => absurd h place.usual_plain.1, fun h => absurd rfl h.1⟩
  · rw [normalAddress_present hempty, withoutSlashes_eq_empty_iff, OnlySlashes,
      and_iff_right hempty]

theorem normalAddress_eq_self_iff (plain : ¬EndsInSlash t) :
    normalAddress place.usual t = t ↔ t ≠ "" := by
  constructor
  · rintro hsame rfl
    exact place.usual_plain.1 (normalAddress_empty.symm.trans hsame)
  · intro hpresent
    rw [normalAddress_present hpresent, withoutSlashes_eq_self plain]

end

/-! ## Normal settings -/

/-- What holds of all settings however they come about. -/
structure Tidy (s : Settings) : Prop where
  addresses : ∀ place : Place, ¬EndsInSlash (place.held s)
  timeout : 1 ≤ s.timeoutSeconds

theorem Place.held_normalize (place : Place) (s : Settings) :
    place.held s.normalize = normalAddress place.usual (place.held s) := by
  cases place with
  | main => rfl
  | tradeApi => rfl

theorem one_le_of_ne_zero {n : UInt64} (present : n ≠ 0) : 1 ≤ n := by
  rw [UInt64.le_iff_toNat_le]
  exact Nat.one_le_iff_ne_zero.2 fun h => present (UInt64.toNat_inj.1 h)

theorem one_le_max_one (n : UInt64) : 1 ≤ max n 1 := by
  by_cases hle : n ≤ 1
  · have hmax : max n 1 = 1 := if_pos hle
    rw [hmax]
    decide
  · have hmax : max n 1 = n := if_neg hle
    rw [hmax]
    exact (UInt64.le_total 1 n).resolve_right hle

theorem normalize_tidy (s : Settings) : Tidy s.normalize := by
  constructor
  · intro place
    rw [place.held_normalize]
    exact normalAddress_not_endsInSlash place _
  · simp only [normalize]
    split
    · decide
    · rename_i hpresent
      exact one_le_of_ne_zero hpresent

/-- Making tidy settings normal changes them exactly if an address is empty. -/
theorem Tidy.normalize_eq_self_iff {s : Settings} (tidy : Tidy s) :
    s.normalize = s ↔ ∀ place : Place, place.held s ≠ "" := by
  have hsame : ∀ place : Place,
      normalAddress place.usual (place.held s) = place.held s ↔ place.held s ≠ "" :=
    fun place => normalAddress_eq_self_iff (tidy.addresses place)
  constructor
  · intro h place
    exact (hsame place).1 ((place.held_normalize s).symm.trans (congrArg place.held h))
  · intro present
    have htimeout : s.timeoutSeconds ≠ 0 := by
      intro hzero
      exact absurd (hzero ▸ tidy.timeout) (by decide)
    have hmain : normalAddress ({} : Settings).address s.address = s.address :=
      (hsame .main).2 (present .main)
    have htrade : normalAddress ({} : Settings).tradeApiAddress s.tradeApiAddress =
        s.tradeApiAddress := (hsame .tradeApi).2 (present .tradeApi)
    rw [normalize, hmain, htrade, if_neg htimeout]

theorem Tidy.normalize_normalize {s : Settings} (tidy : Tidy s) :
    s.normalize.normalize = s.normalize := by
  refine (normalize_tidy s).normalize_eq_self_iff.2 ?_
  intro place hempty
  rw [place.held_normalize, normalAddress_eq_empty_iff] at hempty
  exact not_onlySlashes (tidy.addresses place) hempty

/-! ## Where settings come from -/

variable {file : Option File} {given : List (String × String)} {s : Settings}

theorem Place.take_of_ofGiven {found : Given} (place : Place) (read : ofGiven found = .ok s) :
    take found place.key Found.asText place.usual = .ok (place.held s) := by
  simp only [ofGiven, Except.bind_eq_ok] at read
  obtain ⟨address, haddress, tradeApiAddress, htrade, token, -, secret, -, timeout, -, insecure, -,
    delay, -, debug, -, hs⟩ := read
  cases hs
  cases place with
  | main => exact haddress
  | tradeApi => exact htrade

theorem eq_of_take {filed : Given} {key usual u : String} (hfiled : Filed file filed)
    (read : take (filed ++ fromVariables given) key Found.asText usual = .ok u) :
    u = (loadedText? key file given).getD usual := by
  have hfound := lastFound?_append key filed (fromVariables given)
  rcases lastFound?_variables key given with ⟨hnone, htext⟩ | ⟨t, k, htext, hsome⟩
  · rw [hnone, Option.none_or, lastFound?_filed hfiled] at hfound
    rw [loadedText?, htext]
    rcases take_eq_ok.1 read with ⟨hnothing, husual⟩ | ⟨x, hx, hread⟩
    · rw [← hfound, hnothing]
      exact husual.symm
    · rw [← hfound, hx, Option.bind_some, Except.toOption_eq_some.2 hread]
      rfl
  · rw [hsome, Option.some_or] at hfound
    rw [loadedText?, htext]
    rcases take_eq_ok.1 read with ⟨hnothing, -⟩ | ⟨x, hx, hread⟩
    · cases hfound.symm.trans hnothing
    · cases hfound.symm.trans hx
      exact Except.ok.inj ((eq_of_asText hread).symm.trans (asText_ofVariable t))

theorem Start.tidy {start : Start} (started : start.settings = .ok s) : Tidy s := by
  have husual : Tidy {} := normalize_tidy {}
  cases start with
  | usual =>
    cases started
    exact husual
  | known token secret =>
    cases started
    exact ⟨husual.addresses, husual.timeout⟩
  | loaded file given =>
    obtain ⟨-, settings, -, -, rfl⟩ := ofGiven_of_load started
    exact normalize_tidy settings

/-- At the start an address is the normal form of the one that is given, or of the usual one. -/
theorem Start.held_eq {start : Start} (started : start.settings = .ok s) (place : Place) :
    place.held s = normalAddress place.usual ((start.address? place).getD place.usual) := by
  have husual := place.normalAddress_usual.symm
  cases start with
  | usual =>
    cases started
    exact husual
  | known token secret =>
    cases started
    cases place with
    | main => exact husual
    | tradeApi => exact husual
  | loaded file given =>
    obtain ⟨filed, settings, hfiled, hread, rfl⟩ := ofGiven_of_load started
    rw [place.held_normalize, eq_of_take hfiled (place.take_of_ofGiven hread)]
    rfl

theorem Start.held_eq_empty_iff {start : Start} (started : start.settings = .ok s)
    (place : Place) : place.held s = "" ↔ LeftEmpty start [] place := by
  have hnone : ¬∃ t, ([] : List (Place × String)).getLast? = some (place, t) ∧ OnlySlashes t :=
    fun ⟨_, h, _⟩ => nomatch h
  rw [LeftEmpty, List.filterMap_nil, or_iff_right hnone, and_iff_right rfl,
    start.held_eq started place, normalAddress_eq_empty_iff]
  cases start.address? place with
  | none =>
    refine ⟨fun husual => ?_, fun ⟨_, h, _⟩ => nomatch h⟩
    have hempty : normalAddress place.usual place.usual = "" :=
      normalAddress_eq_empty_iff.2 husual
    exact absurd (place.normalAddress_usual.symm.trans hempty) place.usual_plain.1
  | some t => exact ⟨fun h => ⟨t, rfl, h⟩, fun ⟨_, same, h⟩ => Option.some.inj same ▸ h⟩

/-! ## One change, and a run of changes -/

theorem Change.held_apply_address {change : Change} {place : Place} {t : String}
    (given : change.address? = some (place, t)) (s : Settings) (other : Place) :
    other.held (change.apply s) =
      normalAddress other.usual (if place = other then t else other.held s) := by
  cases change with
  | address place t =>
    cases given
    cases place with
    | main => cases other with
      | main => rfl
      | tradeApi => rfl
    | tradeApi => cases other with
      | main => rfl
      | tradeApi => rfl
  | credentials | timeout | reconnectDelay | insecure => cases given

theorem Change.held_apply {change : Change} (other : change.address? = none) (s : Settings)
    (place : Place) : place.held (change.apply s) = place.held s := by
  cases change with
  | address => cases other
  | credentials | timeout | reconnectDelay | insecure => cases place with
    | main => rfl
    | tradeApi => rfl

theorem Tidy.apply {s : Settings} (tidy : Tidy s) (change : Change) : Tidy (change.apply s) := by
  cases change with
  | credentials token secret => exact ⟨tidy.addresses, tidy.timeout⟩
  | address place t => cases place with
    | main => exact normalize_tidy _
    | tradeApi => exact normalize_tidy _
  | timeout seconds => exact ⟨tidy.addresses, one_le_max_one seconds⟩
  | reconnectDelay seconds => exact ⟨tidy.addresses, tidy.timeout⟩
  | insecure unchecked => exact ⟨tidy.addresses, tidy.timeout⟩

theorem adjusted_concat (s : Settings) (changes : List Change) (change : Change) :
    adjusted s (changes ++ [change]) = change.apply (adjusted s changes) :=
  List.foldl_append

theorem Tidy.adjusted {s : Settings} (tidy : Tidy s) (changes : List Change) :
    Tidy (s.adjusted changes) := by
  induction changes using List.reverseRecOn with
  | nil => exact tidy
  | append_singleton changes change ih =>
    rw [adjusted_concat]
    exact ih.apply change

theorem leftEmpty_concat (start : Start) (changes : List Change) (change : Change)
    (place : Place) :
    LeftEmpty start (changes ++ [change]) place ↔
      match change.address? with
      | none => LeftEmpty start changes place
      | some given => given.1 = place ∧ OnlySlashes given.2 := by
  rw [LeftEmpty, List.filterMap_append]
  cases hgiven : change.address? with
  | none => rw [List.filterMap_cons_none hgiven, List.filterMap_nil, List.append_nil, LeftEmpty]
  | some given =>
    obtain ⟨other, t⟩ := given
    rw [List.filterMap_cons_some hgiven, List.filterMap_nil, List.getLast?_concat]
    constructor
    · rintro (⟨u, hlast, hslashes⟩ | ⟨hnone, -⟩)
      · cases hlast
        exact ⟨rfl, hslashes⟩
      · exact absurd hnone (List.append_ne_nil_of_right_ne_nil _ (List.cons_ne_nil _ _))
    · rintro ⟨rfl, hslashes⟩
      exact Or.inl ⟨t, rfl, hslashes⟩

theorem adjusted_eq_empty_iff {start : Start} (started : start.settings = .ok s)
    (changes : List Change) (place : Place) :
    place.held (s.adjusted changes) = "" ↔ LeftEmpty start changes place := by
  induction changes using List.reverseRecOn with
  | nil => exact start.held_eq_empty_iff started place
  | append_singleton changes change ih =>
    rw [adjusted_concat, leftEmpty_concat]
    cases hgiven : change.address? with
    | none => rw [change.held_apply hgiven, ih]
    | some given =>
      obtain ⟨other, t⟩ := given
      rw [change.held_apply_address hgiven, normalAddress_eq_empty_iff]
      by_cases hplace : other = place
      · rw [if_pos hplace]
        exact (and_iff_right hplace).symm
      · rw [if_neg hplace]
        have htidy := (Start.tidy started).adjusted changes
        exact iff_of_false (not_onlySlashes (htidy.addresses place)) fun h => hplace h.1

/-- Whatever is changed, no address ends in a slash and answers are waited for at least a second.
An address is empty exactly if it was given last of all, as nothing but slashes; making the settings
normal again then changes them, once, and otherwise never. -/
theorem adjusted_normal (start : Start) (first : Settings) (changes : List Change)
    (started : start.settings = .ok first) :
    (∀ place : Place, ¬EndsInSlash (place.held (first.adjusted changes))) ∧
    1 ≤ (first.adjusted changes).timeoutSeconds ∧
    (∀ place : Place, place.held (first.adjusted changes) = "" ↔ LeftEmpty start changes place) ∧
    ((first.adjusted changes).normalize = first.adjusted changes ↔
      ∀ place, ¬LeftEmpty start changes place) ∧
    (first.adjusted changes).normalize.normalize = (first.adjusted changes).normalize := by
  have htidy := (Start.tidy started).adjusted changes
  have hempty := adjusted_eq_empty_iff started changes
  refine ⟨htidy.addresses, htidy.timeout, hempty, ?_, htidy.normalize_normalize⟩
  rw [htidy.normalize_eq_self_iff]
  exact forall_congr' fun place => not_congr (hempty place)

/-- An address loaded as slashes is empty until the other one is given. -/
theorem slashes_replaced :
    let start := Start.loaded none [("TOKENOMY_ADDRESS", "//")]
    let changes := [Change.timeout 0, .address .tradeApi "https://a//"]
    ∃ first, start.settings = .ok first ∧ first.address = "" ∧
      (first.adjusted changes).address = "https://api.tokenomy.com" ∧
      (first.adjusted changes).tradeApiAddress = "https://a" ∧
      (first.adjusted changes).normalize = first.adjusted changes := by
  intro start changes
  have hloaded : start.settings = .ok { address := "" } := rfl
  obtain ⟨-, -, -, hnormal, -⟩ := adjusted_normal start _ changes hloaded
  have hfilled : ∀ place, ¬LeftEmpty start changes place := by
    rintro place (⟨t, hlast, -, hslashes⟩ | ⟨hnone, -⟩)
    · cases hlast
      exact absurd (hslashes 'a' (by decide)) (by decide)
    · cases hnone
  exact ⟨_, hloaded, rfl, rfl, rfl, hnormal.2 hfilled⟩

/-- An address given as a slash is left empty. -/
theorem slash_left_empty :
    ¬∀ (start : Start) (first : Settings) (changes : List Change), start.settings = .ok first →
      (∀ place : Place, place.held (first.adjusted changes) ≠ "" ∧
        ¬EndsInSlash (place.held (first.adjusted changes))) ∧
      1 ≤ (first.adjusted changes).timeoutSeconds ∧
      (first.adjusted changes).normalize = first.adjusted changes := by
  intro claimed
  obtain ⟨hplaces, -⟩ := claimed .usual {} [.address .main "/"] rfl
  exact (hplaces .main).1 rfl

end ExchangeClient.Settings
