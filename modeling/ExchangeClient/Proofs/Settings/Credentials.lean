import ExchangeClient.Proofs.Decimal.Grammar
import ExchangeClient.Proofs.Results
import ExchangeClient.Settings.Load

/-!
# Credentials that are loaded

A variable wins over the file, and of several that give the same setting the last
one counts. The texts of a file are loaded as they are. That of a variable is
taken for the flag or the number that it looks like, which is printed again where
a text is wanted, also where the text is a key or a secret. So it is loaded as it
is written only if it is written as it would be printed.
-/

namespace ExchangeClient.Settings

/-- The settings that are credentials. -/
inductive Credential where
  | token
  | secret

namespace Credential

def key : Credential → String
  | .token => "token"
  | .secret => "secret"

def held (s : Settings) : Credential → String
  | .token => s.token
  | .secret => s.secret

end Credential

/-- The setting that a variable leads to, which may be something inside of it. -/
def variableSetting? (name : String) : Option String :=
  (variableKey? name).map fun key => (setting key .nothing).1

/-- What the last of the variables that give a setting is set to. -/
def variableText? (key : String) (given : List (String × String)) : Option String :=
  (given.reverse.find? fun v => variableSetting? v.1 = some key).map (·.2)

/-- The last that a file gives for a setting. -/
def fileFound? (key : String) (file : Option File) : Option Found :=
  (file.bind File.entries?).bind fun entries =>
    (entries.map fun e => setting e.1 e.2).reverse.lookup key

/-- A text that is a whole number of 64 bits. -/
def IsWhole (t : String) (i : Int) : Prop :=
  Digits.readInt? t.toList = some i ∧ Digits.fitsInt64 i = true

/-- What the text of a variable is loaded as where a text is wanted. -/
def respelled (t : String) : String :=
  if Text.lower t = "true" ∨ Text.lower t = "false" then Text.lower t
  else match (Digits.readInt? t.toList).filter Digits.fitsInt64 with
    | some i => Digits.intText i
    | none => match Binary64.ofText? t with
      | some v => v.plainText
      | none => t

/-- A text that is written as what it looks like would be printed. -/
structure AsPrinted (t : String) : Prop where
  flag : ∀ b, Text.lower t = flagText b → t = flagText b
  whole : ∀ i, IsWhole t i → t = Digits.intText i
  real : ∀ v, Binary64.ofText? t = some v → (∀ i, ¬IsWhole t i) → t = v.plainText

/-! ## What a text is taken for -/

/-- How a number starts: with a sign, a point, a digit, or the word for an infinity or for no
number. -/
def StartsNumber (cs : List Char) : Prop :=
  ∃ c rest, cs = c :: rest ∧ c.toNat < 128 ∧ c.toLower ≠ 't' ∧ c.toLower ≠ 'f'

theorem startsNumber_digit {c : Char} (digit : c.isDigit = true) (rest : List Char) :
    StartsNumber (c :: rest) := by
  have hall : ∀ d < 10, (Digits.digitChar d).toNat < 128 ∧ (Digits.digitChar d).toLower ≠ 't' ∧
      (Digits.digitChar d).toLower ≠ 'f' := by decide
  have hlt := Digits.digitValue_lt digit
  have hchar : c = Digits.digitChar (Digits.digitValue c) :=
    Digits.digitValue_inj digit (Digits.digitChar_isDigit _ hlt)
      (Digits.digitValue_digitChar _ hlt).symm
  obtain ⟨hsmall, ht, hf⟩ := hall _ hlt
  exact ⟨c, rest, rfl, hchar ▸ hsmall, hchar ▸ ht, hchar ▸ hf⟩

theorem startsNumber_sign {sign cs : List Char} {negative : Bool}
    (signed : Numeral.SignChars sign negative) (starts : StartsNumber cs) :
    StartsNumber (sign ++ cs) := by
  cases signed with
  | none => exact starts
  | plus => exact ⟨'+', cs, rfl, by decide, by decide, by decide⟩
  | minus => exact ⟨'-', cs, rfl, by decide, by decide, by decide⟩

theorem startsNumber_of_whole {cs : List Char} {i : Int} (read : Digits.readInt? cs = some i) :
    StartsNumber cs := by
  obtain ⟨sign, negative, ds, rfl, hsign, hpresent, hdigits, -⟩ :=
    Digits.readInt?_eq_some_iff.1 read
  obtain ⟨c, rest, rfl⟩ := List.exists_cons_of_ne_nil hpresent
  exact startsNumber_sign hsign (startsNumber_digit (hdigits c List.mem_cons_self) rest)

theorem startsNumber_of_numeral {cs : List Char} {n : Numeral} (spells : n.Spells cs) :
    StartsNumber cs := by
  obtain ⟨sign, point, exponent, rfl, hsign, hpoint, -⟩ := spells.parts
  refine startsNumber_sign hsign ?_
  cases hwhole : n.whole with
  | cons c rest =>
    have hmem : c ∈ n.whole := by
      rw [hwhole]
      exact List.mem_cons_self
    exact startsNumber_digit (spells.wholeDigits c hmem) _
  | nil =>
    generalize hfraction : n.fraction = fraction at hpoint
    cases hpoint with
    | none => exact absurd hfraction (spells.present.resolve_left (not_not.2 hwhole))
    | point digits => exact ⟨'.', _, rfl, by decide, by decide, by decide⟩

theorem toNat_lt_of_toLower {c : Char} (small : c.toLower.toNat < 128) : c.toNat < 128 := by
  by_cases hupper : c.val ≥ 'A'.val ∧ c.val ≤ 'Z'.val
  · have hle : c.toNat ≤ 'Z'.toNat := hupper.2
    exact lt_of_le_of_lt hle (by decide)
  · have hsame : c.toLower = c := dif_neg hupper
    rwa [hsame] at small

theorem startsNumber_of_word {cs letters : List Char} {d : Char}
    (word : cs.map Char.toLower = d :: letters) (first : d = 'i' ∨ d = 'n') :
    StartsNumber cs := by
  obtain ⟨c, rest, rfl, rfl, -⟩ := List.map_eq_cons_iff.1 word
  rcases first with hfirst | hfirst
  · exact ⟨c, rest, rfl, toNat_lt_of_toLower (hfirst ▸ by decide), hfirst ▸ by decide,
      hfirst ▸ by decide⟩
  · exact ⟨c, rest, rfl, toNat_lt_of_toLower (hfirst ▸ by decide), hfirst ▸ by decide,
      hfirst ▸ by decide⟩

theorem startsNumber_of_real {t : String} {v : Binary64} (read : Binary64.ofText? t = some v) :
    StartsNumber t.toList := by
  obtain ⟨sign, hsign, hchars⟩ :=
    Numeral.splitSign_chars (rfl : Numeral.splitSign t.toList = _)
  simp only [Binary64.ofText?] at read
  split at read
  · rename_i hinfinite
    rw [hchars]
    apply startsNumber_sign hsign
    rcases hinfinite with hword | hword
    · exact startsNumber_of_word hword (Or.inl rfl)
    · exact startsNumber_of_word hword (Or.inl rfl)
  · split at read
    · rename_i hword
      rw [hchars]
      exact startsNumber_sign hsign (startsNumber_of_word hword (Or.inr rfl))
    · obtain ⟨n, hn, -⟩ := Option.map_eq_some_iff.1 read
      exact startsNumber_of_numeral (Numeral.ofChars?_eq_some_iff.1 hn)

/-- No number starts like a word for a flag. -/
theorem not_startsNumber {t : String} {b : Bool} (word : Text.lower t = flagText b) :
    ¬StartsNumber t.toList := by
  rintro ⟨c, rest, hchars, hsmall, ht, hf⟩
  have hsigma : c ≠ 'Σ' := by rintro rfl; exact absurd hsmall (by decide)
  have hdotted : c ≠ 'İ' := by rintro rfl; exact absurd hsmall (by decide)
  have hhead : (Text.lower t).toList.head? = some c.toLower := by
    rw [Text.lower, String.toList_ofList, Text.lowerChars, hchars, Text.lowerFrom, if_neg hsigma,
      if_neg hdotted, if_pos hsmall]
    rfl
  rw [word] at hhead
  cases b with
  | true => exact ht (Option.some.inj hhead).symm
  | false => exact hf (Option.some.inj hhead).symm

theorem not_whole_of_flag {t : String} {b : Bool} (word : Text.lower t = flagText b) (i : Int) :
    ¬IsWhole t i := fun whole => not_startsNumber word (startsNumber_of_whole whole.1)

theorem not_flag_iff {t : String} :
    ¬(Text.lower t = "true" ∨ Text.lower t = "false") ↔ ∀ b, Text.lower t ≠ flagText b := by
  rw [not_or, Bool.forall_bool, and_comm]
  rfl

theorem filter_eq_none {t : String} (none : ∀ i, ¬IsWhole t i) :
    (Digits.readInt? t.toList).filter Digits.fitsInt64 = .none := by
  rw [Option.eq_none_iff_forall_ne_some]
  intro i read
  exact none i (Option.filter_eq_some_iff.1 read)

/-! ## What a text is loaded as -/

theorem respelled_flag {t : String} {b : Bool} (word : Text.lower t = flagText b) :
    respelled t = flagText b := by
  have hword : Text.lower t = "true" ∨ Text.lower t = "false" := by
    rw [word]
    cases b with
    | true => exact Or.inl rfl
    | false => exact Or.inr rfl
  rw [respelled, if_pos hword, word]

theorem respelled_whole {t : String} {i : Int} (whole : IsWhole t i) :
    respelled t = Digits.intText i := by
  have hplain := not_flag_iff.2 fun b word => not_whole_of_flag word i whole
  rw [respelled, if_neg hplain, Option.filter_eq_some_iff.2 whole]

theorem respelled_real {t : String} {v : Binary64} (read : Binary64.ofText? t = some v)
    (other : ∀ i, ¬IsWhole t i) : respelled t = v.plainText := by
  have hplain := not_flag_iff.2 fun b word => not_startsNumber word (startsNumber_of_real read)
  rw [respelled, if_neg hplain, filter_eq_none other, read]

theorem respelled_other {t : String} (flag : ∀ b, Text.lower t ≠ flagText b)
    (whole : ∀ i, ¬IsWhole t i) (real : Binary64.ofText? t = none) : respelled t = t := by
  rw [respelled, if_neg (not_flag_iff.2 flag), filter_eq_none whole, real]

theorem asText_ofVariable (t : String) : (Found.ofVariable t).asText = .ok (respelled t) := by
  rw [Found.ofVariable]
  split
  · rename_i hword
    rw [respelled_flag (b := true) hword]
    rfl
  · split
    · rename_i hword
      rw [respelled_flag (b := false) hword]
      rfl
    · rename_i htrue hfalse
      rw [respelled, if_neg (not_or.2 ⟨htrue, hfalse⟩)]
      cases (Digits.readInt? t.toList).filter Digits.fitsInt64 with
      | some i => rfl
      | none => cases Binary64.ofText? t with
        | some v => rfl
        | none => rfl

/-- A text is loaded as it is exactly if it is written as it would be printed. -/
theorem respelled_eq_self_iff (t : String) : respelled t = t ↔ AsPrinted t := by
  constructor
  · intro same
    exact ⟨fun b word => same.symm.trans (respelled_flag word),
      fun i whole => same.symm.trans (respelled_whole whole),
      fun v read other => same.symm.trans (respelled_real read other)⟩
  · intro printed
    by_cases hflag : ∃ b, Text.lower t = flagText b
    · obtain ⟨b, hword⟩ := hflag
      exact (respelled_flag hword).trans (printed.flag b hword).symm
    · by_cases hwhole : ∃ i, IsWhole t i
      · obtain ⟨i, hi⟩ := hwhole
        exact (respelled_whole hi).trans (printed.whole i hi).symm
      · cases hreal : Binary64.ofText? t with
        | some v =>
          exact (respelled_real hreal (not_exists.1 hwhole)).trans
            (printed.real v hreal (not_exists.1 hwhole)).symm
        | none => exact respelled_other (not_exists.1 hflag) (not_exists.1 hwhole) hreal

/-! ## What is found for a credential -/

variable {file : Option File} {given : List (String × String)} {s : Settings}

theorem Credential.take_of_ofGiven {found : Given} (c : Credential) (read : ofGiven found = .ok s) :
    take found c.key Found.asText "" = .ok (c.held s) := by
  simp only [ofGiven, Except.bind_eq_ok] at read
  obtain ⟨address, -, tradeApiAddress, -, token, htoken, secret, hsecret, timeout, -, insecure, -,
    delay, -, debug, -, hs⟩ := read
  cases hs
  cases c with
  | token => exact htoken
  | secret => exact hsecret

theorem Credential.held_normalize (c : Credential) : c.held s.normalize = c.held s := by
  cases c with
  | token => simp only [held, normalize]
  | secret => simp only [held, normalize]

/-- What a file gives, in its order. -/
def Filed : Option File → Given → Prop
  | none, filed => filed = []
  | some f, filed => ∃ entries, f.entries? = some entries ∧
    filed = entries.map fun e => ((setting e.1 e.2).1, (setting e.1 e.2).2, .file f.path)

theorem filed_of_fromFile {f : File} {filed : Given} (read : fromFile f = .ok filed) :
    Filed (some f) filed := by
  rw [fromFile] at read
  split at read
  · rename_i entries hentries
    refine ⟨entries, hentries, ?_⟩
    rw [← Except.ok.inj read]
  · cases read

theorem normalize_of_ofGiven {found : Given}
    (read : (do
      let settings ← (ofGiven found).mapError ClientError.settings
      pure settings.normalize) = Except.ok s) :
    ∃ settings, ofGiven found = .ok settings ∧ settings.normalize = s := by
  obtain ⟨settings, hread, hs⟩ := Except.bind_eq_ok.1 read
  exact ⟨settings, Except.mapError_eq_ok.1 hread, Except.ok.inj hs⟩

/-- What is loaded is made normal after it is taken from the file and the variables. -/
theorem ofGiven_of_load (loaded : load file given = .ok s) :
    ∃ filed settings, Filed file filed ∧ ofGiven (filed ++ fromVariables given) = .ok settings ∧
      settings.normalize = s := by
  cases file with
  | none => exact ⟨[], (normalize_of_ofGiven loaded).imp fun _ read => ⟨rfl, read⟩⟩
  | some f =>
    obtain ⟨filed, hfiled, hread⟩ := Except.bind_eq_ok.1 loaded
    exact ⟨filed, (normalize_of_ofGiven hread).imp fun _ read =>
      ⟨filed_of_fromFile (Except.mapError_eq_ok.1 hfiled), read⟩⟩

theorem Credential.take_of_load (c : Credential) (loaded : load file given = .ok s) :
    ∃ filed, Filed file filed ∧
      take (filed ++ fromVariables given) c.key Found.asText "" = .ok (c.held s) := by
  obtain ⟨filed, settings, hfiled, hread, rfl⟩ := ofGiven_of_load loaded
  rw [held_normalize]
  exact ⟨filed, hfiled, c.take_of_ofGiven hread⟩

/-- The last that was found for a setting. -/
def lastFound? (key : String) (found : Given) : Option Found :=
  (found.reverse.lookup key).map (·.1)

section

variable {key : String} {found : Given}

theorem take_eq_ok {α : Type} {read : Found → Except Found.Mismatch α} {usual a : α} :
    take found key read usual = .ok a ↔
      lastFound? key found = none ∧ usual = a ∨
        ∃ x, lastFound? key found = some x ∧ read x = .ok a := by
  rw [take, lastFound?]
  cases found.reverse.lookup key with
  | none => simp
  | some x => simp [Except.mapError_eq_ok]

theorem lastFound?_append (key : String) (earlier later : Given) :
    lastFound? key (earlier ++ later) = (lastFound? key later).or (lastFound? key earlier) := by
  rw [lastFound?, List.reverse_append, List.lookup_append, Option.map_or]
  rfl

theorem lookup_filed (key : String) (o : Origin) (entries : List (String × Found)) :
    ((entries.map fun e => ((setting e.1 e.2).1, (setting e.1 e.2).2, o)).lookup key).map (·.1) =
      (entries.map fun e => setting e.1 e.2).lookup key := by
  induction entries with
  | nil => rfl
  | cons e entries ih =>
    rw [List.map_cons, List.map_cons]
    obtain ⟨k, x⟩ := setting e.1 e.2
    rw [List.lookup_cons, List.lookup_cons]
    cases key == k with
    | true => rfl
    | false => exact ih

theorem lastFound?_filed (filed : Filed file found) :
    lastFound? key found = fileFound? key file := by
  cases file with
  | none =>
    cases filed
    rfl
  | some f =>
    obtain ⟨entries, hentries, rfl⟩ := filed
    rw [lastFound?, ← List.map_reverse, lookup_filed, fileFound?, Option.bind_some, hentries,
      Option.bind_some, List.map_reverse]

theorem setting_key (key : String) (x y : Found) : (setting key x).1 = (setting key y).1 := by
  simp only [setting]
  split <;> rfl

theorem stepsInside_cases {cs : List Char} {inside : Found}
    (steps : stepsInside cs = some inside) : inside = .table ∨ inside = .list := by
  obtain ⟨-, hfirst⟩ := Option.ite_none_right_eq_some.1 steps
  split at hfirst
  · exact Or.inl (Option.some.inj hfirst).symm
  · exact Or.inr (Option.some.inj hfirst).symm
  · cases hfirst

/-- A key that leads inside of a setting gives no text. -/
theorem eq_of_asText {key u : String} {x : Found} (read : (setting key x).2.asText = .ok u) :
    x.asText = .ok u := by
  simp only [setting] at read
  split at read
  · rename_i inside hinside
    rcases stepsInside_cases hinside with rfl | rfl
    · cases read
    · cases read
  · exact read

/-- What a variable gives. -/
def variableFound? (v : String × String) : Option (String × Found × Origin) :=
  (variableKey? v.1).map fun k =>
    ((setting k (.ofVariable v.2)).1, (setting k (.ofVariable v.2)).2, .environment)

theorem fromVariables_eq (given : List (String × String)) :
    fromVariables given = given.filterMap variableFound? := by
  refine congrArg (List.filterMap · given) ?_
  funext v
  rw [variableFound?]

theorem lookup_variables (key : String) (given : List (String × String)) :
    ((given.filterMap variableFound?).lookup key = none ∧
        given.find? (fun v => variableSetting? v.1 = some key) = none) ∨
      ∃ v k, given.find? (fun v => variableSetting? v.1 = some key) = some v ∧
        (given.filterMap variableFound?).lookup key =
          some ((setting k (.ofVariable v.2)).2, .environment) := by
  induction given with
  | nil => exact Or.inl ⟨rfl, rfl⟩
  | cons v given ih =>
    rw [List.find?_cons]
    cases hkey : variableKey? v.1 with
    | none =>
      have hentry : variableFound? v = none := by rw [variableFound?, hkey, Option.map_none]
      have hother : variableSetting? v.1 = none := by rw [variableSetting?, hkey, Option.map_none]
      rw [List.filterMap_cons_none hentry, hother]
      exact ih
    | some k =>
      have hentry : variableFound? v = some ((setting k (.ofVariable v.2)).1,
          (setting k (.ofVariable v.2)).2, .environment) := by
        rw [variableFound?, hkey, Option.map_some]
      have hsetting : variableSetting? v.1 = some (setting k (.ofVariable v.2)).1 := by
        rw [variableSetting?, hkey, Option.map_some, setting_key k .nothing (.ofVariable v.2)]
      rw [List.filterMap_cons_some hentry, hsetting, List.lookup_cons]
      by_cases hsame : (setting k (.ofVariable v.2)).1 = key
      · rw [hsame, beq_self_eq_true, decide_eq_true rfl]
        exact Or.inr ⟨v, k, rfl, rfl⟩
      · rw [beq_eq_false_iff_ne.2 (Ne.symm hsame),
          decide_eq_false fun same => hsame (Option.some.inj same)]
        exact ih

theorem lastFound?_variables (key : String) (given : List (String × String)) :
    (lastFound? key (fromVariables given) = none ∧ variableText? key given = none) ∨
      ∃ t k, variableText? key given = some t ∧
        lastFound? key (fromVariables given) = some (setting k (.ofVariable t)).2 := by
  rw [lastFound?, fromVariables_eq, ← List.filterMap_reverse, variableText?]
  rcases lookup_variables key given.reverse with ⟨hnone, hfind⟩ | ⟨v, k, hfind, hsome⟩
  · rw [hnone, hfind]
    exact Or.inl ⟨rfl, rfl⟩
  · rw [hsome, hfind]
    exact Or.inr ⟨v.2, k, rfl, rfl⟩

end

/-- The variable of a credential gives it. -/
theorem variableSetting?_of_lower (c : Credential) {name : String}
    (named : Text.lower name = variableMark ++ c.key) : variableSetting? name = some c.key := by
  rw [variableSetting?, variableKey?, named]
  cases c with
  | token => rfl
  | secret => rfl

/-- What is loaded for a credential: what its variable is respelled as, which is what it is set to
exactly if that is written as it would be printed; without a variable the text of the file, and the
empty text if the file gives nothing either. -/
theorem credentials_loaded (file : Option File) (given : List (String × String)) (s : Settings)
    (loaded : load file given = .ok s) (c : Credential) :
    (∀ name, Text.lower name = variableMark ++ c.key → variableSetting? name = some c.key) ∧
    (∀ t, variableText? c.key given = some t →
      c.held s = respelled t ∧ (c.held s = t ↔ AsPrinted t)) ∧
    (variableText? c.key given = none →
      (∀ u, fileFound? c.key file = some (.text u) → c.held s = u) ∧
      (fileFound? c.key file = none → c.held s = "")) := by
  obtain ⟨filed, hfiled, htake⟩ := c.take_of_load loaded
  have hfound := lastFound?_append c.key filed (fromVariables given)
  refine ⟨fun name => variableSetting?_of_lower c, ?_⟩
  rcases lastFound?_variables c.key given with ⟨hnone, htext⟩ | ⟨t, k, htext, hsome⟩
  · rw [hnone, Option.none_or, lastFound?_filed hfiled] at hfound
    rw [htext]
    refine ⟨nofun, fun _ => ?_⟩
    rcases take_eq_ok.1 htake with ⟨hnothing, husual⟩ | ⟨x, hx, hread⟩
    · rw [hfound] at hnothing
      rw [hnothing]
      exact ⟨nofun, fun _ => husual.symm⟩
    · rw [hfound] at hx
      rw [hx]
      refine ⟨?_, nofun⟩
      rintro u ⟨⟩
      exact (Except.ok.inj hread).symm
  · rw [hsome, Option.some_or] at hfound
    rw [htext]
    refine ⟨?_, nofun⟩
    rintro _ ⟨⟩
    have hheld : c.held s = respelled t := by
      rcases take_eq_ok.1 htake with ⟨hnothing, -⟩ | ⟨x, hx, hread⟩
      · cases hfound.symm.trans hnothing
      · cases hfound.symm.trans hx
        exact (Except.ok.inj ((asText_ofVariable t).symm.trans (eq_of_asText hread))).symm
    rw [hheld]
    exact ⟨rfl, respelled_eq_self_iff t⟩

/-- A word, and a number that is written as it is printed, are loaded as they are. -/
theorem key_loaded_as_set :
    let given := [("TOKENOMY_TOKEN", "my-key"), ("TOKENOMY_SECRET", "-7")]
    ∃ s, load none given = .ok s ∧ s.token = "my-key" ∧ s.secret = "-7" := by
  intro given
  have hloaded : load none given = .ok { token := "my-key", secret := Digits.intText (-7) } := rfl
  obtain ⟨-, htoken, -⟩ := credentials_loaded none given _ hloaded .token
  obtain ⟨-, hsecret, -⟩ := credentials_loaded none given _ hloaded .secret
  have hprinted : AsPrinted "-7" := by
    refine ⟨fun b word => ?_, fun i whole => ?_, fun v _ other => absurd ⟨rfl, rfl⟩ (other (-7))⟩
    · cases b with
      | true => exact absurd word (by decide)
      | false => exact absurd word (by decide)
    · cases (rfl : Digits.readInt? "-7".toList = some (-7)).symm.trans whole.1
      rw [Digits.intText, Digits.ofInt, if_pos (by decide), Digits.ofNat_small (by decide)]
      rfl
  exact ⟨_, hloaded, (htoken "my-key" rfl).1, (hsecret "-7" rfl).2.2 hprinted⟩

/-- Leading zeros of a secret are lost. -/
theorem leading_zeros_lost :
    ¬∀ (file : Option File) (given : List (String × String)) (s : Settings),
      load file given = .ok s → ∀ (c : Credential) (t : String),
        variableText? c.key given = some t → c.held s = t := by
  intro claimed
  have hloaded : load none [("TOKENOMY_SECRET", "007")] =
      .ok { secret := Digits.intText 7 } := rfl
  have hsame : Digits.intText 7 = "007" := claimed none _ _ hloaded .secret "007" rfl
  rw [Digits.intText, Digits.ofInt, if_neg (by decide), Digits.ofNat_small (by decide)] at hsame
  exact absurd hsame (by decide)

end ExchangeClient.Settings
