import ExchangeClient.Proofs.Json.Reordering
import ExchangeClient.Proofs.Json.Values

/-!
# Members in the order of their names

A lenient object is walked through in the order of the names as they stand, while
each member is taken under its name in lower case. What is said of one part of
the result by several members is decided by the last of them in this order. If no
two names are the same in lower case, there is at most one to decide it.
-/

namespace ExchangeClient.TradeApi

open Json

variable {σ β : Type} {take : σ → String → Value → Except ContentError σ} {s t : σ}

theorem foldMembers_append (before after : List (String × Value)) :
    foldMembers take s (before ++ after) =
      foldMembers take s before >>= fun t => foldMembers take t after := by
  induction before generalizing s with
  | nil => rfl
  | cons m before ih =>
    simp only [List.cons_append, foldMembers, ih]
    cases take s (Text.lower m.1) m.2 with
    | error e => rfl
    | ok s' => rfl

/-- What every member preserves holds of the result. -/
theorem foldMembers_invariant {inv : σ → Prop} {members : List (String × Value)}
    (step : ∀ {s t name v}, inv s → take s name v = .ok t → inv t) (start : inv s)
    (read : foldMembers take s members = .ok t) : inv t := by
  induction members generalizing s with
  | nil => exact Except.ok.inj read ▸ start
  | cons m members ih =>
    obtain ⟨u, hfirst, hrest⟩ := Except.bind_eq_ok.1 read
    exact ih (step start hfirst) hrest

/-- Names in lower case are taken as they are. -/
theorem foldMembers_lowered {members : List (String × Value)}
    (lowered : ∀ name ∈ members.map (·.1), Text.lower name = name) :
    foldMembers take s members = members.foldlM (fun s m => take s m.1 m.2) s := by
  induction members generalizing s with
  | nil => rfl
  | cons m members ih =>
    obtain ⟨hfirst, hrest⟩ := List.forall_mem_cons.1 lowered
    rw [foldMembers, List.foldlM_cons, hfirst]
    exact bind_congr fun s => ih hrest

/-! ## The part of a result that some members are about -/

/-- Of the members of an object some are about the part of the result that `look` sees, and say
what it is. The others leave it as it is. -/
structure Concerns (take : σ → String → Value → Except ContentError σ) (about : String → Prop)
    (gives : String → Value → Except ContentError β) (look : σ → β) : Prop where
  means : ∀ {s t name v}, about name → take s name v = .ok t → gives name v = .ok (look t)
  keeps : ∀ {s t name v}, ¬about name → take s name v = .ok t → look t = look s

variable {about : String → Prop} {gives : String → Value → Except ContentError β} {look : σ → β}

/-- The last member that is about a part of the result decides it. -/
theorem Concerns.last (concerns : Concerns take about gives look) {members : List (String × Value)}
    (read : foldMembers take s members = .ok t) :
    (look t = look s ∧ ∀ m ∈ members, ¬about (Text.lower m.1)) ∨
      ∃ before m after, members = before ++ m :: after ∧ about (Text.lower m.1) ∧
        (∀ m' ∈ after, ¬about (Text.lower m'.1)) ∧
          gives (Text.lower m.1) m.2 = .ok (look t) := by
  induction members generalizing s with
  | nil => exact Or.inl ⟨congrArg look (Except.ok.inj read).symm, nofun⟩
  | cons m members ih =>
    obtain ⟨u, hfirst, hrest⟩ := Except.bind_eq_ok.1 read
    rcases ih hrest with ⟨hkept, hnone⟩ | ⟨before, m', after, rfl, hlast⟩
    · by_cases habout : about (Text.lower m.1)
      · have hgives := concerns.means habout hfirst
        exact Or.inr ⟨[], m, members, rfl, habout, hnone, hkept ▸ hgives⟩
      · exact Or.inl ⟨hkept.trans (concerns.keeps habout hfirst),
          List.forall_mem_cons.2 ⟨habout, hnone⟩⟩
    · exact Or.inr ⟨m :: before, m', after, rfl, hlast⟩

/-- A change of the result that is undone by the members that are about some part of it, and that
the others leave. -/
structure Undone (take : σ → String → Value → Except ContentError σ) (about : String → Prop)
    (change : σ → σ) : Prop where
  undoes : ∀ {s name v}, about name → take (change s) name v = take s name v
  leaves : ∀ {s name v}, ¬about name → take (change s) name v = (take s name v).map change

variable {change : σ → σ} {members : List (String × Value)}

theorem Undone.kept (undone : Undone take about change)
    (others : ∀ m ∈ members, ¬about (Text.lower m.1)) :
    foldMembers take (change s) members = (foldMembers take s members).map change := by
  induction members generalizing s with
  | nil => rfl
  | cons m members ih =>
    obtain ⟨hfirst, hrest⟩ := List.forall_mem_cons.1 others
    rw [foldMembers, foldMembers, undone.leaves hfirst]
    cases take s (Text.lower m.1) m.2 with
    | error e => rfl
    | ok u => exact ih hrest

/-- One member that is about the part suffices to undo the change. -/
theorem Undone.undone (undone : Undone take about change)
    (present : ∃ m ∈ members, about (Text.lower m.1)) :
    foldMembers take (change s) members = foldMembers take s members := by
  induction members generalizing s with
  | nil =>
    obtain ⟨_, hm, -⟩ := present
    cases hm
  | cons m members ih =>
    rw [foldMembers, foldMembers]
    by_cases hfirst : about (Text.lower m.1)
    · rw [undone.undoes hfirst]
    · have hrest : ∃ m' ∈ members, about (Text.lower m'.1) := by
        obtain ⟨m', hm', habout⟩ := present
        rcases List.mem_cons.1 hm' with rfl | hlater
        · exact absurd habout hfirst
        · exact ⟨m', hlater, habout⟩
      rw [undone.leaves hfirst]
      cases take s (Text.lower m.1) m.2 with
      | error e => rfl
      | ok u => exact ih hrest

/-! ## Objects -/

variable {initial : σ} {encode : σ → Value} {d : Document}

/-- The members of an object are taken one by one. -/
theorem objectCodec_of_object
    (valued : Value.ofDocument d = .ok (.object members)) :
    (objectCodec take initial encode).decode d =
      (foldMembers take initial members).mapError .content := by
  obtain ⟨_, _, rfl, -, -⟩ := Value.object_of_object valued
  simp only [objectCodec, Codec.value, valued, Except.mapError, bind, Except.bind]

/-- Only objects are read. -/
theorem object_of_objectCodec (read : (objectCodec take initial encode).decode d = .ok t) :
    ∃ members, Value.ofDocument d = .ok (.object members) ∧
      foldMembers take initial members = .ok t := by
  cases d with
  | object members ending =>
    obtain ⟨v, hv, -⟩ := Except.bind_eq_ok.1 read
    have hvalued := Except.mapError_eq_ok.1 hv
    obtain ⟨ms, -, rfl⟩ := Except.map_eq_ok.1 hvalued
    rw [objectCodec_of_object hvalued, Except.mapError_eq_ok] at read
    exact ⟨ms, hvalued, read⟩
  | deep d => cases d <;> cases read
  | leaf | array => cases read

/-! ## Names that start alike -/

theorem suffixAfter?_eq_some_iff {start name suffix : String} :
    suffixAfter? start name = some suffix ↔ name = start ++ suffix := by
  rw [suffixAfter?, Option.ite_none_right_eq_some, List.isPrefixOf_iff_prefix,
    ← String.toList_inj, String.toList_append, ← String.length_toList]
  constructor
  · rintro ⟨⟨rest, hrest⟩, hsuffix⟩
    obtain rfl := Option.some.inj hsuffix
    rw [← hrest, List.drop_left, String.toList_ofList]
  · intro hname
    rw [hname, List.drop_left, String.ofList_toList]
    exact ⟨List.prefix_append _ _, rfl⟩

/-! ## Names that are distinct in lower case -/

/-- What stands under a name in lower case. -/
def lowerMember? (name : String) (members : List (Key × Document)) : Option Document :=
  (members.find? fun m => m.1.name.map Text.lower = .ok name).map (·.2)

def LowerDistinct (members : List (Key × Document)) : Prop :=
  (members.map fun m => m.1.name.map Text.lower).Nodup

/-- Members that are distinct in lower case are taken as they are, but for their order. -/
theorem LowerDistinct.perm {members : List (Key × Document)} {rows : List (String × Value)}
    (distinct : LowerDistinct members)
    (each : List.Forall₂ (fun m e => m.1.name = .ok e.1 ∧ Value.ofDocument m.2 = .ok e.2)
      members rows) : (Dictionary.ofList rows).entries.Perm rows := by
  have hnames : List.Forall₂ (· = ·) (members.map fun m => m.1.name.map Text.lower)
      (rows.map fun e => .ok (Text.lower e.1)) := by
    rw [List.forall₂_map_left_iff, List.forall₂_map_right_iff]
    exact each.imp fun m e related => congrArg (Except.map Text.lower) related.1
  rw [List.forall₂_eq_eq_eq] at hnames
  rw [LowerDistinct, hnames] at distinct
  rw [Dictionary.entries_ofList_perm_iff]
  exact .of_map (fun name => (.ok (Text.lower name) : Except Fault String)) (by rwa [List.map_map])

theorem find?_lower {members : List (Key × Document)} (distinct : LowerDistinct members)
    {m : Key × Document} (mem : m ∈ members) {name : String}
    (named : m.1.name.map Text.lower = .ok name) : lowerMember? name members = some m.2 := by
  cases hfound : members.find? fun m => m.1.name.map Text.lower = .ok name with
  | none =>
    have hother := List.find?_eq_none.1 hfound m mem
    exact absurd (decide_eq_true named) hother
  | some m' =>
    have hnamed := List.find?_some hfound
    have hsame := List.inj_on_of_nodup_map distinct mem (List.mem_of_find?_eq_some hfound)
      (named.trans (of_decide_eq_true hnamed).symm)
    rw [lowerMember?, hfound, hsame, Option.map_some]

/-- A part that only the members of one name are about is what the member of this name gives, if
there is just one. -/
theorem Concerns.of_lowerMember {name : String} (concerns : Concerns take (· = name) gives look)
    {members : List (Key × Document)} {ending : Option Fault} (distinct : LowerDistinct members)
    (read : (objectCodec take initial encode).decode (.object members ending) = .ok t) :
    match lowerMember? name members with
    | none => look t = look initial
    | some d => ∃ v, Value.ofDocument d = .ok v ∧ gives name v = .ok (look t) := by
  obtain ⟨entries, hvalued, hfold⟩ := object_of_objectCodec read
  obtain ⟨_, rows, hdocument, heach, rfl⟩ := Value.object_of_object hvalued
  cases hdocument
  have hperm := distinct.perm heach
  rcases concerns.last hfold with ⟨hkept, hnone⟩ | ⟨before, e, after, hentries, hnamed, -, hgives⟩
  · have hmissing : lowerMember? name members = none := by
      rw [lowerMember?, Option.map_eq_none_iff, List.find?_eq_none]
      intro m hm
      obtain ⟨e, he, hname, -⟩ := exists_related_of_mem heach.flip hm
      have hother := hnone e (hperm.mem_iff.2 he)
      simpa [hname, Except.map] using hother
    rw [hmissing]
    exact hkept
  · have he : e ∈ rows := hperm.mem_iff.1 (hentries ▸ by simp)
    obtain ⟨m, hm, hname, hvalue⟩ := exists_related_of_mem heach he
    have hlower : m.1.name.map Text.lower = .ok name := by rw [hname, Except.map, hnamed]
    rw [find?_lower distinct hm hlower]
    exact ⟨e.2, hvalue, hnamed ▸ hgives⟩

end ExchangeClient.TradeApi
