import ExchangeClient.Proofs.Json.RecordCodecs
import ExchangeClient.Proofs.Results

/-!
# Members of any object

An object may have members that are no fields, in any order, with contents of
any kind. If its names are distinct, each member is read on its own: the first
that cannot be read is what reading the record fails with, and if all can be
read, the record shows of each field what its member says.
-/

namespace ExchangeClient

namespace Json

/-- Members as they stand in a document. -/
def quotedMembers (members : List (String × Document)) : List (Key × Document) :=
  members.map fun m => (.quoted (.string m.1), m.2)

/-- What a codec reads from the member of a name; a default if there is none. -/
def memberOr {β : Type} (c : Codec β) (default : β) (name : String)
    (members : List (String × Document)) : Except Error β :=
  match members.lookup name with
  | some d => c.decode d
  | none => .ok default

section

variable {β : Type} {c : Codec β} {name : String}

theorem memberOr_cons_self (d : Document) (default : β) (members : List (String × Document)) :
    memberOr c default name ((name, d) :: members) = c.decode d := by
  rw [memberOr, List.lookup_cons_self]

theorem memberOr_cons_other {m : String × Document} (other : m.1 ≠ name) (default : β)
    (members : List (String × Document)) :
    memberOr c default name (m :: members) = memberOr c default name members := by
  have hother : (name == m.1) = false := beq_eq_false_iff_ne.2 (Ne.symm other)
  rw [memberOr, List.lookup_cons, hother]
  rfl

theorem memberOr_of_fresh {members : List (String × Document)}
    (fresh : name ∉ members.map (·.1)) (default : β) :
    memberOr c default name members = .ok default := by
  have hnone : members.lookup name = none := by
    rw [List.lookup_eq_none_iff]
    intro m hm
    rw [bne_iff_ne]
    rintro rfl
    exact fresh (List.mem_map.2 ⟨m, hm, rfl⟩)
  rw [memberOr, hnone]

theorem memberOr_of_mem {members : List (String × Document)} (once : (members.map (·.1)).Nodup)
    {d : Document} (mem : (name, d) ∈ members) (default : β) :
    memberOr c default name members = c.decode d := by
  induction members with
  | nil => cases mem
  | cons m members ih =>
    obtain ⟨hnew, hrest⟩ := List.nodup_cons.1 once
    rcases List.mem_cons.1 mem with rfl | hlater
    · exact memberOr_cons_self d default members
    · have hother : m.1 ≠ name := by
        rintro rfl
        exact hnew (List.mem_map.2 ⟨_, hlater, rfl⟩)
      rw [memberOr_cons_other hother, ih hrest hlater]

end

variable {σ β : Type}

/-- Reading a field leaves what a look at the record sees. -/
def RecordField.Keeps (f : RecordField σ) (look : σ → β) : Prop :=
  ∀ d u, f.read d = .ok u → ∀ t, look (u t) = look t

theorem RecordField.keeps_of {γ : Type} {f : RecordField σ} {c : Codec γ} {set : γ → σ → σ}
    {look : σ → β} (read : ∀ d, f.read d = (c.decode d).map set)
    (same : ∀ a t, look (set a t) = look t) : f.Keeps look := by
  intro d u success t
  rw [read] at success
  obtain ⟨a, -, rfl⟩ := Except.map_eq_ok.1 success
  exact same a t

namespace Record

/-- Fields that have one name each and need not be there. -/
structure Loose (fields : List (RecordField σ)) : Prop where
  oneName : ∀ f ∈ fields, f.otherNames = []
  optional : ∀ f ∈ fields, f.presence ≠ .required

/-- What a member does to the record that is being read. -/
def change (fields : List (RecordField σ)) (m : String × Document) : Except Error (σ → σ) :=
  match fields.find? (RecordField.isCalled m.1) with
  | some f => f.read m.2
  | none => passOver m.1 m.2

variable {fields : List (RecordField σ)}

theorem Loose.find?_some (loose : Loose fields) {name : String} {f : RecordField σ}
    (found : fields.find? (RecordField.isCalled name) = some f) : f ∈ fields ∧ f.name = name := by
  have hmem := List.mem_of_find?_eq_some found
  have hcalled := List.find?_some found
  simp only [RecordField.isCalled, loose.oneName f hmem, List.contains_nil, Bool.or_false,
    beq_iff_eq] at hcalled
  exact ⟨hmem, hcalled⟩

/-- A member of a new name is read, and then come the others. -/
theorem readMembers_cons (loose : Loose fields) {m : String × Document} {seen : List String}
    (fresh : m.1 ∉ seen) (s : σ) (members : List (String × Document)) :
    ∃ seen' ⊆ m.1 :: seen, readMembers fields passOver none seen s (quotedMembers (m :: members)) =
      match change fields m with
      | .error e => .error e
      | .ok u => readMembers fields passOver none seen' (u s) (quotedMembers members) := by
  have hkey : Key.name (.quoted (.string m.1)) = .ok m.1 := rfl
  cases hfound : fields.find? (RecordField.isCalled m.1) with
  | none =>
    have hchange : change fields m = passOver m.1 m.2 := by rw [change, hfound]
    refine ⟨seen, List.subset_cons_self m.1 seen, ?_⟩
    cases hread : change fields m with
    | error e | ok u =>
      rw [hread] at hchange
      simp only [quotedMembers, List.map_cons, readMembers, hkey, hfound, ← hchange]
  | some f =>
    obtain ⟨-, hname⟩ := loose.find?_some hfound
    have hnew : seen.contains m.1 = false := by simpa using fresh
    have hchange : change fields m = f.read m.2 := by rw [change, hfound]
    refine ⟨m.1 :: seen, List.Subset.refl _, ?_⟩
    cases hread : change fields m with
    | error e | ok u =>
      rw [hread] at hchange
      simp only [quotedMembers, List.map_cons, readMembers, hkey, hfound, hname, hnew, ← hchange,
        Bool.false_eq_true, if_false]

/-- Members with distinct names are read one after the other, up to the first that fails. -/
theorem readMembers_cases (loose : Loose fields) {members : List (String × Document)}
    (distinct : (members.map (·.1)).Nodup) {seen : List String}
    (fresh : ∀ name ∈ members.map (·.1), name ∉ seen) (s : σ) :
    (∃ changes, List.Forall₂ (fun m u => change fields m = .ok u) members changes ∧
      readMembers fields passOver none seen s (quotedMembers members) =
        .ok (applied changes s)) ∨
    ∃ m ∈ members, ∃ e, change fields m = .error e ∧
      readMembers fields passOver none seen s (quotedMembers members) = .error e := by
  induction members generalizing seen s with
  | nil =>
    have hmissing : missing? fields seen = none :=
      missing?_eq_none fun f hf required => absurd required (loose.optional f hf)
    refine Or.inl ⟨[], .nil, ?_⟩
    simp only [quotedMembers, List.map_nil, readMembers, hmissing]
    rfl
  | cons m members ih =>
    obtain ⟨hnew, hrest⟩ := List.nodup_cons.1 distinct
    obtain ⟨seen', hsub, hread⟩ :=
      readMembers_cons loose (fresh m.1 List.mem_cons_self) s members
    rw [hread]
    cases hchange : change fields m with
    | error e => exact Or.inr ⟨m, List.mem_cons_self, e, hchange, rfl⟩
    | ok u =>
      have hfresh : ∀ name ∈ members.map (·.1), name ∉ seen' := by
        intro name hmem hseen
        rcases List.mem_cons.1 (hsub hseen) with rfl | hbefore
        · exact hnew hmem
        · exact fresh name (List.mem_cons_of_mem m.1 hmem) hbefore
      rcases ih hrest hfresh (u s) with ⟨changes, heach, hok⟩ | ⟨m', hm', e, hfails, herror⟩
      · exact Or.inl ⟨u :: changes, .cons hchange heach, hok⟩
      · exact Or.inr ⟨m', List.mem_cons_of_mem m hm', e, hfails, herror⟩

/-- A field that is read by a codec and then seen in a record, while no other field changes what
is seen. -/
structure Shows (fields : List (RecordField σ)) (name : String) (c : Codec β) (look : σ → β) :
    Prop where
  reads : ∃ f ∈ fields, f.name = name ∧ (∀ d e, f.read d = .error e ↔ c.decode d = .error e) ∧
    ∀ d u, f.read d = .ok u → ∃ a, c.decode d = .ok a ∧ ∀ t, look (u t) = a
  keeps : ∀ f ∈ fields, f.name ≠ name → f.Keeps look

variable {name : String} {c : Codec β} {look : σ → β}

theorem Shows.of_read {f : RecordField σ} {set : σ → β → σ} (mem : f ∈ fields)
    (named : f.name = name) (read : ∀ d, f.read d = (c.decode d).map fun a t => set t a)
    (same : ∀ t a, look (set t a) = a) (keeps : ∀ f ∈ fields, f.name ≠ name → f.Keeps look) :
    Shows fields name c look := by
  refine ⟨⟨f, mem, named, ?_, ?_⟩, keeps⟩
  · intro d e
    rw [read]
    exact Except.map_eq_error
  · intro d u success
    rw [read] at success
    obtain ⟨a, hdecode, rfl⟩ := Except.map_eq_ok.1 success
    exact ⟨a, hdecode, fun t => same t a⟩

theorem Shows.of {set : σ → β → σ} (mem : RecordField.of name c look set ∈ fields)
    (same : ∀ t a, look (set t a) = a) (keeps : ∀ f ∈ fields, f.name ≠ name → f.Keeps look) :
    Shows fields name c look := .of_read mem rfl (fun _ => rfl) same keeps

theorem change_keeps (loose : Loose fields) (shows : Shows fields name c look)
    {m : String × Document} (other : m.1 ≠ name) {u : σ → σ} (changed : change fields m = .ok u)
    (t : σ) : look (u t) = look t := by
  rw [change] at changed
  split at changed
  · rename_i f hfound
    obtain ⟨hmem, hname⟩ := loose.find?_some hfound
    exact shows.keeps f hmem (hname ▸ other) m.2 u changed t
  · rw [passOver] at changed
    split at changed
    · cases changed
      rfl
    · cases changed

theorem change_field (distinct : Distinct fields) {f : RecordField σ} (mem : f ∈ fields)
    (d : Document) : change fields (f.name, d) = f.read d := by
  rw [change, find?_isCalled distinct mem]

theorem change_shows (distinct : Distinct fields) (shows : Shows fields name c look)
    {d : Document} :
    (∀ e, change fields (name, d) = .error e ↔ c.decode d = .error e) ∧
      ∀ u, change fields (name, d) = .ok u → ∃ a, c.decode d = .ok a ∧ ∀ t, look (u t) = a := by
  obtain ⟨f, hf, rfl, herror, hok⟩ := shows.reads
  rw [change_field distinct hf]
  exact ⟨herror d, hok d⟩

/-- A member that was read is none that fails. -/
theorem change_ne_error (distinct : Distinct fields) (shows : Shows fields name c look)
    {members : List (String × Document)} (once : (members.map (·.1)).Nodup) {default a : β}
    (read : memberOr c default name members = .ok a) {m : String × Document} (mem : m ∈ members)
    (named : m.1 = name) (e : Error) : change fields m ≠ .error e := by
  obtain ⟨k, d⟩ := m
  cases named
  intro hfails
  rw [memberOr_of_mem once mem] at read
  rw [(change_shows distinct shows).1 e, read] at hfails
  cases hfails

/-- What is seen of a record that was read is what its member says. -/
theorem memberOr_applied (loose : Loose fields) (distinct : Distinct fields)
    (shows : Shows fields name c look) {members : List (String × Document)}
    {changes : List (σ → σ)} (once : (members.map (·.1)).Nodup)
    (each : List.Forall₂ (fun m u => change fields m = .ok u) members changes) (s : σ) :
    memberOr c (look s) name members = .ok (look (applied changes s)) := by
  induction each generalizing s with
  | nil => rfl
  | @cons m u members changes changed each ih =>
    obtain ⟨hnew, hrest⟩ := List.nodup_cons.1 once
    have hlater := ih hrest (u s)
    by_cases hname : m.1 = name
    · obtain ⟨k, d⟩ := m
      cases hname
      obtain ⟨a, hdecode, hlook⟩ := (change_shows distinct shows).2 u changed
      rw [memberOr_cons_self, hdecode, ← hlook s, ← memberOr_of_fresh hnew]
      exact hlater
    · rw [change_keeps loose shows hname changed] at hlater
      rw [memberOr_cons_other hname, hlater]
      rfl

/-- A record is read from an object with distinct names, or fails with one of its members. -/
theorem decode_cases (loose : Loose fields) (distinct : Distinct fields)
    {members : List (String × Document)} (once : (members.map (·.1)).Nodup) (record : String)
    (initial : σ) :
    (∃ t, decode record fields initial (.object (quotedMembers members) none) = .ok t ∧
      (∀ m ∈ members, ∃ u, change fields m = .ok u) ∧
      ∀ {β : Type} {name : String} {c : Codec β} {look : σ → β}, Shows fields name c look →
        memberOr c (look initial) name members = .ok (look t)) ∨
    ∃ m ∈ members, ∃ e, change fields m = .error e ∧
      decode record fields initial (.object (quotedMembers members) none) = .error e := by
  rcases readMembers_cases loose once (fun _ _ => List.not_mem_nil) initial with
    ⟨changes, heach, hread⟩ | hfails
  · refine Or.inl ⟨applied changes initial, hread, ?_, ?_⟩
    · intro m hm
      obtain ⟨u, -, hchange⟩ := exists_related_of_mem heach.flip hm
      exact ⟨u, hchange⟩
    · intro β name c look shows
      exact memberOr_applied loose distinct shows once heach initial
  · exact Or.inr hfails

end Record
end Json
end ExchangeClient
