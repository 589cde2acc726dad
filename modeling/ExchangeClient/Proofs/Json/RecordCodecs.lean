import ExchangeClient.Proofs.Json.Codecs
import ExchangeClient.Proofs.Json.Records

/-!
# Records are read back

A written record has a member for each of its fields, but for those that are
left out. Reading such a member puts into effect what its field is known to do,
so reading the whole record puts the fields into effect one after the other. The
fields of a record do not get in each other's way, so the order does not matter.
-/

namespace ExchangeClient.Json

variable {σ α : Type} {d : ℕ}

namespace RecordField

/-- What reading back a written field does to the record that is being read. A field that is left
out must not be required and must change nothing. -/
structure Restores (d : ℕ) (f : RecordField σ) (update : σ → σ → σ) : Prop where
  fits : ∀ s v, f.write s = some v → v.Fits d
  reads : ∀ s v w, f.write s = some v → v.Reordered w → f.read w.toDocument = .ok (update s)
  omitted : ∀ s, f.write s = none → f.presence ≠ .required ∧ update s = id

/-- What a field holds after it was read back: what it held before, if it was left out. -/
def refill (omits : α → Bool) (r : α → α) (before a : α) : α := if omits a then before else r a

/-- A field is restored if just those values are left out that come back as what is there. -/
theorem refill_eq {omits : α → Bool} {r : α → α} {before : α}
    (only : ∀ a, omits a = true → r a = before) (a : α) : refill omits r before a = r a := by
  rw [refill]
  split
  · rename_i homitted
    exact (only a homitted).symm
  · rfl

@[simp] theorem refill_decimal (a : Decimal) :
    refill Decimal.isZero Decimal.reread .zero a = a.reread :=
  refill_eq (fun _ zero => Decimal.reread_of_isZero zero) a

@[simp] theorem refill_string (s : String) : refill String.isEmpty id "" s = s :=
  refill_eq (fun _ empty => String.isEmpty_iff.1 empty) s

@[simp] theorem refill_int64 (i : Int64) : refill (· == 0) id 0 i = i :=
  refill_eq (fun _ zero => beq_iff_eq.1 zero) i

@[simp] theorem refill_bool (b : Bool) : refill not id false b = b :=
  refill_eq (fun _ unset => by simpa using unset) b

@[simp] theorem refill_option {r : Option α → Option α} (fixed : r none = none) (o : Option α) :
    refill Option.isNone r none o = r o :=
  refill_eq (fun _ empty => Option.isNone_iff_eq_none.1 empty ▸ fixed) o

@[simp] theorem refill_list {r : List α → List α} (fixed : r [] = []) (xs : List α) :
    refill List.isEmpty r [] xs = r xs :=
  refill_eq (fun _ empty => List.isEmpty_iff.1 empty ▸ fixed) xs

@[simp] theorem refill_dictionary (r : α → α) (m : Dictionary α) :
    refill Dictionary.isEmpty (Dictionary.mapValues r) .empty m = m.mapValues r := by
  apply refill_eq
  intro m empty
  have hempty : m = .empty := Dictionary.ext_entries (List.isEmpty_iff.1 empty)
  rw [hempty, Dictionary.mapValues_empty]

namespace Restores

variable {c : Codec α} {r : α → α} {get : σ → α} {set : σ → α → σ} {name : String}

theorem of (restores : c.Restores d r) :
    (RecordField.of name c get set).Restores d fun s t => set t (r (get s)) where
  fits s v written := by
    obtain rfl := Option.some.inj written
    exact restores.fits (get s)
  reads s v w written reordered := by
    obtain rfl := Option.some.inj written
    have hread := restores.reads (get s) w reordered
    simp [RecordField.of, hread, Except.map]
  omitted s written := nomatch written

/-- A field that is never left out may be required. -/
theorem needed (restores : c.Restores d r) :
    Restores d (RecordField.of name c get set).needed fun s t => set t (r (get s)) := by
  have hof : Restores d (RecordField.of name c get set) fun s t => set t (r (get s)) := of restores
  exact ⟨hof.fits, hof.reads, fun s written => nomatch written⟩

/-- A field may be left out where putting back what a record has changes nothing. -/
theorem sparse {omits : α → Bool} (restores : c.Restores d r) (same : ∀ t, set t (get t) = t) :
    (RecordField.sparse name c get set omits).Restores d
      fun s t => set t (refill omits r (get t) (get s)) := by
  have hwrite : ∀ s, (RecordField.sparse name c get set omits).write s =
      if omits (get s) then none else some (c.encode (get s)) := fun _ => rfl
  constructor
  · intro s v written
    rw [hwrite] at written
    split at written
    · cases written
    · obtain rfl := Option.some.inj written
      exact restores.fits (get s)
  · intro s v w written reordered
    rw [hwrite] at written
    split at written
    · cases written
    · rename_i hkept
      obtain rfl := Option.some.inj written
      have hread := restores.reads (get s) w reordered
      simp [RecordField.sparse, RecordField.omitting, RecordField.of, hread, Except.map, refill,
        hkept]
  · intro s written
    rw [hwrite] at written
    split at written
    · rename_i homitted
      constructor
      · intro required
        cases required
      · funext t
        simp [refill, homitted, same]
    · cases written

theorem amount {get : σ → Decimal} {set : σ → Decimal → σ} (same : ∀ t, set t (get t) = t) :
    (RecordField.amount name get set).Restores d
      fun s t => set t (refill Decimal.isZero .reread (get t) (get s)) :=
  sparse .decimal same

theorem label {get : σ → String} {set : σ → String → σ} (same : ∀ t, set t (get t) = t) :
    (RecordField.label name get set).Restores d
      fun s t => set t (refill String.isEmpty id (get t) (get s)) :=
  sparse .string same

theorem count {get : σ → Int64} {set : σ → Int64 → σ} (same : ∀ t, set t (get t) = t) :
    (RecordField.count name get set).Restores d
      fun s t => set t (refill (· == 0) id (get t) (get s)) :=
  sparse .int64 same

theorem optional {get : σ → Option α} {set : σ → Option α → σ} (restores : c.Restores d r)
    (present : c.NeverNull) (same : ∀ t, set t (get t) = t) :
    (RecordField.optional name c get set).Restores d
      fun s t => set t (refill Option.isNone (Option.map r) (get t) (get s)) :=
  sparse (restores.option present) same

end Restores
end RecordField

namespace Record

/-- No field is called by the name of a later one. -/
def Distinct (fields : List (RecordField σ)) : Prop :=
  fields.Pairwise fun f g => f.isCalled g.name = false

instance (fields : List (RecordField σ)) : Decidable (Distinct fields) :=
  inferInstanceAs (Decidable (fields.Pairwise fun f g => f.isCalled g.name = false))

/-- The effect of all fields of a row. -/
def restored (updates : List (σ → σ → σ)) (s t : σ) : σ := updates.foldl (fun t u => u s t) t

@[simp] theorem restored_nil (s t : σ) : restored [] s t = t := rfl

@[simp] theorem restored_cons (u : σ → σ → σ) (updates : List (σ → σ → σ)) (s t : σ) :
    restored (u :: updates) s t = restored updates s (u s t) := rfl

/-- Fields that may be put into effect in any order. -/
def Commuting (updates : List (σ → σ → σ)) : Prop :=
  updates.Pairwise fun u u' => ∀ s t, u s (u' s t) = u' s (u s t)

@[simp] theorem commuting_nil : Commuting ([] : List (σ → σ → σ)) := .nil

@[simp] theorem commuting_cons {u : σ → σ → σ} {updates : List (σ → σ → σ)} :
    Commuting (u :: updates) ↔
      (∀ u' ∈ updates, ∀ s t, u s (u' s t) = u' s (u s t)) ∧ Commuting updates :=
  List.pairwise_cons

/-- A row of fields that are read back by their names, in any order. -/
structure Restores (d : ℕ) (fields : List (RecordField σ)) (updates : List (σ → σ → σ)) : Prop where
  distinct : Distinct fields
  commuting : Commuting updates
  each : List.Forall₂ (RecordField.Restores d) fields updates

theorem name_ne_of_not_isCalled {f g : RecordField σ} (other : f.isCalled g.name = false) :
    f.name ≠ g.name := by
  intro same
  simp [RecordField.isCalled, same] at other

theorem find?_isCalled {fields : List (RecordField σ)} (distinct : Distinct fields)
    {f : RecordField σ} (mem : f ∈ fields) :
    fields.find? (RecordField.isCalled f.name) = some f := by
  induction fields with
  | nil => cases mem
  | cons g fields ih =>
    obtain ⟨hothers, hrest⟩ := List.pairwise_cons.1 distinct
    rcases List.mem_cons.1 mem with rfl | hlater
    · simp [RecordField.isCalled]
    · rw [List.find?_cons, hothers f hlater]
      exact ih hrest hlater

theorem missing?_eq_none {fields : List (RecordField σ)} {seen : List String}
    (complete : ∀ f ∈ fields, f.presence = .required → f.name ∈ seen) :
    missing? fields seen = none := by
  simp only [missing?, Option.map_eq_none_iff, List.find?_eq_none]
  intro f hf
  have hseen := complete f hf
  simp only [Bool.and_eq_true, decide_eq_true_eq, Bool.not_eq_true', not_and]
  intro required
  simpa using hseen required

theorem names_nodup {fields : List (RecordField σ)} (distinct : Distinct fields) :
    (fields.map (·.name)).Nodup := by
  rw [List.Nodup, List.pairwise_map]
  exact distinct.imp name_ne_of_not_isCalled

/-! ## Members in any order -/

/-- Puts changes into effect one after the other. -/
def applied (effects : List (σ → σ)) (t : σ) : σ := effects.foldl (fun t e => e t) t

/-- What a member does to a record that is being read. -/
def Effect (fields : List (RecordField σ)) (m : String × Value) (effect : σ → σ) : Prop :=
  ∃ f ∈ fields, f.name = m.1 ∧ f.read m.2.toDocument = .ok effect

variable {fields : List (RecordField σ)} {updates : List (σ → σ → σ)}
  {members' : List (String × Value)} {effects : List (σ → σ)}

/-- Members take effect one after the other if no name stands twice and no required one is
missing. -/
theorem readMembers_effects (distinct : Distinct fields)
    (each : List.Forall₂ (Effect fields) members' effects) (once : (members'.map (·.1)).Nodup)
    (other : String → Document → Except Error (σ → σ)) (seen : List String)
    (fresh : ∀ name ∈ members'.map (·.1), name ∉ seen)
    (complete : ∀ f ∈ fields, f.presence = .required →
      f.name ∈ seen ∨ f.name ∈ members'.map (·.1)) (t : σ) :
    readMembers fields other none seen t (Value.toMembers members') = .ok (applied effects t) := by
  induction each generalizing seen t with
  | nil =>
    have hmissing : missing? fields seen = none := by
      apply missing?_eq_none
      intro f hf required
      exact (complete f hf required).resolve_right List.not_mem_nil
    simp [Value.toMembers, readMembers, hmissing, applied]
  | @cons m e members' effects effect each ih =>
    obtain ⟨hnew, hrest⟩ := List.nodup_cons.1 once
    obtain ⟨f, hf, hname, hread⟩ := effect
    have hfield := find?_isCalled distinct hf
    have hunseen : f.name ∉ seen := by
      rw [hname]
      exact fresh m.1 List.mem_cons_self
    rw [hname] at hfield hunseen
    have hlater := ih hrest (m.1 :: seen) ?_ ?_ (e t)
    · simpa [Value.toMembers, readMembers, Key.name, hfield, hname, hunseen, hread, applied] using
        hlater
    · intro name hmem hseen
      rcases List.mem_cons.1 hseen with rfl | hseen
      · exact hnew hmem
      · exact fresh name (List.mem_cons_of_mem m.1 hmem) hseen
    · intro g hg required
      rcases complete g hg required with hseen | hmem
      · exact Or.inl (List.mem_cons_of_mem m.1 hseen)
      · rcases List.mem_cons.1 hmem with hsame | hmem
        · exact Or.inl (hsame ▸ List.mem_cons_self)
        · exact Or.inr hmem

/-- Members that are the written ones, though with reordered values, put all fields into effect. -/
theorem exists_effects {all : List (RecordField σ)}
    (row : List.Forall₂ (RecordField.Restores d) fields updates) (sub : fields ⊆ all) {s : σ}
    (each : List.Forall₂ Value.MemberReordered (members fields s) members') :
    ∃ effects, List.Forall₂ (Effect all) members' effects ∧
      (∀ e ∈ effects, ∃ u ∈ updates, e = u s) ∧ ∀ t, applied effects t = restored updates s t := by
  induction row generalizing members' with
  | nil =>
    obtain rfl := List.forall₂_nil_left_iff.1 each
    exact ⟨[], .nil, by simp, fun _ => rfl⟩
  | @cons f u fields updates restores row ih =>
    have hsub : fields ⊆ all := fun g hg => sub (List.mem_cons_of_mem f hg)
    rw [members_cons] at each
    cases hwritten : f.write s with
    | none =>
      rw [hwritten] at each
      obtain ⟨effects, heach, hof, happlied⟩ := ih hsub each
      refine ⟨effects, heach, ?_, ?_⟩
      · intro e he
        obtain ⟨u', hu', rfl⟩ := hof e he
        exact ⟨u', List.mem_cons_of_mem u hu', rfl⟩
      · intro t
        have hsame := (restores.omitted s hwritten).2
        simp [happlied, hsame]
    | some v =>
      rw [hwritten] at each
      obtain ⟨m', rest, ⟨hname, hreordered⟩, hrest, rfl⟩ := List.forall₂_cons_left_iff.1 each
      obtain ⟨effects, heach, hof, happlied⟩ := ih hsub hrest
      refine ⟨u s :: effects, .cons ?_ heach, ?_, ?_⟩
      · exact ⟨f, sub List.mem_cons_self, hname, restores.reads s v m'.2 hwritten hreordered⟩
      · intro e he
        rcases List.mem_cons.1 he with rfl | hlater
        · exact ⟨u, List.mem_cons_self, rfl⟩
        · obtain ⟨u', hu', rfl⟩ := hof e hlater
          exact ⟨u', List.mem_cons_of_mem u hu', rfl⟩
      · intro t
        exact happlied (u s t)

theorem applied_perm {effects' : List (σ → σ)} {s : σ} (commuting : Commuting updates)
    (sub : ∀ e ∈ effects, ∃ u ∈ updates, e = u s) (perm : effects.Perm effects') (t : σ) :
    applied effects t = applied effects' t := by
  have hcommute : ∀ u ∈ updates, ∀ u' ∈ updates, ∀ s t, u s (u' s t) = u' s (u s t) := by
    have hsymm : Std.Symm fun (u u' : σ → σ → σ) => ∀ s t, u s (u' s t) = u' s (u s t) :=
      ⟨fun u u' commute s t => (commute s t).symm⟩
    exact commuting.forall_of_forall fun u _ s t => rfl
  apply perm.foldl_eq'
  intro e he e' he' t
  obtain ⟨u, hu, rfl⟩ := sub e he
  obtain ⟨u', hu', rfl⟩ := sub e' he'
  exact hcommute u' hu' u hu s t

/-! ## Written members -/

theorem names_sublist (fields : List (RecordField σ)) (s : σ) :
    ((members fields s).map (·.1)).Sublist (fields.map (·.name)) := by
  induction fields with
  | nil => exact .refl _
  | cons f fields ih =>
    rw [members_cons]
    cases f.write s with
    | none => exact ih.cons f.name
    | some v => exact ih.cons_cons f.name

theorem name_mem_of_required (row : List.Forall₂ (RecordField.Restores d) fields updates) (s : σ)
    {f : RecordField σ} (mem : f ∈ fields) (required : f.presence = .required) :
    f.name ∈ (members fields s).map (·.1) := by
  induction row with
  | nil => cases mem
  | @cons g u fields updates restores row ih =>
    rw [members_cons, List.map_append, List.mem_append]
    rcases List.mem_cons.1 mem with rfl | hlater
    · cases hwritten : f.write s with
      | none => exact absurd required (restores.omitted s hwritten).1
      | some v => exact Or.inl List.mem_cons_self
    · exact Or.inr (ih hlater)

theorem fits_of_mem_members (row : List.Forall₂ (RecordField.Restores d) fields updates) {s : σ}
    {m : String × Value} (mem : m ∈ members fields s) : m.2.Fits d := by
  induction row with
  | nil => cases mem
  | @cons f u fields updates restores row ih =>
    rw [members_cons, List.mem_append] at mem
    rcases mem with hfirst | hlater
    · simp only [Option.mem_toList, Option.map_eq_some_iff] at hfirst
      obtain ⟨v, hwritten, rfl⟩ := hfirst
      exact restores.fits s v hwritten
    · exact ih hlater

theorem names_of_same {members members' : List (String × Value)}
    (each : List.Forall₂ Value.MemberReordered members members') :
    members'.map (·.1) = members.map (·.1) := by
  induction each with
  | nil => rfl
  | cons related each ih => simp [ih, related.1]

/-- The members of a written record are read in any order. -/
theorem readMembers_reordered (restores : Restores d fields updates)
    {s : σ} {same : List (String × Value)}
    (each : List.Forall₂ Value.MemberReordered (members fields s) same)
    (perm : same.Perm members') (other : String → Document → Except Error (σ → σ)) (t : σ) :
    readMembers fields other none [] t (Value.toMembers members') =
      .ok (restored updates s t) := by
  obtain ⟨effects, heach, hof, happlied⟩ := exists_effects restores.each (List.Subset.refl _) each
  obtain ⟨effects', heach', hperm⟩ := List.perm_comp_forall₂ perm.symm heach
  have hnames : ((members fields s).map (·.1)).Perm (members'.map (·.1)) := by
    rw [← names_of_same each]
    exact perm.map (·.1)
  have honce : (members'.map (·.1)).Nodup :=
    hnames.nodup_iff.1 ((names_nodup restores.distinct).sublist (names_sublist fields s))
  have hread := readMembers_effects restores.distinct heach' honce other [] (by simp) ?_ t
  · rw [hread, ← applied_perm restores.commuting hof hperm.symm, happlied]
  · intro f hf required
    exact Or.inr (hnames.mem_iff.1 (name_mem_of_required restores.each s hf required))

end Record

/-- A record is read back if all its fields together come to `r`, from the record that reading
starts with. -/
theorem Codec.Restores.record {name : String} {fields : List (RecordField σ)} {initial : σ}
    {updates : List (σ → σ → σ)} {r : σ → σ} (restores : Record.Restores d fields updates)
    (complete : ∀ s, Record.restored updates s initial = r s) :
    (Codec.record name fields initial).Restores (d + 1) r where
  fits s := .object fun m hm => Record.fits_of_mem_members restores.each hm
  reads s v reordered := by
    obtain ⟨same, members', rfl, hperm, heach⟩ := reordered.of_object
    rw [← complete s]
    exact Record.readMembers_reordered restores heach hperm Record.passOver initial

end ExchangeClient.Json
