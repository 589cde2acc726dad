import ExchangeClient.Json.Lookup
import ExchangeClient.Json.Record
import Mathlib.Data.List.Nodup

/-!
# What a record is written as

A field of a record is found in the object that is written for it, or is left
out of it, whatever the other fields are.
-/

namespace ExchangeClient.Json.Record

variable {σ : Type}

/-- The members of a record, of which some are left out. -/
def members (fields : List (RecordField σ)) (s : σ) : List (String × Value) :=
  fields.filterMap fun f => (f.write s).map fun v => (f.name, v)

theorem members_cons (f : RecordField σ) (fields : List (RecordField σ)) (s : σ) :
    members (f :: fields) s =
      ((f.write s).map fun v => (f.name, v)).toList ++ members fields s := by
  simp only [members, List.filterMap_cons]
  cases f.write s with
  | none => rfl
  | some v => rfl

theorem lookup_members_of_fresh {fields : List (RecordField σ)} {name : String}
    (fresh : name ∉ fields.map (·.name)) (s : σ) : (members fields s).lookup name = none := by
  rw [List.lookup_eq_none_iff]
  intro m hm
  obtain ⟨f, hf, hwritten⟩ := List.mem_filterMap.1 hm
  obtain ⟨v, -, rfl⟩ := Option.map_eq_some_iff.1 hwritten
  rw [bne_iff_ne]
  rintro rfl
  exact fresh (List.mem_map.2 ⟨f, hf, rfl⟩)

/-- With distinct names a field is written under its name. -/
theorem lookup_members {fields : List (RecordField σ)} (distinct : (fields.map (·.name)).Nodup)
    {field : RecordField σ} (mem : field ∈ fields) (s : σ) :
    (members fields s).lookup field.name = field.write s := by
  induction fields with
  | nil => cases mem
  | cons f fields ih =>
    obtain ⟨hfresh, hrest⟩ := List.nodup_cons.1 distinct
    rw [members_cons]
    rcases List.mem_cons.1 mem with rfl | hlater
    · cases hwritten : field.write s with
      | none => exact lookup_members_of_fresh hfresh s
      | some v => exact List.lookup_cons_self
    · have hother : (field.name == f.name) = false := by
        rw [beq_eq_false_iff_ne]
        intro same
        exact hfresh (List.mem_map.2 ⟨field, hlater, same⟩)
      cases f.write s with
      | none => exact ih hrest hlater
      | some v =>
        rw [Option.map_some, Option.toList_some, List.singleton_append, List.lookup_cons, hother]
        exact ih hrest hlater

/-- A field is found in the object of its record. -/
theorem find_encode {fields : List (RecordField σ)} (distinct : (fields.map (·.name)).Nodup)
    {field : RecordField σ} (mem : field ∈ fields) (s : σ) :
    (encode fields s).find field.name = (field.write s).getD .null :=
  congrArg (·.getD .null) (lookup_members distinct mem s)

end ExchangeClient.Json.Record
