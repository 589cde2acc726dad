import ExchangeClient.Proofs.Json.Reordering
import ExchangeClient.Proofs.Json.Values

/-!
# Written values that are read as values

When a written value is read as a plain value, the order in which a writer put the
members of its objects is lost: they come in the order of their names. So whatever
order was chosen, one and the same value is read.
-/

namespace ExchangeClient.Json.Value

variable {v u w : Value}

/-- The value that a written one is read as, in whatever order its members stand. -/
def Settles (v u : Value) : Prop := ∀ ⦃w⦄, v.Reordered w → ofDocument w.toDocument = .ok u

theorem settles_scalar (scalar : v.IsScalar) : v.Settles v := by
  intro w reordered
  obtain rfl := reordered.eq_of_scalar scalar
  cases w with
  | null | bool | number | string => rfl
  | array | object => exact absurd scalar id

/-- An object is read as its members are, in the order of their names. -/
theorem Settles.object {members settled : List (String × Value)}
    (each : List.Forall₂ (fun m s => m.1 = s.1 ∧ m.2.Settles s.2) members settled)
    (distinct : (settled.map (·.1)).Nodup) :
    (Value.object members).Settles (.object (Dictionary.ofList settled).entries) := by
  intro w reordered
  obtain ⟨same, members', rfl, hperm, hsame⟩ := reordered.of_object
  have hread : List.Forall₂ (fun s m => s.1 = m.1 ∧ ofDocument m.2.toDocument = .ok s.2)
      settled same := by
    refine forall₂_trans ?_ each.flip hsame
    intro s m m' hsettles hreordered
    exact ⟨hsettles.1.symm.trans hreordered.1, hsettles.2 hreordered.2⟩
  obtain ⟨rows, hrows, hmembers⟩ := exists_perm_of_related hread hperm
  have hdictionary : Dictionary.ofList rows = Dictionary.ofList settled :=
    Dictionary.ofList_of_perm ((Dictionary.entries_ofList_perm_iff.2 distinct).trans hrows)
  rw [toDocument, ← hdictionary]
  refine ofDocument_object ?_
  rw [toMembers_eq, List.forall₂_map_left_iff]
  exact hmembers.flip.imp fun m s related => ⟨congrArg Except.ok related.1.symm, related.2⟩

/-- A dictionary of values that are read as themselves is read as itself. -/
theorem settles_dictionary {m : Dictionary Value} (each : ∀ e ∈ m.entries, e.2.Settles e.2) :
    (Value.object m.entries).Settles (.object m.entries) := by
  have hsettles := Settles.object (List.forall₂_same.2 fun e he => ⟨rfl, each e he⟩)
    m.keys_distinct
  rwa [Dictionary.ofList_of_perm (.refl m.entries)] at hsettles

end ExchangeClient.Json.Value
