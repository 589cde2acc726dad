import ExchangeClient.Proofs.Json.Notation
import Mathlib.Data.List.Perm.Basic

/-!
# The order of members

An object says the same in whatever order its members stand, and a writer may
choose the order, for a map even a different one each time. Two values are
reorderings of each other if they differ in nothing else, at any depth.
-/

namespace ExchangeClient

/-- In related rows everything on the right is related to something on the left. -/
theorem exists_related_of_mem {α β : Type} {R : α → β → Prop} {xs : List α} {ys : List β}
    (each : List.Forall₂ R xs ys) {y : β} (mem : y ∈ ys) : ∃ x ∈ xs, R x y := by
  induction each with
  | nil => cases mem
  | @cons x z xs ys related each ih =>
    rcases List.mem_cons.1 mem with rfl | hlater
    · exact ⟨x, List.mem_cons_self, related⟩
    · obtain ⟨u, hu, hrelated⟩ := ih hlater
      exact ⟨u, List.mem_cons_of_mem x hu, hrelated⟩

/-- A row that is related to one in two parts has two parts as well. -/
theorem exists_append_of_related {α β : Type} {R : α → β → Prop} {xs ys : List α} {zs : List β}
    (each : List.Forall₂ R (xs ++ ys) zs) :
    ∃ before after, zs = before ++ after ∧ List.Forall₂ R xs before ∧ List.Forall₂ R ys after :=
  ⟨_, _, (List.take_append_drop xs.length zs).symm,
    (List.forall₂_take_append zs xs ys each.flip).flip,
    (List.forall₂_drop_append zs xs ys each.flip).flip⟩

/-- When one of two related rows is reordered, so can be the other. -/
theorem exists_perm_of_related {α β : Type} {R : α → β → Prop} {xs : List α} {ys zs : List β}
    (each : List.Forall₂ R xs ys) (perm : ys.Perm zs) :
    ∃ us, xs.Perm us ∧ List.Forall₂ R us zs := by
  have hcomp : Relation.Comp (List.Forall₂ R) List.Perm xs zs := ⟨ys, each, perm⟩
  rw [List.forall₂_comp_perm_eq_perm_comp_forall₂] at hcomp
  exact hcomp

namespace Json.Value

mutual

/-- The same value but for the order of the members of its objects, at any depth. -/
def Reordered : Value → Value → Prop
  | .array items, .array items' => ItemsReordered items items'
  | .object members, .object members' =>
    ∃ same, MembersReordered members same ∧ same.Perm members'
  | v, w => v = w

def ItemsReordered : List Value → List Value → Prop
  | [], [] => True
  | v :: vs, w :: ws => Reordered v w ∧ ItemsReordered vs ws
  | _, _ => False

/-- Members in the same order, with reordered values. -/
def MembersReordered : List (String × Value) → List (String × Value) → Prop
  | [], [] => True
  | (k, v) :: ms, (k', w) :: ms' => k = k' ∧ Reordered v w ∧ MembersReordered ms ms'
  | _, _ => False

end

/-- One member with its value reordered. -/
def MemberReordered (m m' : String × Value) : Prop := m.1 = m'.1 ∧ m.2.Reordered m'.2

theorem itemsReordered_iff {vs ws : List Value} :
    ItemsReordered vs ws ↔ List.Forall₂ Reordered vs ws := by
  induction vs generalizing ws with
  | nil => cases ws <;> simp [ItemsReordered]
  | cons v vs ih => cases ws <;> simp [ItemsReordered, ih]

theorem membersReordered_iff {ms ms' : List (String × Value)} :
    MembersReordered ms ms' ↔ List.Forall₂ MemberReordered ms ms' := by
  induction ms generalizing ms' with
  | nil => cases ms' <;> simp [MembersReordered]
  | cons m ms ih => cases ms' <;> simp [MembersReordered, MemberReordered, ih, and_assoc]

mutual

theorem Reordered.refl : (v : Value) → v.Reordered v
  | .null => rfl
  | .bool _ => rfl
  | .number _ => rfl
  | .string _ => rfl
  | .array items => itemsReordered_refl items
  | .object members => ⟨members, membersReordered_refl members, .refl members⟩

theorem itemsReordered_refl : (vs : List Value) → ItemsReordered vs vs
  | [] => trivial
  | v :: vs => ⟨Reordered.refl v, itemsReordered_refl vs⟩

theorem membersReordered_refl : (ms : List (String × Value)) → MembersReordered ms ms
  | [] => trivial
  | (_, v) :: ms => ⟨rfl, Reordered.refl v, membersReordered_refl ms⟩

end

theorem Reordered.of_perm {members members' : List (String × Value)}
    (perm : members.Perm members') : (Value.object members).Reordered (.object members') :=
  ⟨members, membersReordered_refl members, perm⟩

/-- Values that contain no others. -/
def IsScalar : Value → Prop
  | .array _ | .object _ => False
  | _ => True

namespace Reordered

variable {v w : Value}

theorem eq_of_scalar (reordered : v.Reordered w) (scalar : v.IsScalar) : w = v := by
  cases v with
  | null => cases w <;> simp_all [Reordered]
  | bool b => cases w <;> simp_all [Reordered]
  | number n => cases w <;> simp_all [Reordered]
  | string s => cases w <;> simp_all [Reordered]
  | array items => exact absurd scalar id
  | object members => exact absurd scalar id

theorem eq_null (reordered : v.Reordered .null) : v = .null := by
  cases v <;> simp_all [Reordered]

theorem of_array {items : List Value} (reordered : (Value.array items).Reordered w) :
    ∃ items', w = .array items' ∧ List.Forall₂ Reordered items items' := by
  cases w with
  | array items' =>
    rw [Reordered, itemsReordered_iff] at reordered
    exact ⟨items', rfl, reordered⟩
  | _ => simp [Reordered] at reordered

/-- The members of a reordered object are related to those of the object, in another order. -/
theorem of_object {members : List (String × Value)}
    (reordered : (Value.object members).Reordered w) :
    ∃ same members', w = .object members' ∧ same.Perm members' ∧
      List.Forall₂ MemberReordered members same := by
  cases w with
  | object members' =>
    rw [Reordered] at reordered
    obtain ⟨same, heach, hperm⟩ := reordered
    exact ⟨same, members', rfl, hperm, membersReordered_iff.1 heach⟩
  | _ => simp [Reordered] at reordered

end Reordered

/-- A reordered value is nested as deep as it was. -/
theorem Fits.reordered {d : ℕ} {v w : Value} (fits : v.Fits d) (reordered : v.Reordered w) :
    w.Fits d := by
  induction fits generalizing w with
  | null =>
    obtain rfl := reordered.eq_of_scalar trivial
    exact .null
  | bool b =>
    obtain rfl := reordered.eq_of_scalar trivial
    exact .bool b
  | string s =>
    obtain rfl := reordered.eq_of_scalar trivial
    exact .string s
  | int word =>
    obtain rfl := reordered.eq_of_scalar trivial
    exact .int word
  | array fit ih =>
    obtain ⟨items', rfl, heach⟩ := reordered.of_array
    apply Fits.array
    intro u hu
    obtain ⟨v, hv, hreordered⟩ := exists_related_of_mem heach hu
    exact ih v hv hreordered
  | object fit ih =>
    obtain ⟨same, members', rfl, hperm, heach⟩ := reordered.of_object
    apply Fits.object
    intro m hm
    obtain ⟨m', hm', -, hreordered⟩ := exists_related_of_mem heach (hperm.mem_iff.2 hm)
    exact ih m' hm' hreordered

end Json.Value
end ExchangeClient
