import ExchangeClient.Proofs.Form.Reading
import ExchangeClient.Proofs.Text.ByteOrder
import Mathlib.Data.List.Nodup

/-!
# One form for the same parameters

A form says its parameters in the byte order of their names, those of one name
in the order in which they came; there is just one such row. So parameters with
different names have the same form exactly when they are the same up to order.
-/

namespace ExchangeClient.Form

/-- A row in the byte order of its names, in which the entries of every name stand as in another
row. -/
structure StablySorted (params rows : List (String × String)) : Prop where
  ascending : rows.Pairwise fun p q => Text.utf8 p.1 ≤ Text.utf8 q.1
  stable : ∀ name, (rows.filter fun p => p.1 == name) = params.filter fun p => p.1 == name

theorem mem_of_filter_eq {rows rows' : List (String × String)}
    (same : ∀ name, (rows.filter fun p => p.1 == name) = rows'.filter fun p => p.1 == name)
    {p : String × String} (mem : p ∈ rows) : p ∈ rows' := by
  have hkept : p ∈ rows.filter fun q => q.1 == p.1 := List.mem_filter.2 ⟨mem, beq_self_eq_true _⟩
  rw [same] at hkept
  exact (List.mem_filter.1 hkept).1

/-- Two rows in order are the same if they have the same entries of each name. -/
theorem eq_of_filter_eq {rows rows' : List (String × String)}
    (first : rows.Pairwise fun p q => Text.utf8 p.1 ≤ Text.utf8 q.1)
    (second : rows'.Pairwise fun p q => Text.utf8 p.1 ≤ Text.utf8 q.1)
    (same : ∀ name, (rows.filter fun p => p.1 == name) = rows'.filter fun p => p.1 == name) :
    rows = rows' := by
  induction rows generalizing rows' with
  | nil =>
    cases rows' with
    | nil => rfl
    | cons q rows' =>
      have hnone := mem_of_filter_eq (fun name => (same name).symm) List.mem_cons_self
      exact absurd hnone List.not_mem_nil
  | cons p rows ih =>
    cases rows' with
    | nil => exact absurd (mem_of_filter_eq same List.mem_cons_self) List.not_mem_nil
    | cons q rows' =>
      obtain ⟨hleast, hfirst⟩ := List.pairwise_cons.1 first
      obtain ⟨hleast', hsecond⟩ := List.pairwise_cons.1 second
      -- each first name is the least one of both rows
      have hname : p.1 = q.1 := by
        have hp := mem_of_filter_eq same List.mem_cons_self
        have hq := mem_of_filter_eq (fun name => (same name).symm) List.mem_cons_self
        apply String.le_antisymm
        · rcases List.mem_cons.1 hq with rfl | hq
          · exact String.le_refl _
          · exact Text.utf8_le_iff.1 (hleast q hq)
        · rcases List.mem_cons.1 hp with rfl | hp
          · exact String.le_refl _
          · exact Text.utf8_le_iff.1 (hleast' p hp)
      have hhead := same p.1
      rw [List.filter_cons, if_pos (beq_self_eq_true p.1), List.filter_cons,
        if_pos (beq_iff_eq.2 hname.symm)] at hhead
      obtain ⟨rfl, -⟩ := List.cons.inj hhead
      rw [ih hfirst hsecond]
      intro name
      have hboth := same name
      rw [List.filter_cons, List.filter_cons] at hboth
      by_cases hsame : (p.1 == name) = true
      · rw [if_pos hsame, if_pos hsame] at hboth
        exact (List.cons.inj hboth).2
      · rw [if_neg hsame, if_neg hsame] at hboth
        exact hboth

/-! ## The row of a form -/

section

variable (params : List (String × String))

theorem sorted_perm : (sorted params).Perm params := List.mergeSort_perm _ _

theorem name_le_trans (a b c : String × String) (first : decide (a.1 ≤ b.1) = true)
    (second : decide (b.1 ≤ c.1) = true) : decide (a.1 ≤ c.1) = true :=
  decide_eq_true (String.le_trans (of_decide_eq_true first) (of_decide_eq_true second))

theorem name_le_total (a b : String × String) :
    (decide (a.1 ≤ b.1) || decide (b.1 ≤ a.1)) = true := by
  rw [Bool.or_eq_true, decide_eq_true_eq, decide_eq_true_eq]
  exact String.le_total _ _

theorem sorted_ascending : (sorted params).Pairwise fun p q => p.1 ≤ q.1 :=
  (List.pairwise_mergeSort name_le_trans name_le_total params).imp of_decide_eq_true

theorem sorted_filter (name : String) :
    ((sorted params).filter fun p => p.1 == name) = params.filter fun p => p.1 == name := by
  have hone : (params.filter fun p => p.1 == name).Pairwise
      fun a b => decide (a.1 ≤ b.1) = true := by
    apply List.pairwise_of_forall_mem_list
    intro a ha b hb
    have hfirst := beq_iff_eq.1 (List.mem_filter.1 ha).2
    have hsecond := beq_iff_eq.1 (List.mem_filter.1 hb).2
    rw [hfirst, hsecond]
    exact decide_eq_true (String.le_refl _)
  have hsub : (params.filter fun p => p.1 == name).Sublist (sorted params) :=
    List.sublist_mergeSort name_le_trans name_le_total hone List.filter_sublist
  have hkept := hsub.filter fun p => p.1 == name
  rw [List.filter_filter] at hkept
  simp only [Bool.and_self] at hkept
  exact (hkept.eq_of_length ((sorted_perm params).filter _).length_eq.symm).symm

theorem stablySorted_sorted : StablySorted params (sorted params) :=
  ⟨(sorted_ascending params).imp Text.utf8_le_iff.2, sorted_filter params⟩

end

/-- Rows in the order of their names are the same if they are the same up to order and their names
are different. -/
theorem sorted_eq_of_perm {params params' : List (String × String)}
    (distinct : (params.map (·.1)).Nodup) (perm : params.Perm params') :
    sorted params = sorted params' := by
  have hperm := ((sorted_perm params).trans perm).trans (sorted_perm params').symm
  refine hperm.eq_of_pairwise ?_ (sorted_ascending params) (sorted_ascending params')
  intro p q hp hq hle hge
  have hq' := ((sorted_perm params').trans perm.symm).mem_iff.1 hq
  exact List.inj_on_of_nodup_map distinct ((sorted_perm params).mem_iff.1 hp) hq'
    (String.le_antisymm hle hge)

/-- A form is read as the one stably sorted row of its parameters, and with different names it
determines its parameters up to their order. -/
theorem canonical_determines_params (params : List (String × String)) :
    (∀ rows, decode (canonical params) = rows ↔ StablySorted params rows) ∧
    ((params.map (·.1)).Nodup →
      ∀ params', canonical params = canonical params' ↔ params.Perm params') := by
  constructor
  · intro rows
    rw [decode_canonical]
    constructor
    · rintro rfl
      exact stablySorted_sorted params
    · intro hrows
      apply eq_of_filter_eq (stablySorted_sorted params).ascending hrows.ascending
      intro name
      rw [(stablySorted_sorted params).stable, hrows.stable]
  · intro hdistinct params'
    constructor
    · intro hsame
      have hsorted := congrArg decode hsame
      rw [decode_canonical, decode_canonical] at hsorted
      exact (hsorted ▸ (sorted_perm params).symm).trans (sorted_perm params')
    · intro hperm
      rw [canonical, canonical, sorted_eq_of_perm hdistinct hperm]

/-- An address with separators in it, a blank memo and a name beyond ASCII. -/
theorem separators_and_blanks_in_any_order :
    let params := [("memo", ""), ("adresse-à", "x=y&z +%"), ("Ω", "é")]
    let params' := [("Ω", "é"), ("memo", ""), ("adresse-à", "x=y&z +%")]
    (params.map (·.1)).Nodup ∧ canonical params = canonical params' := by
  intro params params'
  have hdistinct : (params.map (·.1)).Nodup := by decide
  have hperm : params.Perm params' := by decide
  exact ⟨hdistinct, ((canonical_determines_params params).2 hdistinct params').2 hperm⟩

end ExchangeClient.Form
