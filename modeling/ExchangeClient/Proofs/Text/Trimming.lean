import ExchangeClient.Text.Blank
import Mathlib.Data.List.DropRight

/-!
# What trimming leaves

Trimming takes blank characters from both ends of a text, as many as there are. What
is left is the middle of the text and begins and ends with characters that are not
blank, and a text of this kind is left as it is.
-/

namespace ExchangeClient.Text

variable {cs : List Char}

/-- A row of characters without a blank one at either end. -/
structure Trimmed (cs : List Char) : Prop where
  first : ∀ c, cs.head? = some c → isBlank c = false
  last : ∀ c, cs.getLast? = some c → isBlank c = false

theorem trimChars_eq_rdropWhile (cs : List Char) :
    trimChars cs = (cs.dropWhile isBlank).rdropWhile isBlank := rfl

theorem Trimmed.trimChars_eq (trimmed : Trimmed cs) : trimChars cs = cs := by
  have hfront : cs.dropWhile isBlank = cs := by
    cases cs with
    | nil => rfl
    | cons c cs => exact List.dropWhile_cons_of_neg (Bool.eq_false_iff.1 (trimmed.first c rfl))
  rw [trimChars_eq_rdropWhile, hfront, List.rdropWhile_eq_self_iff]
  intro hsome
  exact Bool.eq_false_iff.1 (trimmed.last _ (List.getLast?_eq_some_getLast hsome))

theorem trimmed_of_visible (visible : ∀ c ∈ cs, isBlank c = false) : Trimmed cs :=
  ⟨fun c hc => visible c (List.mem_of_head? hc), fun c hc => visible c (List.mem_of_getLast? hc)⟩

theorem trimChars_eq (visible : ∀ c ∈ cs, isBlank c = false) : trimChars cs = cs :=
  (trimmed_of_visible visible).trimChars_eq

theorem trimmed_trimChars (cs : List Char) : Trimmed (trimChars cs) := by
  rw [trimChars_eq_rdropWhile]
  constructor
  · intro c hc
    -- The end is dropped from what begins without a blank character already.
    obtain ⟨back, hback⟩ := List.rdropWhile_prefix isBlank (l := cs.dropWhile isBlank)
    have hhead : (cs.dropWhile isBlank).head? = some c := by
      rw [← hback, List.head?_append, hc, Option.some_or]
    have hnot := List.head?_dropWhile_not isBlank cs
    rw [hhead] at hnot
    exact Bool.eq_false_iff.2 (by simpa using hnot)
  · intro c hc
    have hsome := List.ne_nil_of_mem (List.mem_of_getLast? hc)
    rw [List.getLast?_eq_some_getLast hsome] at hc
    cases hc
    exact Bool.eq_false_iff.2 (List.rdropWhile_last_not isBlank _ hsome)

/-- Nothing is left of a text that is all blank, and of no other. -/
theorem trimChars_eq_nil_iff : trimChars cs = [] ↔ ∀ c ∈ cs, isBlank c = true := by
  rw [trimChars, List.reverse_eq_nil_iff, List.dropWhile_eq_nil_iff]
  constructor
  · intro hblank
    rw [← List.dropWhile_eq_nil_iff]
    by_contra hkept
    have hhead := List.head_dropWhile_not isBlank hkept
    have hmem := hblank _ (List.mem_reverse.2 (List.head_mem hkept))
    exact absurd hmem (Bool.not_eq_true _ ▸ hhead)
  · intro hblank c hc
    exact hblank c (List.dropWhile_sublist isBlank |>.subset (List.mem_reverse.1 hc))

/-- What is taken away at the ends is blank. -/
theorem exists_blank_ends (cs : List Char) :
    ∃ front back, cs = front ++ trimChars cs ++ back ∧ (∀ c ∈ front, isBlank c = true) ∧
      ∀ c ∈ back, isBlank c = true := by
  refine ⟨cs.takeWhile isBlank, (cs.dropWhile isBlank).rtakeWhile isBlank, ?_, ?_, ?_⟩
  · rw [trimChars_eq_rdropWhile, List.append_assoc, List.rdropWhile_append_rtakeWhile,
      List.takeWhile_append_dropWhile]
  · exact fun c hc => List.mem_takeWhile_imp hc
  · exact fun c hc => List.mem_rtakeWhile_imp hc

/-- Blank characters are taken away from around a row that has none at its ends. -/
theorem trimChars_between {front back : List Char} (before : ∀ c ∈ front, isBlank c = true)
    (after : ∀ c ∈ back, isBlank c = true) (trimmed : Trimmed cs) :
    trimChars (front ++ cs ++ back) = cs := by
  have hback : ∀ c ∈ back.reverse, isBlank c = true :=
    fun c hc => after c (List.mem_reverse.1 hc)
  cases cs with
  | nil =>
    rw [List.append_nil, trimChars_eq_rdropWhile, List.dropWhile_append_of_pos before,
      List.dropWhile_eq_nil_iff.2 after, List.rdropWhile_nil]
  | cons c cs =>
    have hfirst : ¬isBlank c = true := Bool.eq_false_iff.1 (trimmed.first c rfl)
    have hkept := trimmed.trimChars_eq
    rw [trimChars, List.dropWhile_cons_of_neg hfirst] at hkept
    rw [trimChars, List.append_assoc, List.dropWhile_append_of_pos before, List.cons_append,
      List.dropWhile_cons_of_neg hfirst, ← List.cons_append, List.reverse_append,
      List.dropWhile_append_of_pos hback, hkept]

end ExchangeClient.Text
