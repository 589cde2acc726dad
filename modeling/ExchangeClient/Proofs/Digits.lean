import ExchangeClient.Digits
import Mathlib.Data.Nat.Log
import Mathlib.Tactic.Ring

/-!
# Rows of digits

A row of digits denotes its parts shifted by their lengths. Zeros on the left
change nothing, and zeros on the right multiply. The row of a number denotes
that number and starts with a zero only for zero.
-/

namespace ExchangeClient.Digits

theorem digitChar_isDigit : ∀ d < 10, (digitChar d).isDigit = true := by decide

theorem digitValue_digitChar : ∀ d < 10, digitValue (digitChar d) = d := by decide

theorem digitChar_ne_zero : ∀ d < 10, d ≠ 0 → digitChar d ≠ '0' := by decide

theorem foldl_eq (n : Nat) (ds : List Char) :
    ds.foldl (fun m c => 10 * m + digitValue c) n = n * 10 ^ ds.length + value ds := by
  induction ds generalizing n with
  | nil => simp [value]
  | cons c ds ih =>
    rw [value, List.foldl_cons, List.foldl_cons, ih, ih (10 * 0 + digitValue c), List.length_cons]
    ring

theorem value_nil : value [] = 0 := rfl

theorem value_singleton (c : Char) : value [c] = digitValue c := by
  simp [value]

/-- A row denotes its first part, shifted by the length of the second, and its second part. -/
theorem value_append (xs ys : List Char) :
    value (xs ++ ys) = value xs * 10 ^ ys.length + value ys := by
  rw [value, List.foldl_append, foldl_eq]
  rfl

theorem shifted_nil (m : Nat) : m * 10 ^ ([] : List Char).length + value [] = m := by
  rw [value_nil, List.length_nil, Nat.pow_zero, Nat.mul_one, Nat.add_zero]

/-- Digits in front of a row, with its first digit added to them. -/
theorem shifted_cons (m : Nat) (c : Char) (ds : List Char) :
    m * 10 ^ (c :: ds).length + value (c :: ds) =
      (10 * m + digitValue c) * 10 ^ ds.length + value ds := by
  rw [← List.singleton_append, value_append, value_singleton, List.length_append,
    List.length_singleton]
  ring

theorem value_zeros (k : Nat) : value (List.replicate k '0') = 0 := by
  induction k with
  | zero => rfl
  | succ k ih =>
    rw [List.replicate_succ', value_append, ih]
    rfl

theorem value_zeros_append (k : Nat) (ds : List Char) :
    value (List.replicate k '0' ++ ds) = value ds := by
  rw [value_append, value_zeros, Nat.zero_mul, Nat.zero_add]

theorem value_append_zeros (ds : List Char) (k : Nat) :
    value (ds ++ List.replicate k '0') = value ds * 10 ^ k := by
  rw [value_append, value_zeros, List.length_replicate, Nat.add_zero]

theorem zeros_isDigit {k : Nat} : ∀ c ∈ List.replicate k '0', c.isDigit = true := by
  intro c hc
  rw [List.eq_of_mem_replicate hc]
  rfl

theorem zero_isDigit : ∀ c ∈ ['0'], Char.isDigit c = true := zeros_isDigit (k := 1)

/-! ## The digits of a number -/

theorem ofNat_small {n : Nat} (small : n < 10) : ofNat n = [digitChar n] := by
  rw [ofNat, if_pos small]

theorem ofNat_large {n : Nat} (large : ¬n < 10) :
    ofNat n = ofNat (n / 10) ++ [digitChar (n % 10)] := by
  rw [ofNat, if_neg large]

theorem ofNat_ne_nil (n : Nat) : ofNat n ≠ [] := by
  by_cases small : n < 10
  · rw [ofNat_small small]
    exact List.cons_ne_nil _ _
  · rw [ofNat_large small]
    exact List.append_ne_nil_of_right_ne_nil _ (List.cons_ne_nil _ _)

theorem value_ofNat (n : Nat) : value (ofNat n) = n := by
  induction n using Nat.strongRecOn with
  | ind n ih =>
    by_cases small : n < 10
    · rw [ofNat_small small, value_singleton, digitValue_digitChar n small]
    · rw [ofNat_large small, value_append, ih (n / 10) (by omega), value_singleton,
        digitValue_digitChar (n % 10) (by omega), List.length_singleton]
      omega

theorem ofNat_isDigit (n : Nat) : ∀ c ∈ ofNat n, c.isDigit = true := by
  induction n using Nat.strongRecOn with
  | ind n ih =>
    intro c hc
    by_cases small : n < 10
    · rw [ofNat_small small] at hc
      rw [List.mem_singleton.1 hc]
      exact digitChar_isDigit n small
    · rw [ofNat_large small] at hc
      rcases List.mem_append.1 hc with hc | hc
      · exact ih (n / 10) (by omega) c hc
      · rw [List.mem_singleton.1 hc]
        exact digitChar_isDigit (n % 10) (by omega)

/-- Powers of ten are written as zeros. -/
theorem ofNat_mul_pow {n : Nat} (positive : n ≠ 0) (k : Nat) :
    ofNat (n * 10 ^ k) = ofNat n ++ List.replicate k '0' := by
  induction k with
  | zero => rw [Nat.pow_zero, Nat.mul_one, List.replicate_zero, List.append_nil]
  | succ k ih =>
    have hpower : 0 < n * 10 ^ k :=
      Nat.mul_pos (Nat.pos_of_ne_zero positive) (Nat.pow_pos (by decide))
    have hshift : n * 10 ^ (k + 1) = n * 10 ^ k * 10 := by rw [Nat.pow_succ, Nat.mul_assoc]
    rw [hshift, ofNat_large (by omega), Nat.mul_div_cancel _ (by decide), Nat.mul_mod_left, ih,
      List.append_assoc, List.replicate_succ']
    rfl

/-- Only zero is written with a leading zero. -/
theorem head_ofNat {n : Nat} (positive : n ≠ 0) : (ofNat n).head? ≠ some '0' := by
  induction n using Nat.strongRecOn with
  | ind n ih =>
    by_cases small : n < 10
    · rw [ofNat_small small]
      intro same
      exact digitChar_ne_zero n small positive (Option.some.inj same)
    · have hquotient := ih (n / 10) (by omega) (by omega)
      rw [ofNat_large small, List.head?_append]
      cases hhead : (ofNat (n / 10)).head? with
      | none => exact absurd (List.head?_eq_none_iff.1 hhead) (ofNat_ne_nil _)
      | some c =>
        rw [hhead] at hquotient
        exact hquotient

theorem lt_pow_length (n : Nat) : n < 10 ^ (ofNat n).length := by
  induction n using Nat.strongRecOn with
  | ind n ih =>
    by_cases small : n < 10
    · rw [ofNat_small small, List.length_singleton]
      omega
    · have hquotient := ih (n / 10) (by omega)
      rw [ofNat_large small, List.length_append, List.length_singleton, Nat.pow_succ]
      omega

theorem pow_length_le {n : Nat} (positive : n ≠ 0) : 10 ^ ((ofNat n).length - 1) ≤ n := by
  induction n using Nat.strongRecOn with
  | ind n ih =>
    by_cases small : n < 10
    · rw [ofNat_small small, List.length_singleton, Nat.sub_self, Nat.pow_zero]
      omega
    · have hquotient := ih (n / 10) (by omega) (by omega)
      have hlength : 0 < (ofNat (n / 10)).length := List.length_pos_iff.2 (ofNat_ne_nil _)
      have hpower : 10 ^ (ofNat (n / 10)).length = 10 ^ ((ofNat (n / 10)).length - 1) * 10 := by
        rw [← Nat.pow_succ, Nat.succ_eq_add_one, Nat.sub_add_cancel hlength]
      rw [ofNat_large small, List.length_append, List.length_singleton, Nat.add_sub_cancel, hpower]
      omega

/-! ## Zeros at the ends -/

/-- A row is what is left of it with some zeros after that. -/
theorem dropTrailingZeros_append (ds : List Char) :
    ∃ k, ds = dropTrailingZeros ds ++ List.replicate k '0' := by
  refine ⟨(ds.reverse.takeWhile (· == '0')).length, ?_⟩
  have hzeros : ds.reverse.takeWhile (· == '0') =
      List.replicate (ds.reverse.takeWhile (· == '0')).length '0' := by
    apply List.eq_replicate_of_mem
    intro c hc
    exact beq_iff_eq.1 (List.all_eq_true.1 List.all_takeWhile c hc)
  have hsplit := List.takeWhile_append_dropWhile (p := (· == '0')) (l := ds.reverse)
  rw [dropTrailingZeros, ← List.reverse_replicate, ← hzeros, ← List.reverse_append, hsplit,
    List.reverse_reverse]

theorem getLast_dropTrailingZeros (ds : List Char) :
    (dropTrailingZeros ds).getLast? ≠ some '0' := by
  intro same
  rw [dropTrailingZeros, List.getLast?_reverse] at same
  have hkept := List.head?_dropWhile_not (· == '0') ds.reverse
  rw [same] at hkept
  exact absurd hkept (by decide)

theorem dropTrailingZeros_append_zeros (ds : List Char) (k : Nat) :
    dropTrailingZeros (ds ++ List.replicate k '0') = dropTrailingZeros ds := by
  have hzeros : ∀ c ∈ List.replicate k '0', (c == '0') = true := by
    intro c hc
    rw [List.eq_of_mem_replicate hc]
    rfl
  rw [dropTrailingZeros, List.reverse_append, List.reverse_replicate,
    List.dropWhile_append_of_pos hzeros, dropTrailingZeros]

theorem dropTrailingZeros_concat {c : Char} (nonzero : c ≠ '0') (ds : List Char) :
    dropTrailingZeros (ds ++ [c]) = ds ++ [c] := by
  have hkept : ¬(c == '0') = true := by
    rw [beq_iff_eq]
    exact nonzero
  rw [dropTrailingZeros, List.reverse_append, List.reverse_singleton, List.singleton_append,
    List.dropWhile_cons_of_neg (p := (· == '0')) hkept, List.reverse_cons, List.reverse_reverse]

theorem mem_dropTrailingZeros {ds : List Char} {c : Char} (h : c ∈ dropTrailingZeros ds) :
    c ∈ ds := by
  obtain ⟨k, hk⟩ := dropTrailingZeros_append ds
  rw [hk]
  exact List.mem_append_left _ h

theorem padLeft_value (width : Nat) (ds : List Char) : value (padLeft width ds) = value ds :=
  value_zeros_append _ ds

theorem padLeft_isDigit {width : Nat} {ds : List Char} (digits : ∀ c ∈ ds, c.isDigit = true) :
    ∀ c ∈ padLeft width ds, c.isDigit = true := by
  intro c hc
  rcases List.mem_append.1 hc with hc | hc
  · exact zeros_isDigit c hc
  · exact digits c hc

theorem length_padLeft (width : Nat) (ds : List Char) :
    (padLeft width ds).length = max width ds.length := by
  rw [padLeft, List.length_append, List.length_replicate]
  omega

/-! ## Rows are told apart by their numbers -/

theorem isDigit_bounds {c : Char} (digit : c.isDigit = true) : 48 ≤ c.toNat ∧ c.toNat ≤ 57 := by
  simp only [Char.isDigit, Bool.and_eq_true, decide_eq_true_eq, UInt32.le_iff_toNat_le] at digit
  exact digit

theorem digitValue_lt {c : Char} (digit : c.isDigit = true) : digitValue c < 10 := by
  obtain ⟨hlow, hhigh⟩ := isDigit_bounds digit
  simp only [digitValue]
  omega

theorem digitValue_inj {c d : Char} (first : c.isDigit = true) (second : d.isDigit = true)
    (same : digitValue c = digitValue d) : c = d := by
  obtain ⟨hc, -⟩ := isDigit_bounds first
  obtain ⟨hd, -⟩ := isDigit_bounds second
  simp only [digitValue] at same
  exact Char.toNat_inj.1 (by omega)

theorem value_cons (c : Char) (ds : List Char) :
    value (c :: ds) = digitValue c * 10 ^ ds.length + value ds := by
  rw [← List.singleton_append, value_append, value_singleton]

theorem value_lt_pow {ds : List Char} (digits : ∀ c ∈ ds, c.isDigit = true) :
    value ds < 10 ^ ds.length := by
  induction ds with
  | nil => exact Nat.one_pos
  | cons c ds ih =>
    have hfirst := digitValue_lt (digits c List.mem_cons_self)
    have hrest := ih fun d hd => digits d (List.mem_cons_of_mem c hd)
    have hstep : (digitValue c + 1) * 10 ^ ds.length ≤ 10 * 10 ^ ds.length :=
      Nat.mul_le_mul_right _ hfirst
    rw [Nat.add_mul, Nat.one_mul] at hstep
    rw [value_cons, List.length_cons, Nat.pow_succ]
    omega

/-- A row that starts with no zero is no smaller than the power of ten of its length. -/
theorem pow_le_value {c : Char} {ds : List Char} (nonzero : c ≠ '0')
    (digit : c.isDigit = true) : 10 ^ ds.length ≤ value (c :: ds) := by
  have hc : 0 < digitValue c := by
    apply Nat.pos_of_ne_zero
    intro hzero
    exact nonzero (digitValue_inj digit rfl hzero)
  rw [value_cons]
  exact Nat.le_add_right_of_le (Nat.le_mul_of_pos_left _ hc)

theorem value_dropWhile_zeros (ds : List Char) : value (ds.dropWhile (· == '0')) = value ds := by
  induction ds with
  | nil => rfl
  | cons c ds ih =>
    by_cases hzero : c = '0'
    · have hvalue : digitValue '0' = 0 := rfl
      rw [hzero, List.dropWhile_cons_of_pos rfl, ih, value_cons, hvalue, Nat.zero_mul, Nat.zero_add]
    · rw [List.dropWhile_cons_of_neg (by rwa [beq_iff_eq])]

/-- A row without zeros in front is empty or of the size that its length tells. -/
theorem significant_cases {ds : List Char} (digits : ∀ c ∈ ds, c.isDigit = true) :
    ds.dropWhile (· == '0') = [] ∨
      10 ^ (ds.dropWhile (· == '0')).length ≤ 10 * value ds ∧
        value ds < 10 ^ (ds.dropWhile (· == '0')).length := by
  have hvalue := value_dropWhile_zeros ds
  have hhead := List.head?_dropWhile_not (· == '0') ds
  have hdigits : ∀ c ∈ ds.dropWhile (· == '0'), c.isDigit = true :=
    fun c hc => digits c ((List.dropWhile_sublist _).subset hc)
  generalize ds.dropWhile (· == '0') = row at hvalue hhead hdigits ⊢
  cases row with
  | nil => exact Or.inl rfl
  | cons c row =>
    have hnonzero : c ≠ '0' := by
      rintro rfl
      cases hhead
    have hlow : 10 ^ row.length ≤ value (c :: row) :=
      pow_le_value hnonzero (hdigits c List.mem_cons_self)
    rw [← hvalue, List.length_cons, Nat.pow_succ']
    refine Or.inr ⟨Nat.mul_le_mul_left 10 hlow, ?_⟩
    rw [← Nat.pow_succ']
    exact value_lt_pow hdigits

/-- Numbers below a bound in front of others below it are told apart with them. -/
theorem shifted_inj {a b m n k : Nat} (first : m < k) (second : n < k)
    (same : a * k + m = b * k + n) : a = b ∧ m = n := by
  have hpos : 0 < k := Nat.lt_of_le_of_lt (Nat.zero_le m) first
  have hquotient : a = b := by
    have hdiv := congrArg (· / k) same
    simp only [Nat.mul_comm _ k, Nat.mul_add_div hpos, Nat.div_eq_of_lt first,
      Nat.div_eq_of_lt second, Nat.add_zero] at hdiv
    exact hdiv
  subst hquotient
  exact ⟨rfl, Nat.add_left_cancel same⟩

/-- Of the rows of one length only one denotes a given number. -/
theorem eq_of_value {xs ys : List Char} (first : ∀ c ∈ xs, c.isDigit = true)
    (second : ∀ c ∈ ys, c.isDigit = true) (length : xs.length = ys.length)
    (same : value xs = value ys) : xs = ys := by
  induction xs generalizing ys with
  | nil => exact (List.length_eq_zero_iff.1 length.symm).symm
  | cons c xs ih =>
    cases ys with
    | nil => cases length
    | cons d ys =>
      have hlength : xs.length = ys.length := Nat.succ.inj length
      have hxs : ∀ e ∈ xs, e.isDigit = true := fun e he => first e (List.mem_cons_of_mem c he)
      have hys : ∀ e ∈ ys, e.isDigit = true := fun e he => second e (List.mem_cons_of_mem d he)
      rw [value_cons, value_cons, hlength] at same
      obtain ⟨hhead, htail⟩ := shifted_inj (hlength ▸ value_lt_pow hxs) (value_lt_pow hys) same
      rw [digitValue_inj (first c List.mem_cons_self) (second d List.mem_cons_self) hhead,
        ih hxs hys hlength htail]

/-- The length of a row without needless zeros in front is that of its number. -/
theorem length_eq_log {ds : List Char} (digits : ∀ c ∈ ds, c.isDigit = true)
    (head : ds = ['0'] ∨ (ds ≠ [] ∧ ds.head? ≠ some '0')) :
    ds.length = Nat.log 10 (value ds) + 1 := by
  rcases head with rfl | ⟨present, nonzero⟩
  · rfl
  · cases ds with
    | nil => exact absurd rfl present
    | cons c ds =>
      have hc : c ≠ '0' := fun same => nonzero (congrArg some same)
      have hlow : 10 ^ ds.length ≤ value (c :: ds) :=
        pow_le_value hc (digits c List.mem_cons_self)
      rw [Nat.log_eq_of_pow_le_of_lt_pow hlow (value_lt_pow digits), List.length_cons]

/-- Of the rows without needless zeros in front only one denotes a given number. -/
theorem eq_of_value_of_head {xs ys : List Char} (first : ∀ c ∈ xs, c.isDigit = true)
    (second : ∀ c ∈ ys, c.isDigit = true)
    (firstHead : xs = ['0'] ∨ (xs ≠ [] ∧ xs.head? ≠ some '0'))
    (secondHead : ys = ['0'] ∨ (ys ≠ [] ∧ ys.head? ≠ some '0'))
    (same : value xs = value ys) : xs = ys := by
  have hlength : xs.length = ys.length := by
    rw [length_eq_log first firstHead, length_eq_log second secondHead, same]
  exact eq_of_value first second hlength same

end ExchangeClient.Digits
