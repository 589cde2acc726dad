import ExchangeClient.Proofs.Decimal.Exponents

/-!
# Sums, differences and products

A result is exact whenever some decimal denotes it. Otherwise it is rounded, a
half to the even neighbour, with as many fractional digits as fit. It is out of
range only if it is when it is taken to a whole number, and then it saturates on
its own side.
-/

namespace ExchangeClient

/-! ## A half to the even neighbour -/

/-- The nearest whole number, a half to the even neighbour. -/
def halfEven (x : ℚ) : ℤ :=
  if x - ⌊x⌋ < 1 / 2 ∨ (x - ⌊x⌋ = 1 / 2 ∧ ⌊x⌋ % 2 = 0) then ⌊x⌋ else ⌊x⌋ + 1

/-- A number rounded to some fractional digits, a half to the even neighbour. -/
def roundedEven (places : ℕ) (x : ℚ) : ℚ := halfEven (x * 10 ^ places) / 10 ^ places

/-- A whole number within half a unit, an even one where it is exactly half a unit away. -/
structure NearestEven (x : ℚ) (z : ℤ) : Prop where
  lower : (z : ℚ) - 1 / 2 ≤ x
  upper : x ≤ z + 1 / 2
  tie : x = z - 1 / 2 ∨ x = z + 1 / 2 → z % 2 = 0

theorem nearestEven_halfEven (x : ℚ) : NearestEven x (halfEven x) := by
  have hlow := Int.floor_le x
  have hhigh := Int.lt_floor_add_one x
  rw [halfEven]
  split
  · rename_i hdown
    refine ⟨by linarith, ?_, ?_⟩
    · rcases hdown with h | h <;> linarith
    · rintro (h | h)
      · linarith
      · exact (hdown.resolve_left (by linarith)).2
  · rename_i hup
    obtain ⟨habove, htie⟩ := not_or.1 hup
    rw [not_lt] at habove
    have hnext : ((⌊x⌋ + 1 : ℤ) : ℚ) = ⌊x⌋ + 1 := by push_cast; rfl
    refine ⟨by linarith, by linarith, ?_⟩
    rintro (h | h)
    · have hodd : ¬⌊x⌋ % 2 = 0 := fun even => htie ⟨by linarith, even⟩
      omega
    · exact absurd h (by linarith)

/-- Between two neighbours only one of them is the nearest one. -/
theorem NearestEven.le {x y : ℚ} {w z : ℤ} (first : NearestEven x w) (second : NearestEven y z)
    (ordered : x ≤ y) : w ≤ z := by
  by_contra hgreater
  have hnext : z + 1 ≤ w := by omega
  have hnext' : (z : ℚ) + 1 ≤ w := by exact_mod_cast hnext
  have hlow := first.lower
  have hhigh := second.upper
  have hw : w % 2 = 0 := first.tie (Or.inl (by linarith))
  have hz : z % 2 = 0 := second.tie (Or.inr (by linarith))
  have hsame : (w : ℚ) = ((z + 1 : ℤ) : ℚ) := by
    push_cast
    linarith
  have hsame' : w = z + 1 := by exact_mod_cast hsame
  omega

theorem NearestEven.eq {x : ℚ} {z : ℤ} (nearest : NearestEven x z) : halfEven x = z :=
  le_antisymm ((nearestEven_halfEven x).le nearest (le_refl x))
    (nearest.le (nearestEven_halfEven x) (le_refl x))

theorem halfEven_mono {x y : ℚ} (ordered : x ≤ y) : halfEven x ≤ halfEven y :=
  (nearestEven_halfEven x).le (nearestEven_halfEven y) ordered

theorem halfEven_intCast (z : ℤ) : halfEven z = z := by
  apply NearestEven.eq
  refine ⟨by linarith, by linarith, ?_⟩
  rintro (h | h) <;> linarith

theorem halfEven_neg (x : ℚ) : halfEven (-x) = -halfEven x := by
  obtain ⟨hlower, hupper, htie⟩ := nearestEven_halfEven x
  have hcast : ((-halfEven x : ℤ) : ℚ) = -halfEven x := Int.cast_neg _
  apply NearestEven.eq
  refine ⟨by linarith, by linarith, ?_⟩
  intro half
  have heven := htie (half.symm.imp (fun h => by linarith) fun h => by linarith)
  omega

theorem halfEven_nonneg {x : ℚ} (nonneg : 0 ≤ x) : 0 ≤ halfEven x := by
  have hzero := halfEven_mono nonneg
  rwa [← Int.cast_zero, halfEven_intCast] at hzero

theorem halfEven_abs (x : ℚ) : halfEven |x| = |halfEven x| := by
  rcases le_total 0 x with h | h
  · rw [abs_of_nonneg h, abs_of_nonneg (halfEven_nonneg h)]
  · have hneg := halfEven_nonneg (neg_nonneg.2 h)
    rw [halfEven_neg] at hneg
    rw [abs_of_nonpos h, halfEven_neg, abs_of_nonpos (by omega)]

/-- A quotient of naturals is rounded as a number is. -/
theorem roundDiv_even_eq {n d : ℕ} (positive : 0 < d) :
    (roundDiv .even n d : ℤ) = halfEven ((n : ℚ) / d) := by
  have hd : (0 : ℚ) < d := by exact_mod_cast positive
  have hlower : (2 * (d * roundDiv .even n d) : ℚ) ≤ 2 * n + d := by
    exact_mod_cast roundDiv_lower .even positive
  have hupper : (2 * n : ℚ) ≤ 2 * (d * roundDiv .even n d) + d := by
    exact_mod_cast roundDiv_upper .even positive
  have heven := roundDiv_even_of_tie (n := n) positive
  generalize roundDiv .even n d = q at hlower hupper heven ⊢
  have hcast : ((q : ℤ) : ℚ) = q := Int.cast_natCast q
  symm
  apply NearestEven.eq
  refine ⟨?_, ?_, ?_⟩
  · rw [hcast, le_div_iff₀ hd]
    linarith
  · rw [hcast, div_le_iff₀ hd]
    linarith
  · rw [hcast]
    rintro (h | h)
    · rw [div_eq_iff hd.ne'] at h
      have htie : 2 * (d * q : ℚ) = 2 * n + d := by linarith
      exact_mod_cast heven (Or.inl (by exact_mod_cast htie))
    · rw [div_eq_iff hd.ne'] at h
      have htie : (2 * n : ℚ) = 2 * (d * q) + d := by linarith
      exact_mod_cast heven (Or.inr (by exact_mod_cast htie))

/-- A number that has no more digits stays as it is. -/
theorem roundedEven_exact {places : ℕ} {x : ℚ} {z : ℤ} (whole : x * 10 ^ places = z) :
    roundedEven places x = x := by
  rw [roundedEven, whole, halfEven_intCast, ← whole]
  field_simp

theorem roundedEven_signed (places : ℕ) (negative : Bool) (x : ℚ) :
    roundedEven places (signed negative x) = signed negative (roundedEven places x) := by
  cases negative with
  | false => rfl
  | true =>
    simp only [signed, if_true, roundedEven]
    rw [neg_mul, halfEven_neg, Int.cast_neg, neg_div]

namespace Decimal

/-! ## Taking off digits until the rest fits -/

theorem dropDigits_even (k m : ℕ) : (dropDigits .even k m : ℤ) = halfEven ((m : ℚ) / 10 ^ k) := by
  rw [dropDigits, roundDiv_even_eq (Nat.pos_of_ne_zero (by simp)), cast_pow_ten]

/-- The fewer digits are left, the smaller is what they denote. -/
theorem dropDigits_even_le {j k : ℕ} (few : j ≤ k) (m : ℕ) :
    dropDigits .even k m ≤ dropDigits .even j m := by
  have hpower : (10 : ℚ) ^ j ≤ 10 ^ k := pow_le_pow_right₀ (by norm_num) few
  have hordered : (m : ℚ) / 10 ^ k ≤ m / 10 ^ j :=
    div_le_div_of_nonneg_left (by positivity) (by positivity) hpower
  have hrounded := halfEven_mono hordered
  rw [← dropDigits_even, ← dropDigits_even] at hrounded
  exact_mod_cast hrounded

theorem ofSigned?_eq_none {negative : Bool} {m scale : ℕ} (places : scale ≤ 28) :
    ofSigned? negative m scale = none ↔ capacity ≤ m := by
  rw [ofSigned?]
  split
  · rename_i hheld
    exact iff_of_false (Option.some_ne_none _) (Nat.not_le.2 hheld.1)
  · rename_i hmisfit
    exact iff_of_true rfl (Nat.le_of_not_lt fun small => hmisfit ⟨small, places⟩)

section

variable {negative : Bool} {m drop scale : ℕ} {b : Decimal}

/-- What does not fit as a whole number does not fit with any digits after the point. -/
theorem fitFrom_eq_none_iff (places : scale ≤ 28) :
    fitFrom negative m drop scale = none ↔ capacity ≤ dropDigits .even (drop + scale) m := by
  induction scale generalizing drop with
  | zero =>
    rw [fitFrom, Nat.add_zero]
    exact ofSigned?_eq_none (Nat.zero_le 28)
  | succ scale ih =>
    have hnext : drop + 1 + scale = drop + (scale + 1) := by omega
    have hrest : fitFrom negative m (drop + 1) scale = none ↔
        capacity ≤ dropDigits .even (drop + (scale + 1)) m :=
      hnext ▸ ih (Nat.le_of_succ_le places)
    rw [fitFrom]
    cases hheld : ofSigned? negative (dropDigits .even drop m) (scale + 1) with
    | none => exact hrest
    | some a =>
      refine iff_of_false (Option.some_ne_none a) ?_
      intro hlarge
      have hmisfit : ofSigned? negative (dropDigits .even drop m) (scale + 1) = none :=
        (ofSigned?_eq_none places).2
          (hlarge.trans (dropDigits_even_le (Nat.le_add_right drop (scale + 1)) m))
      cases hheld.symm.trans hmisfit

theorem dropped_rounded (held : ofSigned? negative (dropDigits .even drop m) scale = some b) :
    b.scale = scale ∧
      b.toRat = roundedEven b.scale (signed negative (m / 10 ^ (drop + scale))) := by
  obtain ⟨hscale, hvalue⟩ := ofSigned?_eq_some held
  have hshift : (m / 10 ^ (drop + scale) : ℚ) * 10 ^ scale = m / 10 ^ drop := by
    rw [pow_add]
    field_simp
  refine ⟨hscale, ?_⟩
  rw [hvalue, hscale, roundedEven_signed, roundedEven, hshift, ← dropDigits_even, Int.cast_natCast]

/-- What is left of a number is the number, rounded to the digits that are left. -/
theorem fitFrom_rounded (fitted : fitFrom negative m drop scale = some b) :
    b.toRat = roundedEven b.scale (signed negative (m / 10 ^ (drop + scale))) := by
  induction scale generalizing drop with
  | zero => exact (dropped_rounded fitted).2
  | succ scale ih =>
    have hnext : drop + 1 + scale = drop + (scale + 1) := by omega
    rw [fitFrom] at fitted
    cases hheld : ofSigned? negative (dropDigits .even drop m) (scale + 1) with
    | some c =>
      rw [hheld] at fitted
      cases fitted
      exact (dropped_rounded hheld).2
    | none =>
      rw [hheld] at fitted
      rw [← hnext]
      exact ih fitted

/-- No more digits are taken off than have to be. -/
theorem fitFrom_keeps {kept : ℕ} (few : kept ≤ scale) (places : scale ≤ 28)
    (small : dropDigits .even (drop + (scale - kept)) m < capacity) :
    ∃ b, fitFrom negative m drop scale = some b ∧ kept ≤ b.scale := by
  induction scale generalizing drop with
  | zero =>
    rw [Nat.zero_sub, Nat.add_zero] at small
    obtain ⟨b, hb, -⟩ := ofSigned?_held negative small (Nat.zero_le 28)
    exact ⟨b, hb, few.trans (Nat.zero_le _)⟩
  | succ scale ih =>
    rw [fitFrom]
    cases hheld : ofSigned? negative (dropDigits .even drop m) (scale + 1) with
    | some b => exact ⟨b, rfl, (dropped_rounded hheld).1 ▸ few⟩
    | none =>
      have hlarge := (ofSigned?_eq_none places).1 hheld
      have hfewer : kept ≤ scale := by
        by_contra hmany
        have hall : scale + 1 - kept = 0 := by omega
        rw [hall, Nat.add_zero] at small
        omega
      have hnext : drop + 1 + (scale - kept) = drop + (scale + 1 - kept) := by omega
      exact ih hfewer (Nat.le_of_succ_le places) (hnext ▸ small)

end

/-! ## The nearest decimal of a number -/

section

variable {c : ℤ} {scale : ℕ}

/-- The places that a number has and those that a decimal can have. -/
theorem fit_places (scale : ℕ) : scale - maxScale + Nat.min scale maxScale = scale := by
  rw [maxScale]
  rcases Nat.le_total scale 28 with h | h
  · rw [Nat.sub_eq_zero_of_le h, Nat.zero_add]
    exact Nat.min_eq_left h
  · rw [show Nat.min scale 28 = 28 from Nat.min_eq_right h, Nat.sub_add_cancel h]

theorem signed_size (c : ℤ) (scale : ℕ) :
    signed (c < 0) (c.natAbs / 10 ^ scale) = (c : ℚ) / 10 ^ scale := by
  rw [signed_div, signed_natAbs]

theorem fit_rounded {b : Decimal} (fitted : fit c scale = some b) :
    b.toRat = roundedEven b.scale (c / 10 ^ scale) := by
  have hrounded := fitFrom_rounded fitted
  rw [fit_places, signed_size] at hrounded
  exact hrounded

theorem abs_size (c : ℤ) (scale : ℕ) : |(c : ℚ) / 10 ^ scale| = c.natAbs / 10 ^ scale := by
  rw [← signed_size, abs_signed _ (by positivity)]

theorem fit_eq_none_iff : fit c scale = none ↔ (capacity : ℤ) ≤ |halfEven (c / 10 ^ scale)| := by
  have hplaces : Nat.min scale maxScale ≤ 28 := Nat.min_le_right scale maxScale
  rw [fit, fitFrom_eq_none_iff hplaces, fit_places, ← halfEven_abs, abs_size, ← dropDigits_even,
    Nat.cast_le]

theorem whole_of_le {x : ℚ} {z : ℤ} {j k : ℕ} (whole : x * 10 ^ j = z) (more : j ≤ k) :
    x * 10 ^ k = ((z * 10 ^ (k - j) : ℤ) : ℚ) := by
  have hpower : (10 : ℚ) ^ k = 10 ^ j * 10 ^ (k - j) := by rw [← pow_add, Nat.add_sub_cancel' more]
  rw [hpower, ← mul_assoc, whole]
  push_cast
  rfl

/-- A number that a decimal denotes is whole with no more digits than the decimal has, and no more
than it is given with. -/
theorem exists_kept (a : Decimal) (same : a.toRat = c / 10 ^ scale) :
    ∃ kept ≤ a.scale, kept ≤ scale ∧ ∃ z : ℤ, (c / 10 ^ scale : ℚ) * 10 ^ kept = z := by
  rcases Nat.le_total a.scale scale with h | h
  · refine ⟨a.scale, le_refl _, h, a.coefficient, ?_⟩
    rw [← same, toRat]
    field_simp
  · refine ⟨scale, h, le_refl _, c, ?_⟩
    field_simp

/-- If some decimal denotes the number, one that denotes it is found. -/
theorem fit_exact (representable : Representable (c / 10 ^ scale)) :
    ∃ b, fit c scale = some b ∧ b.toRat = c / 10 ^ scale := by
  obtain ⟨a, ha⟩ := representable
  obtain ⟨kept, hheld, hgiven, z, hz⟩ := exists_kept a ha
  have hfew : kept ≤ Nat.min scale maxScale := Nat.le_min.2 ⟨hgiven, hheld.trans a.scale_le⟩
  have hdropped : scale - maxScale + (Nat.min scale maxScale - kept) = scale - kept := by
    have hplaces := fit_places scale
    omega
  have hsize : (c.natAbs : ℚ) / 10 ^ (scale - kept) = |(c : ℚ) / 10 ^ scale| * 10 ^ kept := by
    have hpower : (10 : ℚ) ^ scale = 10 ^ (scale - kept) * 10 ^ kept := by
      rw [← pow_add, Nat.sub_add_cancel hgiven]
    rw [abs_size, hpower]
    field_simp
  have hbounded : (c.natAbs : ℚ) / 10 ^ (scale - kept) ≤ ((a.magnitude : ℤ) : ℚ) := by
    have hpower : (10 : ℚ) ^ kept ≤ 10 ^ a.scale := pow_le_pow_right₀ (by norm_num) hheld
    rw [hsize, ← ha, a.toRat_eq, abs_signed _ (by positivity), div_mul_eq_mul_div,
      div_le_iff₀ (by positivity), Int.cast_natCast]
    exact mul_le_mul_of_nonneg_left hpower (by positivity)
  have hsmall : dropDigits .even (scale - kept) c.natAbs < capacity := by
    have hrounded := halfEven_mono hbounded
    rw [halfEven_intCast, ← dropDigits_even, Nat.cast_le] at hrounded
    exact hrounded.trans_lt a.magnitude_lt
  rw [← hdropped] at hsmall
  obtain ⟨b, hb, hkept⟩ : ∃ b, fit c scale = some b ∧ kept ≤ b.scale :=
    fitFrom_keeps hfew (Nat.min_le_right _ _) hsmall
  exact ⟨b, hb, (fit_rounded hb).trans (roundedEven_exact (whole_of_le hz hkept))⟩

end

/-! ## The operations -/

/-- What an operation comes to whose result is a given number, where its overflow is reported and
where it saturates. -/
structure Computes (x : ℚ) (checked : Option Decimal) (saturating : Decimal) : Prop where
  precise : Representable x → ∃ c, checked = some c ∧ c.toRat = x ∧ saturating.toRat = x
  rounded : ∀ c, checked = some c → c.toRat = roundedEven c.scale x ∧ saturating.toRat = c.toRat
  overflow : checked = none ↔ ((capacity - 1 : ℕ) : ℤ) < |halfEven x|
  saturates : checked = none → saturating.toRat = signed (x < 0) (capacity - 1 : ℕ)

theorem extreme_toRat (negative : Bool) :
    (extreme negative).toRat = signed negative (capacity - 1 : ℕ) := by
  rw [toRat_eq, extreme, zero, pow_zero, div_one]

theorem fit_computes {x : ℚ} {c : ℤ} {scale : ℕ} (same : (c : ℚ) / 10 ^ scale = x) :
    Computes x (fit c scale) ((fit c scale).getD (extreme (c < 0))) := by
  subst same
  have hsign : (c : ℚ) / 10 ^ scale < 0 ↔ c < 0 := by
    rw [div_lt_iff₀ (by positivity), zero_mul, Int.cast_lt_zero]
  refine ⟨?_, ?_, ?_, ?_⟩
  · intro hrepresentable
    obtain ⟨b, hb, hvalue⟩ := fit_exact hrepresentable
    exact ⟨b, hb, hvalue, by rw [hb, Option.getD_some, hvalue]⟩
  · intro b hb
    exact ⟨fit_rounded hb, by rw [hb, Option.getD_some]⟩
  · rw [fit_eq_none_iff]
    have hcapacity : 0 < capacity := by decide
    omega
  · intro hnone
    rw [hnone, Option.getD_none, extreme_toRat, decide_eq_decide.2 hsign]

theorem neg_toRat (a : Decimal) : a.neg.toRat = -a.toRat := by
  rw [toRat_eq, toRat_eq, neg]
  cases a.negative with
  | false => rfl
  | true => exact (neg_neg _).symm

theorem exactSum_toRat (a b : Decimal) :
    ((exactSum a b).1 : ℚ) / 10 ^ (exactSum a b).2 = a.toRat + b.toRat := by
  have hpart : ∀ d : Decimal, d.scale ≤ Nat.max a.scale b.scale →
      ((d.coefficient * Nat.pow 10 (Nat.max a.scale b.scale - d.scale) : ℤ) : ℚ) /
        10 ^ Nat.max a.scale b.scale = d.toRat := by
    intro d few
    have hpower : (10 : ℚ) ^ Nat.max a.scale b.scale =
        10 ^ d.scale * 10 ^ (Nat.max a.scale b.scale - d.scale) := by
      rw [← pow_add, Nat.add_sub_cancel' few]
    rw [Int.cast_mul, Int.cast_natCast, cast_pow_ten, hpower, toRat]
    field_simp
  have hfirst := hpart a (Nat.le_max_left _ _)
  have hsecond := hpart b (Nat.le_max_right _ _)
  simp only [exactSum]
  rw [Int.cast_add, add_div, hfirst, hsecond]

theorem exactProduct_toRat (a b : Decimal) :
    ((exactProduct a b).1 : ℚ) / 10 ^ (exactProduct a b).2 = a.toRat * b.toRat := by
  simp only [exactProduct, toRat]
  rw [pow_add, Int.cast_mul, mul_div_mul_comm]

theorem exactSum_comm (a b : Decimal) : exactSum a b = exactSum b a := by
  have hscale : Nat.max a.scale b.scale = Nat.max b.scale a.scale := Nat.max_comm _ _
  simp only [exactSum, hscale]
  rw [Int.add_comm]

theorem exactProduct_comm (a b : Decimal) : exactProduct a b = exactProduct b a := by
  simp only [exactProduct]
  rw [Int.mul_comm, Nat.add_comm]

/-- Sums, differences and products are exact wherever a decimal denotes them, otherwise rounded, and
out of range only if they are as whole numbers, when they saturate. The order of what is added or
multiplied does not matter, and a difference is the sum with what is taken off reversed. -/
theorem operations_exact_or_saturated (a b : Decimal) :
    Computes (a.toRat + b.toRat) (checkedAdd a b) (add a b) ∧
    Computes (a.toRat - b.toRat) (checkedSub a b) (sub a b) ∧
    Computes (a.toRat * b.toRat) (checkedMul a b) (mul a b) ∧
    (checkedAdd a b = checkedAdd b a ∧ add a b = add b a) ∧
    (checkedMul a b = checkedMul b a ∧ mul a b = mul b a) ∧
    (checkedSub a b = checkedAdd a b.neg ∧ sub a b = add a b.neg) := by
  refine ⟨fit_computes (exactSum_toRat a b), ?_, fit_computes (exactProduct_toRat a b), ?_, ?_,
    rfl, rfl⟩
  · rw [sub_eq_add_neg, ← neg_toRat]
    exact fit_computes (exactSum_toRat a b.neg)
  · rw [checkedAdd, checkedAdd, add, add, checkedAdd, checkedAdd, exactSum_comm a b]
    exact ⟨rfl, rfl⟩
  · rw [checkedMul, checkedMul, mul, mul, checkedMul, checkedMul, exactProduct_comm a b]
    exact ⟨rfl, rfl⟩

end Decimal
end ExchangeClient
