/-!
# Rounding a quotient to a whole number

Every rounding of this library, on the decimal grid and on the binary one, is a
quotient of two natural numbers taken to a nearest whole number. The rules
differ only in where a tie goes.
-/

namespace ExchangeClient

/-- Where the midpoint between two neighbours goes. -/
inductive Tie where
  | away
  | even
  deriving DecidableEq, Repr

/-- `n / d` to the nearest whole number, for a positive divisor. -/
def roundDiv (tie : Tie) (n d : Nat) : Nat :=
  if 2 * (n % d) < d then n / d
  else if d < 2 * (n % d) ∨ tie = .away ∨ n / d % 2 = 1 then n / d + 1
  else n / d

theorem roundDiv_le (tie : Tie) (n d : Nat) (h : 0 < d) : roundDiv tie n d ≤ n := by
  have hn := Nat.div_add_mod n d
  have hq : n / d ≤ d * (n / d) := Nat.le_mul_of_pos_left _ h
  unfold roundDiv
  split
  · exact Nat.div_le_self n d
  · split
    · omega
    · exact Nat.div_le_self n d

theorem roundDiv_of_dvd (tie : Tie) (q d : Nat) (h : 0 < d) : roundDiv tie (q * d) d = q := by
  simp [roundDiv, Nat.mul_div_cancel q h, h]

end ExchangeClient
