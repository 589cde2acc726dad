import ExchangeClient.Rounding

/-!
# Nearest whole numbers

A rounded quotient is at most half a unit away from the quotient. What happens
at exactly half a unit depends on the rule for ties, and this determines the
rounded quotient.
-/

namespace ExchangeClient

theorem roundDiv_cases (tie : Tie) (n d : Nat) :
    (roundDiv tie n d = n / d ∧ 2 * (n % d) ≤ d ∧
      (2 * (n % d) = d → tie = .even ∧ n / d % 2 = 0)) ∨
    (roundDiv tie n d = n / d + 1 ∧ d ≤ 2 * (n % d) ∧
      (2 * (n % d) = d → tie = .away ∨ n / d % 2 = 1)) := by
  simp only [roundDiv]
  split
  · exact Or.inl ⟨rfl, by omega, by omega⟩
  · split
    · rename_i hup
      refine Or.inr ⟨rfl, by omega, ?_⟩
      intro half
      rcases hup with hup | hup
      · omega
      · exact hup
    · rename_i hdown
      obtain ⟨hbelow, hrule⟩ := not_or.1 hdown
      obtain ⟨heven, hquotient⟩ := not_or.1 hrule
      refine Or.inl ⟨rfl, by omega, ?_⟩
      intro _
      cases tie with
      | away => exact absurd rfl heven
      | even => exact ⟨rfl, by omega⟩

variable {n d : Nat}

theorem roundDiv_lower (tie : Tie) (positive : 0 < d) :
    2 * (d * roundDiv tie n d) ≤ 2 * n + d := by
  have hn := Nat.div_add_mod n d
  have hd := Nat.mod_lt n positive
  rcases roundDiv_cases tie n d with ⟨h, -, -⟩ | ⟨h, hhalf, -⟩
  · rw [h]
    omega
  · rw [h, Nat.mul_add, Nat.mul_one]
    omega

theorem roundDiv_upper (tie : Tie) (positive : 0 < d) :
    2 * n ≤ 2 * (d * roundDiv tie n d) + d := by
  have hn := Nat.div_add_mod n d
  have hd := Nat.mod_lt n positive
  rcases roundDiv_cases tie n d with ⟨h, hhalf, -⟩ | ⟨h, -, -⟩
  · rw [h]
    omega
  · rw [h, Nat.mul_add, Nat.mul_one]
    omega

/-- A tie that goes away from zero never goes down. -/
theorem roundDiv_away_upper (positive : 0 < d) :
    2 * n < 2 * (d * roundDiv .away n d) + d := by
  have hn := Nat.div_add_mod n d
  have hd := Nat.mod_lt n positive
  rcases roundDiv_cases .away n d with ⟨h, hhalf, htie⟩ | ⟨h, -, -⟩
  · have hless : 2 * (n % d) ≠ d := by
      intro same
      exact absurd (htie same).1 (by decide)
    rw [h]
    omega
  · rw [h, Nat.mul_add, Nat.mul_one]
    omega

/-- A tie that goes to the even neighbour ends there. -/
theorem roundDiv_even_of_tie (positive : 0 < d)
    (half : 2 * (d * roundDiv .even n d) = 2 * n + d ∨ 2 * n = 2 * (d * roundDiv .even n d) + d) :
    roundDiv .even n d % 2 = 0 := by
  have hn := Nat.div_add_mod n d
  have hd := Nat.mod_lt n positive
  rcases roundDiv_cases .even n d with ⟨h, hhalf, htie⟩ | ⟨h, hhalf, htie⟩
  · rw [h] at half ⊢
    exact (htie (by omega)).2
  · rw [h, Nat.mul_add, Nat.mul_one] at half
    rcases htie (by omega) with hrule | hodd
    · exact absurd hrule (by decide)
    · rw [h]
      omega

end ExchangeClient
