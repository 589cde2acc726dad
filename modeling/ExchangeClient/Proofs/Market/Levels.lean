import ExchangeClient.Market.Book
import ExchangeClient.Proofs.Decimal.RoundTrip
import Mathlib.Data.List.Induction

/-!
# The levels of an order book

Prices are compared as the numbers they denote, so neither the scale of a price
nor the sign of a zero counts. Going through the levels of a side, the best one so
far gives way to each that beats it. Of the asks only a cheaper one does, so the
first of the cheapest is left; of the bids one that is as dear does too, so the
last of the dearest is left.
-/

namespace ExchangeClient.OrderBook

variable {beats noWorse : ℚ → ℚ → Prop} {levels : List PriceLevel} {best other l : PriceLevel}

/-! ## The best level -/

/-- A level that beats all before it and that none after it beats. Which of two equal prices it has
hangs on whether a price beats itself. -/
def Chosen (beats : ℚ → ℚ → Prop) (levels : List PriceLevel) (best : PriceLevel) : Prop :=
  ∃ before after, levels = before ++ best :: after ∧
    (∀ l ∈ before, beats best.price.toRat l.price.toRat) ∧
      ∀ l ∈ after, ¬beats l.price.toRat best.price.toRat

/-- When one price beats another, in keeping with an order in which none is worse than itself. It
may beat itself, and of two prices each may beat the other. -/
structure Ranks (beats noWorse : ℚ → ℚ → Prop) : Prop where
  trans : ∀ {x y z}, beats x y → beats y z → beats x z
  /-- What does not beat the one that is beaten is beaten too. -/
  passes : ∀ {x y z}, beats x y → ¬beats z y → beats x z
  beating : ∀ {x y}, beats x y → noWorse x y
  unbeaten : ∀ {x y}, ¬beats y x → noWorse x y

theorem ranks_asks : Ranks (· < ·) (· ≤ ·) :=
  ⟨lt_trans, fun hxy hzy => hxy.trans_le (not_lt.1 hzy), le_of_lt, not_lt.1⟩

theorem ranks_bids : Ranks (· ≥ ·) (· ≥ ·) :=
  ⟨ge_trans, fun hxy hzy => (not_le.1 hzy).le.trans hxy, id, fun hyx => (not_le.1 hyx).le⟩

/-- The best level so far, after one more. -/
def takeBetter (beats : ℚ → ℚ → Prop) [DecidableRel beats] :
    Option PriceLevel → PriceLevel → Option PriceLevel
  | none, l => some l
  | some best, l => if beats l.price.toRat best.price.toRat then some l else some best

theorem lowest?_eq_foldl : lowest? levels = levels.foldl (takeBetter (· < ·)) none := by
  refine congrArg (levels.foldl · none) (funext₂ fun best l => ?_)
  cases best with
  | none => rfl
  | some b => exact if_congr Decimal.compare_isLT_iff rfl rfl

theorem highest?_eq_foldl : highest? levels = levels.foldl (takeBetter (· ≥ ·)) none := by
  refine congrArg (levels.foldl · none) (funext₂ fun best l => ?_)
  cases best with
  | none => rfl
  | some b =>
    have hbeaten : (l.price.compare b.price).isLT = true ↔ ¬l.price.toRat ≥ b.price.toRat :=
      Decimal.compare_isLT_iff.trans not_le.symm
    exact (if_congr hbeaten rfl rfl).trans (ite_not _ _ _)

theorem Chosen.kept (chosen : Chosen beats levels best)
    (unbeaten : ¬beats l.price.toRat best.price.toRat) : Chosen beats (levels ++ [l]) best := by
  obtain ⟨before, after, rfl, hbefore, hafter⟩ := chosen
  refine ⟨before, after ++ [l], List.append_assoc _ _ _, hbefore, ?_⟩
  intro x hx
  rcases List.mem_append.1 hx with hx | hx
  · exact hafter x hx
  · exact List.mem_singleton.1 hx ▸ unbeaten

/-- What beats the best level beats them all. -/
theorem Chosen.replaced (ranks : Ranks beats noWorse) (chosen : Chosen beats levels best)
    (better : beats l.price.toRat best.price.toRat) : Chosen beats (levels ++ [l]) l := by
  obtain ⟨before, after, rfl, hbefore, hafter⟩ := chosen
  refine ⟨_, [], rfl, ?_, nofun⟩
  intro x hx
  rcases List.mem_append.1 hx with hx | hx
  · exact ranks.trans better (hbefore x hx)
  · rcases List.mem_cons.1 hx with rfl | hx
    · exact better
    · exact ranks.passes better (hafter x hx)

theorem Chosen.mem (chosen : Chosen beats levels best) : best ∈ levels := by
  obtain ⟨before, after, rfl, -, -⟩ := chosen
  exact List.mem_append_right _ List.mem_cons_self

theorem Chosen.forall_noWorse (ranks : Ranks beats noWorse) (chosen : Chosen beats levels best) :
    ∀ l ∈ levels, noWorse best.price.toRat l.price.toRat := by
  obtain ⟨before, after, rfl, hbefore, hafter⟩ := chosen
  intro l hl
  rcases List.mem_append.1 hl with hl | hl
  · exact ranks.beating (hbefore l hl)
  · rcases List.mem_cons.1 hl with rfl | hl
    · by_cases hself : beats l.price.toRat l.price.toRat
      · exact ranks.beating hself
      · exact ranks.unbeaten hself
    · exact ranks.unbeaten (hafter l hl)

/-- No level before one that is chosen is chosen too. -/
theorem eq_of_rest {between after after' : List PriceLevel}
    (rest : best :: after = between ++ other :: after')
    (beaten : ∀ l ∈ between, beats other.price.toRat l.price.toRat)
    (unbeaten : ∀ l ∈ after, ¬beats l.price.toRat best.price.toRat) : best = other := by
  cases between with
  | nil => exact (List.cons.inj rest).1
  | cons x between =>
    obtain ⟨rfl, rfl⟩ := List.cons.inj rest
    have hother : other ∈ between ++ other :: after' :=
      List.mem_append_right _ List.mem_cons_self
    exact absurd (beaten best List.mem_cons_self) (unbeaten other hother)

theorem Chosen.unique (first : Chosen beats levels best) (second : Chosen beats levels other) :
    best = other := by
  obtain ⟨before, after, rfl, hbefore, hafter⟩ := first
  obtain ⟨before', after', hlevels, hbefore', hafter'⟩ := second
  rcases List.append_eq_append_iff.1 hlevels with ⟨between, rfl, hrest⟩ | ⟨between, rfl, hrest⟩
  · have hbeaten : ∀ l ∈ between, beats other.price.toRat l.price.toRat :=
      fun l hl => hbefore' l (List.mem_append_right _ hl)
    exact eq_of_rest hrest hbeaten hafter
  · have hbeaten : ∀ l ∈ between, beats best.price.toRat l.price.toRat :=
      fun l hl => hbefore l (List.mem_append_right _ hl)
    exact (eq_of_rest hrest hbeaten hafter').symm

section

variable [DecidableRel beats]

/-- Going through the levels leaves the one that is chosen. -/
theorem foldl_chosen (ranks : Ranks beats noWorse) (levels : List PriceLevel) :
    (levels = [] ∧ levels.foldl (takeBetter beats) none = none) ∨
      ∃ best, levels.foldl (takeBetter beats) none = some best ∧ Chosen beats levels best := by
  -- the last level is the one that was gone through last
  induction levels using List.reverseRecOn with
  | nil => exact Or.inl ⟨rfl, rfl⟩
  | append_singleton levels l ih =>
    right
    rw [List.foldl_append, List.foldl_cons, List.foldl_nil]
    rcases ih with ⟨rfl, hnone⟩ | ⟨best, hbest, hchosen⟩
    · exact ⟨l, rfl, [], [], rfl, nofun, nofun⟩
    · rw [hbest, takeBetter]
      by_cases hbetter : beats l.price.toRat best.price.toRat
      · exact ⟨l, if_pos hbetter, hchosen.replaced ranks hbetter⟩
      · exact ⟨best, if_neg hbetter, hchosen.kept hbetter⟩

theorem foldl_eq_none_iff (ranks : Ranks beats noWorse) :
    levels.foldl (takeBetter beats) none = none ↔ levels = [] := by
  rcases foldl_chosen ranks levels with ⟨hempty, hnone⟩ | ⟨best, hbest, hchosen⟩
  · exact iff_of_true hnone hempty
  · exact iff_of_false (by simp [hbest]) (List.ne_nil_of_mem hchosen.mem)

theorem foldl_eq_some_iff (ranks : Ranks beats noWorse) :
    levels.foldl (takeBetter beats) none = some best ↔ Chosen beats levels best := by
  rcases foldl_chosen ranks levels with ⟨rfl, hnone⟩ | ⟨found, hfound, hchosen⟩
  · exact iff_of_false (by simp) fun chosen => List.not_mem_nil chosen.mem
  · rw [hfound, Option.some_inj]
    exact ⟨fun same => same ▸ hchosen, hchosen.unique⟩

end

/-! ## The level at a price -/

/-- The first of the levels with a price. -/
def FirstAt (levels : List PriceLevel) (price : ℚ) (found : PriceLevel) : Prop :=
  ∃ before after, levels = before ++ found :: after ∧ found.price.toRat = price ∧
    ∀ l ∈ before, l.price.toRat ≠ price

theorem levelAt?_eq_some_iff {price : Decimal} {found : PriceLevel} :
    levelAt? levels price = some found ↔ FirstAt levels price.toRat found := by
  simp only [levelAt?, List.find?_eq_some_iff_append, FirstAt, Decimal.same_iff,
    Bool.not_eq_true', ← Bool.not_eq_true]
  constructor
  · rintro ⟨hsame, before, after, hlevels, hbefore⟩
    exact ⟨before, after, hlevels, hsame, hbefore⟩
  · rintro ⟨before, after, hlevels, hsame, hbefore⟩
    exact ⟨hsame, before, after, hlevels, hbefore⟩

theorem levelAt?_eq_none_iff {price : Decimal} :
    levelAt? levels price = none ↔ ∀ l ∈ levels, l.price.toRat ≠ price.toRat := by
  simp only [levelAt?, List.find?_eq_none, Decimal.same_iff, ne_eq]

theorem levelAt?_of_mem (mem : l ∈ levels) :
    ∃ found, levelAt? levels l.price = some found ∧ found.price.toRat = l.price.toRat := by
  cases hfound : levelAt? levels l.price with
  | none => exact absurd rfl (levelAt?_eq_none_iff.1 hfound l mem)
  | some found =>
    obtain ⟨_, _, -, hsame, -⟩ := levelAt?_eq_some_iff.1 hfound
    exact ⟨found, rfl, hsame⟩

/-! ## A side of a book -/

/-- What one side of a book answers to the question for its best level and to those for the level
at a price. -/
structure Answers (noWorse : ℚ → ℚ → Prop) (levels : List PriceLevel) (best? : Option PriceLevel)
    (at? : Decimal → Option PriceLevel) : Prop where
  none_best_iff : best? = none ↔ levels = []
  best_mem : ∀ best, best? = some best → best ∈ levels
  best_noWorse : ∀ best, best? = some best →
    ∀ l ∈ levels, noWorse best.price.toRat l.price.toRat
  none_at_iff : ∀ price, at? price = none ↔ ∀ l ∈ levels, l.price.toRat ≠ price.toRat
  first_at_iff : ∀ price found, at? price = some found ↔ FirstAt levels price.toRat found
  best_found : ∀ best, best? = some best →
    ∃ found, at? best.price = some found ∧ found.price.toRat = best.price.toRat

theorem answers [DecidableRel beats] (ranks : Ranks beats noWorse) :
    Answers noWorse levels (levels.foldl (takeBetter beats) none) (levelAt? levels) where
  none_best_iff := foldl_eq_none_iff ranks
  best_mem _ hbest := ((foldl_eq_some_iff ranks).1 hbest).mem
  best_noWorse _ hbest := ((foldl_eq_some_iff ranks).1 hbest).forall_noWorse ranks
  none_at_iff _ := levelAt?_eq_none_iff
  first_at_iff _ _ := levelAt?_eq_some_iff
  best_found _ hbest := levelAt?_of_mem ((foldl_eq_some_iff ranks).1 hbest).mem

/-- The best ask is the first of those with the lowest price and the best bid the last of those with
the highest. The level at a price is the first one with a price that denotes the same number, and
there is always one at the best price. -/
theorem levels_compared_as_numbers (b : OrderBook) :
    Answers (· ≤ ·) b.asks b.bestAsk? b.askAt? ∧
    (∀ best, b.bestAsk? = some best ↔ Chosen (· < ·) b.asks best) ∧
    Answers (· ≥ ·) b.bids b.bestBid? b.bidAt? ∧
    ∀ best, b.bestBid? = some best ↔ Chosen (· ≥ ·) b.bids best := by
  have hask : b.bestAsk? = b.asks.foldl (takeBetter (· < ·)) none := lowest?_eq_foldl
  have hbid : b.bestBid? = b.bids.foldl (takeBetter (· ≥ ·)) none := highest?_eq_foldl
  rw [hask, hbid]
  exact ⟨answers ranks_asks, fun _ => foldl_eq_some_iff ranks_asks,
    answers ranks_bids, fun _ => foldl_eq_some_iff ranks_bids⟩

/-- Zeros of other signs and scales are one price. -/
example :
    let levels : List PriceLevel :=
      [⟨.extreme false, .extreme false⟩, ⟨.zero, Decimal.zero.neg⟩, ⟨.extreme true, .zero⟩]
    lowest? levels = levels[1]? ∧ highest? levels.tail = levels[2]? ∧
      levelAt? levels .zero = levels[1]? := by
  decide

end ExchangeClient.OrderBook
