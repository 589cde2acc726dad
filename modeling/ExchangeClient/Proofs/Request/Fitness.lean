import ExchangeClient.Proofs.Request.Amounts

/-!
# Arguments that are fit to be sent

What the arguments of an operation must be like is said here without its plan:
a pair or another text that is given, a trade number above zero, amounts above
zero. An operation has a plan exactly when its arguments are like that.
-/

namespace ExchangeClient

theorem isEmpty_eq_false_iff_ne {s : String} : s.isEmpty = false ↔ s ≠ "" := by
  rw [← Bool.not_eq_true, String.isEmpty_iff]

/-! ## Requests -/

/-- A pair and an amount, and for a limit order a price. -/
def TradeRequest.Fit (r : TradeRequest) : Prop :=
  r.pair ≠ "" ∧ 0 < r.amount.toRat ∧ (r.method = .limit → 0 < r.price.toRat)

/-- A request id, an asset, an address and an amount. -/
def WithdrawRequest.Fit (r : WithdrawRequest) : Prop :=
  r.requestId ≠ "" ∧ r.asset ≠ "" ∧ r.address ≠ "" ∧ 0 < r.amount.toRat

theorem TradeRequest.check_fit {r : TradeRequest} : (∃ u, r.check = .ok u) ↔ r.Fit := by
  rw [Except.exists_unit_ok, check_iff, isEmpty_eq_false_iff_ne, Decimal.isPositive_iff,
    Decimal.isPositive_iff]
  rfl

theorem TradeRequest.pack_fit {r : TradeRequest} : (∃ packed, r.pack = .ok packed) ↔ r.Fit := by
  rw [← check_fit]
  exact Except.exists_map_ok (f := fun _ => (r.form, r.channel))

theorem WithdrawRequest.check_fit {r : WithdrawRequest} : (∃ u, r.check = .ok u) ↔ r.Fit := by
  rw [Except.exists_unit_ok, check_iff, isEmpty_eq_false_iff_ne, isEmpty_eq_false_iff_ne,
    isEmpty_eq_false_iff_ne, Decimal.isPositive_iff]
  rfl

theorem WithdrawRequest.pack_fit {r : WithdrawRequest} : (∃ form, r.pack = .ok form) ↔ r.Fit := by
  rw [← check_fit]
  exact Except.exists_map_ok (f := fun _ => r.form)

theorem pairParams_fit {pair : String} : (∃ params, pairParams pair = .ok params) ↔ pair ≠ "" := by
  rw [pairParams, Except.exists_ite_error_ok, String.isEmpty_iff]
  exact and_iff_left ⟨_, rfl⟩

theorem TradeListing.pack_fit {l : TradeListing} :
    (∃ params, l.pack = .ok params) ↔ l.pair ≠ "" := by
  rw [pack, Except.exists_ite_error_ok, String.isEmpty_iff]
  exact and_iff_left ⟨_, rfl⟩

theorem FillListing.pack_fit {l : FillListing} :
    (∃ params, l.pack = .ok params) ↔ l.pair ≠ "" := by
  rw [pack, Except.exists_ite_error_ok, String.isEmpty_iff]
  exact and_iff_left ⟨_, rfl⟩

/-- Parameters that name a pair and a number above zero. -/
theorem numbered_fit {pair : String} {number : Int64} {e : RequestError}
    {f : Form.Params → Form.Params} :
    (∃ params, (do
        let params ← pairParams pair
        if number ≤ 0 then throw e
        pure (f params)) = Except.ok params) ↔
      pair ≠ "" ∧ 0 < number := by
  rw [Except.exists_bind_ok, ← pairParams_fit]
  constructor
  · rintro ⟨params, hpair, hnumber⟩
    by_cases hlow : number ≤ 0
    · simp only [if_pos hlow] at hnumber
      obtain ⟨_, h⟩ := hnumber
      cases h
    · exact ⟨⟨params, hpair⟩, Int64.not_le.1 hlow⟩
  · rintro ⟨⟨params, hpair⟩, hpositive⟩
    refine ⟨params, hpair, f params, ?_⟩
    simp only [if_neg (Int64.not_le.2 hpositive)]
    rfl

/-! ## The exchange's own interface -/

namespace RestApi

theorem tradeParams_fit {pair : String} {tradeId : Int64} :
    (∃ params, tradeParams pair tradeId = .ok params) ↔ pair ≠ "" ∧ 0 < tradeId := numbered_fit

variable {α : Type}

namespace Operation

/-- Arguments that pass all checks. -/
def Fit : Operation α → Prop
  | .authenticate | .marketInfo | .marketPrices | .marketSummaries | .userInfo
  | .userTransactions _ _ | .tradeCancelAll => True
  | .marketDepths pair | .marketTradesOpen pair | .marketTicker pair | .marketTrades pair _ _
  | .userOrdersClosed pair _ _ | .userOrdersOpen pair => pair ≠ ""
  | .userTrades listing => listing.pair ≠ ""
  | .userOrderInfo pair tradeId | .tradeCancelAsk pair tradeId | .tradeCancelBid pair tradeId =>
    pair ≠ "" ∧ 0 < tradeId
  | .userWithdraw request => request.Fit
  | .tradeAsk request | .tradeBid request => request.Fit
  | .tradeCancel trade => 0 < trade.id ∧ trade.side ≠ none ∧ trade.pair ≠ ""

theorem cancelPlan_fit {side : Side} {pair : String} {tradeId : Int64} :
    (∃ p, cancelPlan side pair tradeId = .ok p) ↔ pair ≠ "" ∧ 0 < tradeId := by
  rw [← tradeParams_fit]
  cases side with
  | sell => exact Except.exists_map_ok
  | buy => exact Except.exists_map_ok

/-- An operation has a plan exactly when its arguments are fit. -/
theorem plan_fit (op : Operation α) : (∃ p, op.plan = .ok p) ↔ op.Fit := by
  cases op with
  | authenticate | marketInfo | marketPrices | marketSummaries | userInfo | userTransactions
  | tradeCancelAll => exact iff_of_true ⟨_, rfl⟩ trivial
  | marketDepths pair | marketTradesOpen pair | marketTicker pair | marketTrades pair
  | userOrdersClosed pair | userOrdersOpen pair => exact Except.exists_map_ok.trans pairParams_fit
  | userTrades listing => exact Except.exists_map_ok.trans TradeListing.pack_fit
  | userOrderInfo pair tradeId => exact Except.exists_map_ok.trans tradeParams_fit
  | userWithdraw request => exact Except.exists_map_ok.trans WithdrawRequest.pack_fit
  | tradeAsk request | tradeBid request => exact Except.exists_map_ok.trans TradeRequest.pack_fit
  | tradeCancelAsk pair tradeId =>
    exact show (∃ p, cancelPlan .sell pair tradeId = .ok p) ↔ _ from cancelPlan_fit
  | tradeCancelBid pair tradeId =>
    exact show (∃ p, cancelPlan .buy pair tradeId = .ok p) ↔ _ from cancelPlan_fit
  | tradeCancel trade =>
    rw [plan, Except.exists_ite_error_ok, Int64.not_le, Fit]
    apply and_congr_right
    intro hpositive
    cases hside : trade.side with
    | none => exact iff_of_false nofun fun h => h.1 rfl
    | some side =>
      have hsome : (some side ≠ none) = True := by simp
      rw [hsome, true_and]
      exact cancelPlan_fit.trans (and_iff_left hpositive)

end Operation
end RestApi

/-! ## The trade API -/

namespace TradeApi

theorem orderParams_fit {pair : String} {orderId : Int64} :
    (∃ params, orderParams pair orderId = .ok params) ↔ pair ≠ "" ∧ 0 < orderId := numbered_fit

/-- An order is placed under the name of a pair, not just under any text. -/
theorem placementParams_fit {side : Side} {r : TradeRequest} :
    (∃ params, placementParams side r = .ok params) ↔
      r.Fit ∧ ∃ pair, Pair.parse r.pair = .ok pair := by
  rw [placementParams, Except.exists_bind_ok, ← TradeRequest.check_fit]
  constructor
  · rintro ⟨u, hcheck, hrest⟩
    exact ⟨⟨u, hcheck⟩, Except.exists_map_ok.1 hrest⟩
  · rintro ⟨⟨u, hcheck⟩, hpair⟩
    exact ⟨u, hcheck, Except.exists_map_ok.2 hpair⟩

theorem withdrawalParams_fit {r : WithdrawRequest} :
    (∃ params, withdrawalParams r = .ok params) ↔ r.Fit :=
  Except.exists_map_ok.trans WithdrawRequest.check_fit

theorem cancellationParams_fit {side : Side} {pair : String} {orderId : Int64} :
    (∃ params, cancellationParams side pair orderId = .ok params) ↔ pair ≠ "" ∧ 0 < orderId :=
  Except.exists_map_ok.trans orderParams_fit

variable {α : Type}

namespace Operation

/-- Arguments that pass all checks. -/
def Fit : Operation α → Prop
  | .authenticate | .marketSummaries | .marketInfo | .userInfo | .userOrdersOpen _
  | .userTransactions => True
  | .marketTicker pair | .marketTrades pair | .marketOrdersOpen pair
  | .userOrdersClosed pair _ _ => pair ≠ ""
  | .userTrades listing => listing.pair ≠ ""
  | .userOrder pair orderId | .tradeCancelBid pair orderId | .tradeCancelAsk pair orderId =>
    pair ≠ "" ∧ 0 < orderId
  | .userWithdraw request => request.Fit
  | .tradeBid request | .tradeAsk request =>
    request.Fit ∧ ∃ pair, Pair.parse request.pair = .ok pair

/-- An operation has a plan exactly when its arguments are fit. -/
theorem plan_fit (op : Operation α) : (∃ p, op.plan = .ok p) ↔ op.Fit := by
  cases op with
  | authenticate | marketSummaries | marketInfo | userInfo | userOrdersOpen | userTransactions =>
    exact iff_of_true ⟨_, rfl⟩ trivial
  | marketTicker pair | marketTrades pair | marketOrdersOpen pair | userOrdersClosed pair =>
    exact Except.exists_map_ok.trans pairParams_fit
  | userTrades listing => exact Except.exists_map_ok.trans FillListing.pack_fit
  | userOrder pair orderId => exact Except.exists_map_ok.trans orderParams_fit
  | tradeCancelBid pair orderId | tradeCancelAsk pair orderId =>
    exact Except.exists_map_ok.trans cancellationParams_fit
  | userWithdraw request => exact Except.exists_map_ok.trans withdrawalParams_fit
  | tradeBid request | tradeAsk request => exact Except.exists_map_ok.trans placementParams_fit

end Operation
end TradeApi
end ExchangeClient
