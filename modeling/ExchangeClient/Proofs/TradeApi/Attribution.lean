import ExchangeClient.Proofs.TradeApi.Placements

/-!
# The asset in which an order is told to its caller

The exchange does not repeat the amount of an order that it takes, so the order
that the caller is told has it from the request, as an amount of the coin. That
is the asset under which it was sent, but for a market buy: there the amount was
sent as one of the base, and is told as one of the coin all the same.
-/

namespace ExchangeClient

/-- Whether an order counts an amount in an asset of its pair: in the coin, or in the base and then
not in the coin too. -/
def Order.CountsIn (o : Order) (pair : Pair) (asset : String) (amount : Decimal) : Prop :=
  if asset = pair.coin then o.amountCoin = amount
  else o.amountBase = amount ∧ o.amountCoin ≠ amount

/-- An order that counts its amount in the coin counts it in no other asset. -/
theorem Order.countsIn_iff {o : Order} {pair : Pair} {asset : String} {amount : Decimal}
    (coin : o.amountCoin = amount) : o.CountsIn pair asset amount ↔ asset = pair.coin := by
  rw [Order.CountsIn]
  by_cases hasset : asset = pair.coin
  · rw [if_pos hasset]
    exact iff_of_true coin hasset
  · rw [if_neg hasset]
    exact iff_of_false (fun h => h.2 coin) hasset

namespace TradeApi

/-- A reply that takes an order: with a good status, a number that says success and contents that
are read as a placement. -/
structure Accepts (reply : Http.Response) (p : Placement) : Prop where
  good : reply.isError = false
  contents : ∃ e : Envelope Placement, readBody (Envelope.codec Placement.codec) reply.body = .ok e ∧
    e.success = succeeded ∧ e.contents = some p

section

variable {side : Side} {r : TradeRequest} {pair : Pair} {now : Instant} {reply : Http.Response}
  {p : Placement}

theorem Accepts.readPrivate (accepts : Accepts reply p) (method : String) :
    readPrivate method Placement.codec reply = .ok p := by
  obtain ⟨e, hread, hsuccess, hcontents⟩ := accepts.contents
  have hstatus : checkStatus reply = .ok () := by
    rw [checkStatus, accepts.good]
    rfl
  rw [TradeApi.readPrivate, hstatus, hread]
  simp only [bind, Except.bind, hsuccess, hcontents, ne_eq, not_true_eq_false, if_false]
  rfl

theorem accepts_of_toOption (good : reply.isError = false)
    (contents : ((readBody (Envelope.codec Placement.codec) reply.body).toOption.bind fun e =>
      if e.success = succeeded then e.contents else none) = some p) : Accepts reply p := by
  obtain ⟨e, hread, htaken⟩ := Option.bind_eq_some_iff.1 contents
  obtain ⟨hsuccess, hcontents⟩ := Option.ite_none_right_eq_some.1 htaken
  exact ⟨good, e, Except.toOption_eq_some.1 hread, hsuccess, hcontents⟩

theorem placement_read (side : Side) (r : TradeRequest) (reply : Http.Response) :
    (placement side r).read reply =
      (TradeApi.readPrivate "trade" Placement.codec reply).map (Operation.placed side r) := by
  cases side with
  | buy => rfl
  | sell => rfl

/-- An order that is sent and taken is told to its caller as the request and the reply make it. -/
theorem placement_result {s : Settings} {transport : Transport} {q : Http.Request}
    (sent : sentBy s now transport (placement side r) = [q]) (answered : transport [q] = .ok reply)
    (accepts : Accepts reply p) :
    (((placement side r).call s now).run transport).2 = .ok (Operation.placed side r p) := by
  obtain ⟨names, houtcome⟩ := Operation.outcome_of_reply sent answered
  rw [houtcome, placement_read, accepts.readPrivate]
  exact Outcome.duringAll_ok names _

/-- What sizes an order is sent, unless it is put under a name that is given anew after it. -/
theorem size_found {payload : String} (told : Tells payload (placementRows side r pair now))
    (kept : sizedAsset side r.method pair ∉ ["method", "nonce"]) :
    Entries.find? (sizedAsset side r.method pair) (Form.decode payload) = some r.amount.text := by
  simp only [List.mem_cons, List.not_mem_nil, or_false, not_or] at kept
  rw [told.found, placementRows, orderRows]
  simp only [List.reverse_append, List.reverse_cons, List.reverse_nil, List.nil_append,
    List.cons_append, Entries.find?_cons, Ne.symm kept.1, Ne.symm kept.2, if_false, if_true]

/-- Only a market buy is sized in the base. -/
theorem sizedAsset_ne_coin_iff :
    sizedAsset side r.method pair ≠ pair.coin ↔
      side = .buy ∧ r.method = .market ∧ pair.base ≠ pair.coin := by
  cases hmethod : r.method with
  | limit => simp [sizedAsset]
  | market =>
    cases side with
    | buy => simp [sizedAsset]
    | sell => simp [sizedAsset]

theorem toOrder_amounts (p : Placement) (side : Side) (m : Method) (amount price : Decimal) :
    (p.toOrder side m amount price).amountCoin = amount ∧
      (p.toOrder side m amount price).amountBase =
        if side = .buy then (amount.checkedMul price).getD .zero else p.receive := by
  cases side with
  | buy => exact ⟨rfl, rfl⟩
  | sell => exact ⟨rfl, rfl⟩

end

/-- The order that is told of one that was taken has the requested amount as an amount of the coin.
It was sent as an amount of the coin too, unless a market buy sent it as one of another base. -/
theorem counted_as_sent_iff (s : Settings) (now : Instant) (transport : Transport) (side : Side)
    (r : TradeRequest) (q : Http.Request) (reply : Http.Response) (p : Placement)
    (sent : sentBy s now transport (placement side r) = [q])
    (answered : transport [q] = .ok reply) (accepts : Accepts reply p) :
    ∃ pair payload result o, Pair.parse r.pair = .ok pair ∧ q.body = some payload ∧
      (sizedAsset side r.method pair ∉ ["method", "nonce"] →
        Entries.find? (sizedAsset side r.method pair) (Form.decode payload) =
          some r.amount.text) ∧
      (((placement side r).call s now).run transport).2 = .ok result ∧ result.order = some o ∧
      o.amountCoin = r.amount ∧
      o.amountBase =
        (if side = .buy then (r.amount.checkedMul r.price).getD .zero else p.receive) ∧
      (o.CountsIn pair (sizedAsset side r.method pair) r.amount ↔
        ¬(side = .buy ∧ r.method = .market ∧ pair.base ≠ pair.coin)) := by
  have hmem : q ∈ sentBy s now transport (placement side r) := by
    rw [sent]
    exact List.mem_singleton_self q
  obtain ⟨pair, payload, hpair, -, -, hbody, htells⟩ := placement_told hmem
  obtain ⟨hcoin, hbase⟩ := toOrder_amounts p side r.method r.amount r.price
  refine ⟨pair, payload, _, _, hpair, hbody, size_found htells,
    placement_result sent answered accepts, rfl, hcoin, hbase, ?_⟩
  rw [Order.countsIn_iff hcoin, ← sizedAsset_ne_coin_iff, not_not]

/-- A market ask: what is sold is counted in the coin, as it was sent. -/
theorem market_ask_counted_as_sent :
    let s : Settings := { token := "my-key", secret := "secr3t" }
    let amount : Decimal := ⟨false, 500, 0, by decide, by decide⟩
    let receive : Decimal := ⟨false, 1, 2, by decide, by decide⟩
    let r : TradeRequest := { pair := "ten_btc", method := .market, amount := amount }
    let pair : Pair := ⟨"ten", "btc", by decide, by decide, by decide, by decide⟩
    let now : Instant := ⟨1574423788000⟩
    let reply : Http.Response := ⟨200, "\x7b\"success\":1,\"return\":" ++
      "\x7b\"receive_btc\":\"0.01\",\"sold_ten\":\"500\",\"order_id\":57\x7d\x7d"⟩
    ∃ q result o, sentBy s now (fun _ => .ok reply) (placement .sell r) = [q] ∧
      (((placement .sell r).call s now).run fun _ => .ok reply).2 = .ok result ∧
      result.order = some o ∧ o.amountBase = receive ∧ o.CountsIn pair "ten" amount := by
  intro s amount receive r pair now reply
  let p : Placement :=
    { orderId := 57, receiveAsset := "btc", receive := receive, filledAsset := "ten",
      filled := amount }
  have haccepts : Accepts reply p := accepts_of_toOption (by decide) (by decide +kernel)
  have hplanned : (placement .sell r).plan.toOption.isSome = true := by decide +kernel
  obtain ⟨_, q, payload, hpair, hsent, -⟩ := placement_sent (s := s) (by decide) hplanned now
  have hparsed : Pair.parse r.pair = .ok pair := by decide +kernel
  obtain ⟨_, _, result, o, hpair', -, -, hresult, horder, -, hbase, hcounts⟩ :=
    counted_as_sent_iff s now (fun _ => .ok reply) .sell r q reply p (hsent _) rfl haccepts
  cases hparsed.symm.trans hpair'
  exact ⟨q, result, o, hsent _, hresult, horder, hbase, hcounts.2 (by decide)⟩

/-- A market buy: what is spent was sent as an amount of the base and is told as one of the coin. -/
theorem market_bid_counted_in_coin :
    ¬∀ (s : Settings) (now : Instant) (transport : Transport) (side : Side) (r : TradeRequest)
      (q : Http.Request) (reply : Http.Response) (p : Placement) (pair : Pair)
      (result : TradeResult) (o : ExchangeClient.Order),
        sentBy s now transport (placement side r) = [q] → transport [q] = .ok reply →
        Accepts reply p → Pair.parse r.pair = .ok pair →
        (((placement side r).call s now).run transport).2 = .ok result → result.order = some o →
          o.CountsIn pair (sizedAsset side r.method pair) r.amount := by
  intro claimed
  let s : Settings := { token := "my-key", secret := "secr3t" }
  let amount : Decimal := ⟨false, 1, 2, by decide, by decide⟩
  let receive : Decimal := ⟨false, 800, 0, by decide, by decide⟩
  let r : TradeRequest := { pair := "ten_btc", method := .market, amount := amount }
  let reply : Http.Response := ⟨200, "\x7b\"success\":1,\"return\":" ++
    "\x7b\"receive_ten\":\"800\",\"spend_btc\":\"0.01\",\"order_id\":56\x7d\x7d"⟩
  let p : Placement :=
    { orderId := 56, receiveAsset := "ten", receive := receive, filledAsset := "btc",
      filled := amount }
  have haccepts : Accepts reply p := accepts_of_toOption (by decide) (by decide +kernel)
  have hplanned : (placement .buy r).plan.toOption.isSome = true := by decide +kernel
  obtain ⟨pair, q, payload, hpair, hsent, -⟩ :=
    placement_sent (s := s) (by decide) hplanned ⟨1574423788000⟩
  have hparsed : Pair.parse r.pair =
      .ok ⟨"ten", "btc", by decide, by decide, by decide, by decide⟩ := by decide +kernel
  cases hparsed.symm.trans hpair
  have hresult := placement_result (hsent fun _ => .ok reply) rfl haccepts
  have hcounts := claimed s _ _ .buy r q reply p _ _ _ (hsent _) rfl haccepts hpair hresult rfl
  have hcoin := (Order.countsIn_iff (toOrder_amounts p .buy r.method r.amount r.price).1).1 hcounts
  exact absurd hcoin (by decide)

end TradeApi
end ExchangeClient
