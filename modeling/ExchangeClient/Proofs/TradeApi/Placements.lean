import ExchangeClient.Proofs.Sending
import ExchangeClient.Proofs.TradeApi.Constraints

/-!
# What the trade API is told of an order

The size of an order is sent under the name of an asset, next to parameters with
names of their own. All of them are told in full unless the asset is called like
one of the others: then of the two only the one that was put in later is sent,
and the order that is placed is not the one that was asked for.
-/

namespace ExchangeClient.TradeApi

/-- Placing an order on a side. -/
def placement : Side → TradeRequest → Operation TradeResult
  | .buy, r => .tradeBid r
  | .sell, r => .tradeAsk r

/-- The parameters of an order, in the order in which they are put together. -/
def orderRows (side : Side) (r : TradeRequest) (pair : Pair) : List (String × String) :=
  [("order_method", r.method.name), ("pair", pair.name), ("type", side.name)]
    ++ (r.limitPrice?.map fun price => ("price", price.text)).toList
    ++ [(sizedAsset side r.method pair, r.amount.text)]

/-- All that is to be sent of an order that is placed at a moment. -/
def placementRows (side : Side) (r : TradeRequest) (pair : Pair) (now : Instant) :
    List (String × String) :=
  orderRows side r pair ++ [("method", "trade")]
    ++ [("nonce", Digits.intText (Freshness.nonce.reading now))]

/-- The names of all parameters but the one that is named after an asset. -/
def fixedNames (m : Method) : List String :=
  ["order_method", "pair", "type"] ++ (if m = .limit then ["price"] else []) ++ ["method", "nonce"]

section

variable {side : Side} {r : TradeRequest} {pair : Pair} {now : Instant}

theorem fixedNames_distinct (m : Method) : (fixedNames m).Nodup := by
  cases m with
  | limit => decide
  | market => decide

theorem placementRows_distinct_iff :
    ((placementRows side r pair now).map (·.1)).Nodup ↔
      sizedAsset side r.method pair ∉ fixedNames r.method := by
  have hnames : (placementRows side r pair now).map (·.1) =
      (["order_method", "pair", "type"] ++ (if r.method = .limit then ["price"] else [])) ++
        sizedAsset side r.method pair :: ["method", "nonce"] := by
    by_cases hlimit : r.method = .limit
    · simp [placementRows, orderRows, TradeRequest.limitPrice?, hlimit]
    · simp [placementRows, orderRows, TradeRequest.limitPrice?, hlimit]
  rw [hnames, List.nodup_middle, List.nodup_cons]
  exact and_iff_left (fixedNames_distinct r.method)

/-- An asset has no underscore in its name. -/
theorem sizedAsset_plain (side : Side) (m : Method) (pair : Pair) :
    '_' ∉ (sizedAsset side m pair).toList := by
  cases m with
  | limit => exact pair.coin_plain
  | market =>
    cases side with
    | buy => exact pair.base_plain
    | sell => exact pair.coin_plain

theorem placement_plan {p : Plan} (planned : (placement side r).plan = .ok p) :
    ∃ pair, Pair.parse r.pair = .ok pair ∧
      p.target = .method "trade" (.ofList (orderRows side r pair)) := by
  have hparams : ∃ params, placementParams side r = .ok params ∧
      p.target = .method "trade" params := by
    cases side with
    | buy | sell =>
      obtain ⟨params, hparams, hplan⟩ := Except.bind_eq_ok.1 planned
      cases hplan
      exact ⟨params, hparams, rfl⟩
  obtain ⟨params, hparams, htarget⟩ := hparams
  obtain ⟨⟨⟩, -, hrest⟩ := Except.bind_eq_ok.1 hparams
  obtain ⟨pair, hpair, hbuilt⟩ := Except.bind_eq_ok.1 hrest
  cases hbuilt
  exact ⟨pair, hpair, htarget⟩

/-- What a body says of an order: of two parameters with one name the later one. -/
structure Tells (payload : String) (rows : List (String × String)) : Prop where
  distinct : ((Form.decode payload).map (·.1)).Nodup
  found : ∀ name, Entries.find? name (Form.decode payload) = Entries.find? name rows.reverse
  inFull : (Form.decode payload).Perm rows ↔ (rows.map (·.1)).Nodup

theorem tells_of_decode {payload : String} {rows : List (String × String)}
    (decoded : Form.decode payload = (Dictionary.ofList rows).entries) : Tells payload rows := by
  constructor
  · rw [decoded]
    exact Dictionary.keys_distinct _
  · intro name
    rw [decoded, ← Dictionary.find?_ofList]
    rfl
  · rw [decoded]
    exact Dictionary.entries_ofList_perm_iff

/-- An order that is sent goes to one place, in a body that tells its parameters. -/
theorem placement_told {s : Settings} {transport : Transport} {q : Http.Request}
    (sent : q ∈ sentBy s now transport (placement side r)) :
    ∃ pair payload, Pair.parse r.pair = .ok pair ∧ q.method = .post ∧
      q.url = s.tradeApiAddress ++ "/tapi" ∧ q.body = some payload ∧
      Tells payload (placementRows side r pair now) := by
  rw [sentBy, Operation.call_planned] at sent
  obtain ⟨p, hplan, hrequest⟩ := Conversation.planned_requested sent
  obtain ⟨pair, hpair, htarget⟩ := placement_plan hplan
  obtain ⟨hpost, payload, htransmits, hstamped, -⟩ := Plan.request_signed htarget hrequest
  have hrows : Form.decode payload =
      (Dictionary.ofList (placementRows side r pair now)).entries := by
    rw [hstamped.decodes, placementRows, Dictionary.ofList_append, Dictionary.ofList_append]
    rfl
  rcases htransmits with ⟨-, hurl, hbody⟩ | ⟨hother, -, -⟩
  · exact ⟨pair, payload, hpair, hpost, hurl, hbody, tells_of_decode hrows⟩
  · exact absurd hpost hother

/-- An accepted order is sent once, whatever the transport makes of it. -/
theorem placement_sent {s : Settings} (known : s.token ≠ "" ∧ s.secret ≠ "")
    (accepted : (placement side r).plan.toOption.isSome = true) (now : Instant) :
    ∃ pair q payload, Pair.parse r.pair = .ok pair ∧
      (∀ transport, sentBy s now transport (placement side r) = [q]) ∧
      q.method = .post ∧ q.url = s.tradeApiAddress ++ "/tapi" ∧ q.body = some payload ∧
      Tells payload (placementRows side r pair now) := by
  obtain ⟨p, hp⟩ := Option.isSome_iff_exists.1 accepted
  have hfit := (placement side r).plan_fit.1 ⟨p, Except.toOption_eq_some.1 hp⟩
  obtain ⟨q, hsent, -⟩ := ((placement side r).call_guarded s now).sent hfit fun _ => known
  have hmem : q ∈ sentBy s now (fun _ => .error .timeout) (placement side r) := by
    rw [sentBy, hsent]
    exact List.mem_singleton_self q
  obtain ⟨pair, payload, hpair, htold⟩ := placement_told hmem
  exact ⟨pair, q, payload, hpair, hsent, htold⟩

end

/-- An accepted order is sent once, as the form of its parameters, the method and the moment. No
name stands twice among them, and so they are told in full, exactly if the asset that sizes the
order is not called like another parameter; it is never called `order_method`. -/
theorem orders_told_or_overwritten (s : Settings) (now : Instant) (side : Side) (r : TradeRequest)
    (known : s.token ≠ "" ∧ s.secret ≠ "")
    (accepted : (placement side r).plan.toOption.isSome = true) :
    ∃ pair q payload, Pair.parse r.pair = .ok pair ∧
      (∀ transport, sentBy s now transport (placement side r) = [q]) ∧
      q.method = .post ∧ q.url = s.tradeApiAddress ++ "/tapi" ∧ q.body = some payload ∧
      Tells payload (placementRows side r pair now) ∧
      (((placementRows side r pair now).map (·.1)).Nodup ↔
        sizedAsset side r.method pair ∉ fixedNames r.method) ∧
      sizedAsset side r.method pair ≠ "order_method" := by
  obtain ⟨pair, q, payload, hpair, hsent, hpost, hurl, hbody, htells⟩ :=
    placement_sent known accepted now
  refine ⟨pair, q, payload, hpair, hsent, hpost, hurl, hbody, htells,
    placementRows_distinct_iff, ?_⟩
  intro hsame
  have hplain := sizedAsset_plain side r.method pair
  rw [hsame] at hplain
  exact hplain (by decide)

/-- A coin that is not called like a parameter. -/
theorem ten_told_in_full :
    let s : Settings := { token := "my-key", secret := "secr3t" }
    let one : Decimal := ⟨false, 1, 0, by decide, by decide⟩
    let r : TradeRequest := { pair := "ten_btc", amount := one, price := one }
    let pair : Pair := ⟨"ten", "btc", by decide, by decide, by decide, by decide⟩
    let now : Instant := ⟨1574423788000⟩
    ∃ q payload, sentBy s now (fun _ => .error .timeout) (placement .buy r) = [q] ∧
      q.body = some payload ∧ (Form.decode payload).Perm (placementRows .buy r pair now) := by
  intro s one r pair now
  obtain ⟨_, q, payload, hpair, hsent, -, -, hbody, htells, hdistinct, -⟩ :=
    orders_told_or_overwritten s now .buy r (by decide) (by decide +kernel)
  have hparsed : Pair.parse r.pair = .ok pair := by decide +kernel
  cases hparsed.symm.trans hpair
  exact ⟨q, payload, hsent _, hbody, htells.inFull.2 (hdistinct.2 (by decide))⟩

/-- A coin called price: its amount is sent as the price, and the price is not sent. -/
theorem price_overwritten :
    ¬∀ (s : Settings) (now : Instant) (transport : Transport) (side : Side) (r : TradeRequest)
      (pair : Pair) (q : Http.Request) (payload : String), s.token ≠ "" ∧ s.secret ≠ "" →
        Pair.parse r.pair = .ok pair → q ∈ sentBy s now transport (placement side r) →
        q.body = some payload →
          (Form.decode payload).Perm (placementRows side r pair now) ∧
            ((placementRows side r pair now).map (·.1)).Nodup := by
  intro claimed
  let s : Settings := { token := "my-key", secret := "secr3t" }
  let one : Decimal := ⟨false, 1, 0, by decide, by decide⟩
  let r : TradeRequest := { pair := "price_btc", amount := one, price := one }
  let pair : Pair := ⟨"price", "btc", by decide, by decide, by decide, by decide⟩
  have haccepted : (placement .buy r).plan.toOption.isSome = true := by decide +kernel
  have hparsed : Pair.parse r.pair = .ok pair := by decide +kernel
  obtain ⟨_, q, payload, hpair, hsent, -, -, hbody, htells⟩ :=
    placement_sent (s := s) (by decide) haccepted ⟨1574423788000⟩
  cases hparsed.symm.trans hpair
  have hmem : q ∈ sentBy s ⟨1574423788000⟩ (fun _ => .error .timeout) (placement .buy r) := by
    rw [hsent]
    exact List.mem_singleton_self q
  obtain ⟨hfull, -⟩ := claimed s _ _ _ r pair q payload (by decide) hpair hmem hbody
  exact placementRows_distinct_iff.1 (htells.inFull.1 hfull) (by decide)

end ExchangeClient.TradeApi
