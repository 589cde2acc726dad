import ExchangeClient.Proofs.Signing.Requests

/-!
# What the trade API is told of a request

A withdrawal is told by its asset, address, memo, request id and canonical
amount. Its network is not among the parameters, and neither are the flags of an
order: calls that differ in these alone are the same conversation, so such a
constraint is dropped and not refused.
-/

namespace ExchangeClient.TradeApi

/-- What a request says, without the parameter that keeps it from being sent twice. -/
def sentParams (r : Http.Request) : List (String × String) :=
  (Form.decode r.payload).filter fun p => p.1 != Freshness.nonce.param

/-- The requests that an operation sends. -/
def sentBy {α : Type} (s : Settings) (now : Instant) (transport : Transport) (op : Operation α) :
    List Http.Request := ((op.call s now).run transport).1

section

variable {α : Type} {s : Settings} {now : Instant} {transport : Transport} {r : Http.Request}

/-- With credentials every accepted operation about the user is sent. -/
theorem exists_sent {op : Operation α} (configured : s.credentials.isConfigured = true)
    (hprivate : op.isPrivate = true) (accepted : op.plan.toOption.isSome = true) :
    ∃ r, r ∈ sentBy s now transport op := by
  obtain ⟨p, hp⟩ := Option.isSome_iff_exists.1 accepted
  obtain ⟨method, params, htarget⟩ :=
    Operation.plan_private hprivate (Except.toOption_eq_some.1 hp)
  obtain ⟨payload, hsign⟩ := Credentials.exists_sign configured (params.insert "method" method)
    .nonce now
  have hrequest : ∃ r, p.request s now = .ok r := by
    simp only [Plan.request, htarget, hsign]
    exact ⟨_, rfl⟩
  obtain ⟨r, hr⟩ := hrequest
  refine ⟨r, ?_⟩
  rw [sentBy, op.call_planned, Conversation.planned_requests, hp, Option.bind_some, hr]
  exact List.mem_singleton_self r

/-- A call of a method sends the parameters of its plan and the name of the method. -/
theorem sentParams_eq {op : Operation α} {method : String} {params : Form.Params}
    (planned : ∀ p, op.plan = .ok p → p.target = .method method params)
    (sent : r ∈ sentBy s now transport op) :
    sentParams r = (params.insert "method" method).entries.filter
      fun e => e.1 != Freshness.nonce.param := by
  rw [sentBy, op.call_planned] at sent
  obtain ⟨p, hplan, hrequest⟩ := Conversation.planned_requested sent
  obtain ⟨hpost, payload, htransmits, hstamped, -⟩ :=
    Plan.request_signed (planned p hplan) hrequest
  have hpayload : r.payload = payload := by
    rcases htransmits with ⟨-, -, hbody⟩ | ⟨hother, -, -⟩
    · rw [Http.Request.payload, hbody, Option.getD_some]
    · exact absurd hpost hother
  rw [sentParams, hpayload]
  exact hstamped.others

/-- A parameter of a plan is found in what is sent. -/
theorem find?_sentParams {op : Operation α} {method : String} {params : Form.Params}
    (planned : ∀ p, op.plan = .ok p → p.target = .method method params)
    (sent : r ∈ sentBy s now transport op) {k : String} (notMethod : "method" ≠ k)
    (notNonce : k ≠ "nonce") : Entries.find? k (sentParams r) = params.find? k := by
  have hfind := Dictionary.find?_insert params "method" method k
  rw [if_neg notMethod] at hfind
  rw [sentParams_eq planned sent, ← hfind]
  exact Entries.find?_filter_ne notNonce _

/-! ## Withdrawals -/

/-- The parameters of a withdrawal. -/
def withdrawalRows (q : WithdrawRequest) : List (String × String) :=
  [("currency", q.asset), ("withdraw_address", q.address), ("withdraw_amount", q.amount.text),
    ("withdraw_memo", q.memo), ("request_id", q.requestId)]

theorem userWithdraw_plan {q : WithdrawRequest} (p : Plan)
    (planned : (Operation.userWithdraw q).plan = .ok p) :
    p.target = .method "withdrawCoin" (.ofList (withdrawalRows q)) := by
  obtain ⟨params, hparams, hplan⟩ := Except.bind_eq_ok.1 planned
  obtain ⟨⟨⟩, -, hbuilt⟩ := Except.bind_eq_ok.1 hparams
  cases hbuilt
  cases hplan
  rfl

/-- Every parameter of a withdrawal is sent. -/
theorem withdrawal_found {q : WithdrawRequest} (sent : r ∈ sentBy s now transport (.userWithdraw q))
    {k v : String} (row : (k, v) ∈ withdrawalRows q) :
    Entries.find? k (sentParams r) = some v := by
  have hnames : ∀ name ∈ (withdrawalRows q).map (·.1), "method" ≠ name ∧ name ≠ "nonce" := by
    show ∀ name ∈ ["currency", "withdraw_address", "withdraw_amount", "withdraw_memo",
      "request_id"], "method" ≠ name ∧ name ≠ "nonce"
    decide
  have hdistinct : ((withdrawalRows q).map (·.1)).Nodup := by
    show ["currency", "withdraw_address", "withdraw_amount", "withdraw_memo", "request_id"].Nodup
    decide
  obtain ⟨hmethod, hnonce⟩ := hnames k (List.mem_map.2 ⟨_, row, rfl⟩)
  rw [find?_sentParams userWithdraw_plan sent hmethod hnonce]
  exact Dictionary.find?_ofList_of_mem hdistinct row

variable {s' : Settings} {now' : Instant} {transport' : Transport} {r' : Http.Request}

/-- Two withdrawals send the same exactly when they agree on all that is sent of them. -/
theorem withdrawals_told_apart {q q' : WithdrawRequest}
    (first : r ∈ sentBy s now transport (.userWithdraw q))
    (second : r' ∈ sentBy s' now' transport' (.userWithdraw q')) :
    sentParams r = sentParams r' ↔
      q.asset = q'.asset ∧ q.address = q'.address ∧ q.amount.text = q'.amount.text ∧
        q.memo = q'.memo ∧ q.requestId = q'.requestId := by
  constructor
  · intro same
    -- both have their rows in one order, under names that are found in what is sent
    have hrow : ∀ (i : ℕ) (k v v' : String), (withdrawalRows q)[i]? = some (k, v) →
        (withdrawalRows q')[i]? = some (k, v') → v = v' := by
      intro i k v v' hv hv'
      have hfound := withdrawal_found first (List.mem_of_getElem? hv)
      rw [same, withdrawal_found second (List.mem_of_getElem? hv')] at hfound
      exact (Option.some.inj hfound).symm
    exact ⟨hrow 0 _ _ _ rfl rfl, hrow 1 _ _ _ rfl rfl, hrow 2 _ _ _ rfl rfl,
      hrow 3 _ _ _ rfl rfl, hrow 4 _ _ _ rfl rfl⟩
  · rintro ⟨hasset, haddress, hamount, hmemo, hid⟩
    have hrows : withdrawalRows q = withdrawalRows q' := by
      simp only [withdrawalRows, hasset, haddress, hamount, hmemo, hid]
    rw [sentParams_eq userWithdraw_plan first, sentParams_eq userWithdraw_plan second, hrows]

end

/-! ## What is dropped -/

/-- Neither flag of an order has any influence on its placement. -/
theorem placement_flags_dropped (s : Settings) (now : Instant) (q : TradeRequest)
    (postOnly : Bool) (timeInForce : Option TimeInForce) :
    Operation.call s now (.tradeBid { q with postOnly, timeInForce }) =
        Operation.call s now (.tradeBid q) ∧
      Operation.call s now (.tradeAsk { q with postOnly, timeInForce }) =
        Operation.call s now (.tradeAsk q) := ⟨rfl, rfl⟩

/-- The network of a withdrawal has no influence on it. -/
theorem withdrawal_network_dropped (s : Settings) (now : Instant) (q : WithdrawRequest)
    (network : String) :
    Operation.call s now (.userWithdraw { q with network }) =
      Operation.call s now (.userWithdraw q) := rfl

/-- Placements are the same whatever their flags and withdrawals whatever their network; in all
else withdrawals are told apart by what is sent. -/
theorem constraints_kept_and_dropped (s : Settings) (now : Instant) :
    (∀ (q : TradeRequest) (postOnly : Bool) (timeInForce : Option TimeInForce),
      Operation.call s now (.tradeBid { q with postOnly, timeInForce }) =
          Operation.call s now (.tradeBid q) ∧
        Operation.call s now (.tradeAsk { q with postOnly, timeInForce }) =
          Operation.call s now (.tradeAsk q)) ∧
    (∀ (q : WithdrawRequest) (network : String),
      Operation.call s now (.userWithdraw { q with network }) =
        Operation.call s now (.userWithdraw q)) ∧
    ∀ (s' : Settings) (now' : Instant) (transport transport' : Transport)
      (q q' : WithdrawRequest) (r r' : Http.Request),
      r ∈ sentBy s now transport (.userWithdraw q) →
      r' ∈ sentBy s' now' transport' (.userWithdraw q') →
        (sentParams r = sentParams r' ↔
          q.asset = q'.asset ∧ q.address = q'.address ∧ q.amount.text = q'.amount.text ∧
            q.memo = q'.memo ∧ q.requestId = q'.requestId) := by
  refine ⟨placement_flags_dropped s now, withdrawal_network_dropped s now, ?_⟩
  intro s' now' transport transport' q q' r r' first second
  exact withdrawals_told_apart first second

/-- A withdrawal with a memo and one without. -/
theorem memos_told_apart :
    let s : Settings := { token := "my-key", secret := "secr3t" }
    let silent : Transport := fun _ => .error .timeout
    let one : Decimal := ⟨false, 1, 0, by decide, by decide⟩
    let q : WithdrawRequest := { requestId := "1", asset := "ten", address := "a", amount := one }
    ∃ r ∈ sentBy s ⟨1574423788000⟩ silent (.userWithdraw q),
      ∃ r' ∈ sentBy s ⟨1574423789000⟩ silent (.userWithdraw { q with memo := "m" }),
        sentParams r ≠ sentParams r' := by
  intro s silent one q
  refine ⟨_, List.mem_singleton_self _, _, List.mem_singleton_self _, ?_⟩
  intro same
  obtain ⟨-, -, -, hmemo, -⟩ := ((constraints_kept_and_dropped s ⟨1574423788000⟩).2.2 s
    ⟨1574423789000⟩ silent silent q { q with memo := "m" } _ _ (List.mem_singleton_self _)
    (List.mem_singleton_self _)).1 same
  exact absurd hmemo (by decide)

/-- An order that must not match at once is placed as one that may. -/
theorem post_only_dropped :
    ¬((∀ (s : Settings) (now now' : Instant) (transport : Transport) (q q' : TradeRequest)
        (r r' : Http.Request), q.postOnly ≠ q'.postOnly ∨ q.timeInForce ≠ q'.timeInForce →
        (r ∈ sentBy s now transport (.tradeBid q) →
          r' ∈ sentBy s now' transport (.tradeBid q') → sentParams r ≠ sentParams r') ∧
        (r ∈ sentBy s now transport (.tradeAsk q) →
          r' ∈ sentBy s now' transport (.tradeAsk q') → sentParams r ≠ sentParams r')) ∧
      ∀ (s : Settings) (now now' : Instant) (transport : Transport) (q q' : WithdrawRequest)
        (r r' : Http.Request),
        ¬(q.asset = q'.asset ∧ q.network = q'.network ∧ q.address = q'.address ∧
          q.memo = q'.memo ∧ q.requestId = q'.requestId ∧ q.amount.text = q'.amount.text) →
        r ∈ sentBy s now transport (.userWithdraw q) →
        r' ∈ sentBy s now' transport (.userWithdraw q') → sentParams r ≠ sentParams r') := by
  rintro ⟨placements, -⟩
  let s : Settings := { token := "my-key", secret := "secr3t" }
  let silent : Transport := fun _ => .error .timeout
  let one : Decimal := ⟨false, 1, 0, by decide, by decide⟩
  let q : TradeRequest := { pair := "ten_btc", amount := one, price := one }
  let flagged : TradeRequest := { q with postOnly := true }
  obtain ⟨r, hplain⟩ : ∃ r, r ∈ sentBy s ⟨1574423788000⟩ silent (.tradeBid q) :=
    exists_sent (by decide) rfl (by decide +kernel)
  have hflagged : r ∈ sentBy s ⟨1574423788000⟩ silent (.tradeBid flagged) := by
    rw [sentBy, (placement_flags_dropped s ⟨1574423788000⟩ q true none).1]
    exact hplain
  obtain ⟨bids, -⟩ := placements s ⟨1574423788000⟩ ⟨1574423788000⟩ silent q flagged r r
    (Or.inl (by decide))
  exact bids hplain hflagged rfl

end ExchangeClient.TradeApi
