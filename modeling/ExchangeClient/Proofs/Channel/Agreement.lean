import ExchangeClient.Channel.Private
import ExchangeClient.Proofs.Channel.Subscriptions
import ExchangeClient.Proofs.Channel.Wording
import ExchangeClient.Proofs.Json.Members
import ExchangeClient.Proofs.Sending

/-!
# Asking over HTTP or over a channel

Whatever a channel offers besides subscriptions can be asked over HTTP as well.
The arguments are checked and written once for each way. The ways agree on a call
if both refuse it for the same reason or send it and say the same. They do so
except where a check or a bound of one way is missing on the other, and where two
checks are made in another order.
-/

namespace ExchangeClient.Channel

open Json

/-! ## Operations of the channels -/

/-- An operation of the public or of the private channel. -/
inductive ChannelOperation (α : Type) where
  | market (op : PublicOperation α)
  | user (op : PrivateOperation α)

namespace ChannelOperation

variable {α σ : Type}

/-- The operation of a channel that asks for the same as one over HTTP, if there is one. -/
def ofRest? : RestApi.Operation α → Option (ChannelOperation α)
  | .marketDepths pair => some (.market (.marketDepths pair))
  | .marketPrices => some (.market .marketPrices)
  | .marketTicker pair => some (.market (.marketTicker pair))
  | .marketTrades pair offset limit => some (.market (.marketTrades pair offset limit))
  | .userInfo => some (.user .userInfo)
  | .userOrdersOpen pair => some (.user (.userOrdersOpen pair))
  | .userOrderInfo pair tradeId => some (.user (.userOrderInfo pair tradeId))
  | .tradeAsk request => some (.user (.tradeAsk request))
  | .tradeBid request => some (.user (.tradeBid request))
  | .tradeCancel trade => some (.user (.tradeCancel trade))
  | .tradeCancelAll => some (.user .tradeCancelAll)
  | .tradeCancelAsk pair tradeId => some (.user (.tradeCancelAsk pair tradeId))
  | .tradeCancelBid pair tradeId => some (.user (.tradeCancelBid pair tradeId))
  | _ => none

/-- What is asked, given the remembered subscription; nothing if memory answers. -/
def plan (held : Subscription) : ChannelOperation α → Except RequestError (Option Ask)
  | .market op => op.plan held
  | .user op => op.plan.map fun p => some p.ask

/-- The outcome of an operation, and the peer after it. -/
def call (send : σ → Ask → Outcome ReplyFrame × σ) (held : Subscription) (peer : σ) :
    ChannelOperation α → Outcome α × σ
  | .market op => let (outcome, _, peer) := op.call send held peer; (outcome, peer)
  | .user op => op.call send peer

variable {send : σ → Ask → Outcome ReplyFrame × σ} {held : Subscription} {peer : σ}
  {op : ChannelOperation α}

theorem call_refused {e : RequestError} (refused : op.plan held = .error e) :
    op.call send held peer = (.error (.request e), peer) := by
  cases op with
  | market op =>
    simp only [plan] at refused
    simp only [call, PublicOperation.call, refused]
  | user op =>
    have hplan : op.plan = .error e := Except.map_eq_error.1 refused
    simp only [call, PrivateOperation.call, hplan]

theorem call_remembered (remembered : op.plan held = .ok none) :
    ∃ v, op.call send held peer = (.ok v, peer) := by
  cases op with
  | market op =>
    simp only [plan] at remembered
    exact ⟨op.remembered held, by simp only [call, PublicOperation.call, remembered]⟩
  | user op =>
    obtain ⟨p, -, hnone⟩ := Except.map_eq_ok.1 remembered
    cases hnone

theorem call_asked {a : Ask} (asked : op.plan held = .ok (some a)) :
    (op.call send held peer).2 = (send peer a).2 := by
  cases op with
  | market op =>
    simp only [plan] at asked
    simp only [call, PublicOperation.call, asked]
    cases op.conclude (send peer a).1 with
    | error e => rfl
    | ok v => rfl
  | user op =>
    obtain ⟨p, hplan, hask⟩ := Except.map_eq_ok.1 asked
    cases hask
    simp only [call, PrivateOperation.call, hplan]

end ChannelOperation

/-- A call agrees with one of a channel: both are refused for the same reason, whatever the other
side would do, or both send one request, to the same target, and say the same. -/
inductive Agreement {α : Type} (s : Settings) (now : Instant) (op : RestApi.Operation α)
    (c : ChannelOperation α) : Prop where
  | refused (e : RequestError)
    (overHttp : ∀ transport, (op.call s now).run transport = ([], .error (.request e)))
    (overChannel : ∀ {σ : Type} (send : σ → Ask → Outcome ReplyFrame × σ) (held : Subscription)
      (peer : σ), c.call send held peer = (.error (.request e), peer))
  | sent (r : Http.Request) (a : Ask) (payload : String)
    (overHttp : ∀ transport, ((op.call s now).run transport).1 = [r])
    (overChannel : ∀ {σ : Type} (send : σ → Ask → Outcome ReplyFrame × σ) (held : Subscription)
      (peer : σ), (c.call (recording send) held (peer, [])).2.2 = [⟨a, (send peer a).1⟩])
    (bare : { r with headers := [] } = .carrying a.method s.address a.target payload)
    (same : SayTheSame a.members (Form.decode payload))

/-- Arguments that are checked and bounded alike for both ways. An offset is bounded over HTTP only,
where also the pair of open orders and the number of an order are checked; and a trade without pair
and side lacks the side over HTTP and the pair over the channel. -/
def Uniform {α : Type} : RestApi.Operation α → Prop
  | .marketTrades pair offset _ => pair = "" ∨ 0 ≤ offset
  | .userOrdersOpen pair => pair ≠ ""
  | .userOrderInfo pair tradeId => pair = "" ∨ 0 < tradeId
  | .tradeCancel trade => trade.id ≤ 0 ∨ trade.pair ≠ "" ∨ trade.side ≠ none
  | _ => True

/-! ## Plans -/

/-- But for its headers a request is what its plan says, and its payload says the parameters. -/
theorem exists_bare_request {s : Settings} (known : s.token ≠ "" ∧ s.secret ≠ "") (now : Instant)
    (p : RestApi.Plan) :
    ∃ r payload, p.request s now = .ok r ∧
      { r with headers := [] } = Http.Request.carrying p.method s.address p.path payload ∧
      ((Form.decode payload).map (·.1)).Nodup ∧
      ((Form.decode payload).filter fun q => q.1 != Freshness.timestamp.param) =
        p.params.entries.filter fun q => q.1 != Freshness.timestamp.param := by
  cases hprivate : p.isPrivate with
  | true =>
    obtain ⟨payload, hsign⟩ := Credentials.exists_sign
      (Credentials.isConfigured_iff.2 known : s.credentials.isConfigured = true)
      p.params .timestamp now
    have hstamped : Stamped .timestamp now p.params payload := by
      have hpayload : payload = _ := (s.credentials.sign_ok hsign).2.1
      rw [hpayload]
      exact stamped_ofParams .timestamp now p.params
    let signed : SignedPayload :=
      ⟨payload, s.credentials.key, Digest.sign payload s.credentials.secret⟩
    refine ⟨(Http.Request.carrying p.method s.address p.path payload).withHeaders signed.headers,
      payload, ?_, Http.Request.carrying_bare _ _ _ _ _, ?_, hstamped.others⟩
    · rw [RestApi.Plan.request, if_pos hprivate, hsign]
      rfl
    · rw [hstamped.decodes]
      exact Dictionary.keys_distinct _
  | false =>
    have hdecode := Form.decode_ofParams p.params
    refine ⟨Http.Request.carrying p.method s.address p.path (Form.ofParams p.params),
      Form.ofParams p.params, ?_, Http.Request.carrying_bare _ _ _ _ [], ?_, ?_⟩
    · rw [RestApi.Plan.request, hprivate, if_neg Bool.false_ne_true]
    · rw [hdecode]
      exact Dictionary.keys_distinct _
    · rw [hdecode]

/-- Plans of a call for both ways: none, for one reason, or two that say the same in rows. -/
inductive PlannedAlike : Except RequestError RestApi.Plan → Except RequestError (Option Ask) →
    Prop where
  | refused (e : RequestError) : PlannedAlike (.error e) (.error e)
  | sent {p : RestApi.Plan} {a : Ask} (rows : List Row) (method : p.method = a.method)
    (target : p.path = a.target) (frame : a.members = Row.frame rows)
    (form : p.params = Row.form rows) (matching : Row.Matching rows) :
    PlannedAlike (.ok p) (.ok (some a))

section

variable {α : Type} {s : Settings} {now : Instant} {op : RestApi.Operation α}
  {c : ChannelOperation α}

theorem rest_refused {e : RequestError} (refused : op.plan = .error e) (transport : Transport) :
    (op.call s now).run transport = ([], .error (.request e)) := by
  rw [op.call_planned]
  exact Conversation.run_of_refused refused transport

theorem rest_sent {p : RestApi.Plan} {r : Http.Request} (planned : op.plan = .ok p)
    (made : p.request s now = .ok r) (transport : Transport) :
    ((op.call s now).run transport).1 = [r] := by
  rw [op.call_planned, Conversation.run_of_sent planned made]

theorem agreement_of_plans (known : s.token ≠ "" ∧ s.secret ≠ "")
    {asked : Except RequestError (Option Ask)} (hasked : ∀ held, c.plan held = asked)
    (alike : PlannedAlike op.plan asked) : Agreement s now op c := by
  cases hplan : op.plan with
  | error e =>
    rw [hplan] at alike
    cases alike
    apply Agreement.refused e
    · exact rest_refused hplan
    · intro σ send held peer
      exact ChannelOperation.call_refused (hasked held)
  | ok p =>
    rw [hplan] at alike
    cases alike with | @sent _ a rows hmethod htarget hframe hform hmatching =>
    obtain ⟨r, payload, hrequest, hbare, honce, hstamped⟩ := exists_bare_request known now p
    rw [hmethod, htarget] at hbare
    rw [hform] at hstamped
    refine Agreement.sent r a payload ?_ ?_ hbare ?_
    · exact rest_sent hplan hrequest
    · intro σ send held peer
      rw [ChannelOperation.call_asked (hasked held)]
      rfl
    · rw [hframe]
      exact hmatching.say_the_same honce hstamped

/-- Where calls agree, one is refused for the reason of the other. -/
theorem Agreement.refused_alike (agreement : Agreement s now op c) {e : RequestError}
    (refused : op.plan = .error e) (held : Subscription) : c.plan held = .error e := by
  have hrun : (op.call s now).run _ = _ := rest_refused refused fun _ => .error .timeout
  cases agreement with
  | sent r a payload overHttp =>
    have hone := overHttp fun _ => .error .timeout
    rw [hrun] at hone
    cases hone
  | refused e' overHttp overChannel =>
    cases hrun.symm.trans (overHttp fun _ => .error .timeout)
    have hcall := overChannel (recording fun (u : Unit) _ => (.error .timeout, u)) held ((), [])
    cases hplan : c.plan held with
    | error e' =>
      rw [ChannelOperation.call_refused hplan] at hcall
      cases hcall
      rfl
    | ok asked =>
      cases asked with
      | none =>
        obtain ⟨v, hv⟩ := ChannelOperation.call_remembered hplan
        cases hv.symm.trans hcall
      | some a => cases (ChannelOperation.call_asked hplan).symm.trans (congrArg Prod.snd hcall)

/-- Where calls agree, the parameters of a request that is not signed are those of the frame. -/
theorem Agreement.said_alike (agreement : Agreement s now op c) {p : RestApi.Plan} {a : Ask}
    (planned : op.plan = .ok p) (plain : p.isPrivate = false) {held : Subscription}
    (asked : c.plan held = .ok (some a)) (method : p.method = a.method)
    (target : p.path = a.target) : SayTheSame a.members p.params.entries := by
  have hmade : p.request s now =
      .ok (.carrying p.method s.address p.path (Form.ofParams p.params)) := by
    rw [RestApi.Plan.request, plain, if_neg Bool.false_ne_true]
  have hsent := rest_sent planned hmade fun _ => .error .timeout
  cases agreement with
  | refused e overHttp =>
    cases hsent.symm.trans (congrArg Prod.fst (overHttp fun _ => .error .timeout))
  | sent r a' payload overHttp overChannel bare same =>
    cases hsent.symm.trans (overHttp fun _ => .error .timeout)
    have hcall := overChannel (fun (u : Unit) _ => (.error .timeout, u)) held ()
    rw [ChannelOperation.call_asked asked] at hcall
    cases hcall
    have hbare := Http.Request.carrying_bare p.method s.address p.path (Form.ofParams p.params) []
    have hpayload : Form.ofParams p.params = payload := by
      rw [← method, ← target] at bare
      exact Http.Request.carrying_inj (hbare.symm.trans bare)
    rw [← hpayload, Form.decode_ofParams] at same
    exact same

end

/-! ## Each operation -/

theorem pairParams_alike (pair : String) :
    (∃ e, ExchangeClient.pairParams pair = .error e ∧ pairParams pair = .error e) ∨
    pair ≠ "" ∧ ExchangeClient.pairParams pair = .ok (.ofList [("pair", pair)]) ∧
      pairParams pair = .ok (.forPair pair) := by
  rw [ExchangeClient.pairParams, pairParams]
  by_cases hempty : pair.isEmpty
  · rw [if_pos hempty, if_pos hempty]
    exact Or.inl ⟨_, rfl, rfl⟩
  · rw [if_neg hempty, if_neg hempty]
    exact Or.inr ⟨mt String.isEmpty_iff.2 hempty, rfl, rfl⟩

theorem tradeParams_given {pair : String} {tradeId : Int64} (given : pair ≠ "") :
    RestApi.tradeParams pair tradeId = if tradeId ≤ 0 then .error .invalidTradeId else
      .ok (.ofList [("pair", pair), ("trade_id", intParam tradeId)]) := by
  rw [RestApi.tradeParams, ExchangeClient.pairParams, if_neg (mt String.isEmpty_iff.1 given)]
  by_cases hlow : tradeId ≤ 0
  · rw [if_pos hlow]
    show (if tradeId ≤ 0 then _ else _) = _
    rw [if_pos hlow]
    rfl
  · rw [if_neg hlow]
    show (if tradeId ≤ 0 then _ else _) = _
    rw [if_neg hlow]
    rfl

section

variable {α : Type} {op : RestApi.Operation α} {c : ChannelOperation α}

/-- What can be asked over HTTP too is not answered from memory. -/
theorem plan_held (offered : ChannelOperation.ofRest? op = some c) (held : Subscription) :
    c.plan held = c.plan {} := by
  cases op with
  | authenticate | marketInfo | marketTradesOpen | marketSummaries | userTrades | userOrdersClosed
  | userTransactions | userWithdraw => cases offered
  | _ =>
    cases offered
    rfl

theorem cancelPlan_alike (side : Side) (pair : String) (tradeId : Int64) :
    PlannedAlike (RestApi.Operation.cancelPlan side pair tradeId)
      ((PrivateOperation.cancelPlan side pair tradeId).map fun p => some p.ask) := by
  rw [RestApi.Operation.cancelPlan, PrivateOperation.cancelPlan, tradeParams]
  by_cases hempty : pair = ""
  · rw [hempty]
    exact .refused .invalidPair
  · rw [tradeParams_given hempty, if_neg (mt String.isEmpty_iff.1 hempty)]
    by_cases hlow : tradeId ≤ 0
    · rw [if_pos hlow, if_pos hlow]
      exact .refused .invalidTradeId
    · rw [if_neg hlow, if_neg hlow]
      have hmatching := tradeRows_matching hempty (Int64.not_le.1 hlow)
      cases side with
      | sell => exact .sent _ rfl rfl rfl rfl hmatching
      | buy => exact .sent _ rfl rfl rfl rfl hmatching

/-- Uniform arguments are planned alike for both ways. -/
theorem planned_alike (offered : ChannelOperation.ofRest? op = some c) (uniform : Uniform op) :
    PlannedAlike op.plan (c.plan {}) := by
  cases op with
  | authenticate | marketInfo | marketTradesOpen | marketSummaries | userTrades | userOrdersClosed
  | userTransactions | userWithdraw => cases offered
  | marketPrices | userInfo | tradeCancelAll =>
    cases offered
    exact .sent [] rfl rfl rfl rfl ⟨by decide, by simp⟩
  | marketDepths pair | marketTicker pair =>
    cases offered
    show PlannedAlike (ExchangeClient.pairParams pair >>= _) (pairParams pair >>= _)
    rcases pairParams_alike pair with ⟨e, hform, hframe⟩ | ⟨hpair, hform, hframe⟩
    · rw [hform, hframe]
      exact .refused e
    · rw [hform, hframe]
      exact .sent (pairRows pair) rfl rfl rfl rfl (pairRows_matching hpair)
  | marketTrades pair offset limit =>
    cases offered
    show PlannedAlike (ExchangeClient.pairParams pair >>= _) (pairParams pair >>= _)
    rcases pairParams_alike pair with ⟨e, hform, hframe⟩ | ⟨hpair, hform, hframe⟩
    · rw [hform, hframe]
      exact .refused e
    · -- only the form bounds the offset
      rw [hform, hframe]
      exact .sent (listingRows pair offset limit) rfl rfl rfl (listingRows_form pair offset limit)
        (listingRows_matching hpair (uniform.resolve_left hpair) limit)
  | userOrdersOpen pair =>
    cases offered
    -- only the form has its pair checked
    show PlannedAlike (ExchangeClient.pairParams pair >>= _) (.ok (some _))
    rw [ExchangeClient.pairParams, if_neg (mt String.isEmpty_iff.1 uniform)]
    exact .sent (pairRows pair) rfl rfl rfl rfl (pairRows_matching uniform)
  | userOrderInfo pair tradeId =>
    cases offered
    by_cases hempty : pair = ""
    · rw [hempty]
      exact .refused .invalidPair
    · -- only the form has its number checked
      have hpositive := uniform.resolve_left hempty
      show PlannedAlike (RestApi.tradeParams pair tradeId >>= _)
        (Except.map _ (if pair.isEmpty then _ else _))
      rw [tradeParams_given hempty, if_neg (Int64.not_le.2 hpositive),
        if_neg (mt String.isEmpty_iff.1 hempty)]
      exact .sent _ rfl rfl rfl rfl (tradeRows_matching hempty hpositive)
  | tradeAsk request | tradeBid request =>
    cases offered
    show PlannedAlike (request.pack >>= _) ((request.pack >>= _).map _)
    cases hpack : request.pack with
    | error e => exact .refused e
    | ok packed =>
      obtain ⟨form, params⟩ := packed
      obtain ⟨hcheck, rfl, rfl⟩ := TradeRequest.pack_ok hpack
      exact .sent (orderRows request) rfl rfl (orderRows_frame request) rfl
        (orderRows_matching hcheck)
  | tradeCancel trade =>
    cases offered
    show PlannedAlike (if trade.id ≤ 0 then _ else _)
      (Except.map _ (if trade.id ≤ 0 then _ else if trade.pair.isEmpty then _ else _))
    by_cases hlow : trade.id ≤ 0
    · rw [if_pos hlow, if_pos hlow]
      exact .refused .invalidTradeId
    · rw [if_neg hlow, if_neg hlow]
      by_cases hempty : trade.pair = ""
      · -- the channel misses the pair before it looks at the side
        have hside := (uniform.resolve_left hlow).resolve_left (not_not.2 hempty)
        obtain ⟨side, hsome⟩ := Option.ne_none_iff_exists'.1 hside
        rw [hsome, hempty]
        exact .refused .invalidPair
      · rw [if_neg (mt String.isEmpty_iff.1 hempty)]
        cases trade.side with
        | some side => exact cancelPlan_alike side trade.pair trade.id
        | none => exact .refused .invalidTradeType
  | tradeCancelAsk pair tradeId =>
    cases offered
    exact cancelPlan_alike .sell pair tradeId
  | tradeCancelBid pair tradeId =>
    cases offered
    exact cancelPlan_alike .buy pair tradeId

end

/-! ## Where the ways part -/

section

variable {α : Type} {s : Settings} {now : Instant}

/-- An offset below zero is sent to the channel as it is, and over HTTP as zero. -/
theorem negative_offset_disagrees {pair : String} {offset limit : Int64} (given : pair ≠ "")
    (negative : offset < 0) :
    ¬Agreement s now (.marketTrades pair offset limit)
      (.market (.marketTrades pair offset limit)) := by
  intro agreement
  have hplan : (RestApi.Operation.marketTrades pair offset limit).plan =
      .ok (.plain "market_trades" "/v2/market/trades"
        (Row.form (listingRows pair offset limit))) := by
    show ExchangeClient.pairParams pair >>= _ = _
    rw [ExchangeClient.pairParams, if_neg (mt String.isEmpty_iff.1 given), ← listingRows_form]
    rfl
  have hasked : (ChannelOperation.market (.marketTrades pair offset limit)).plan {} =
      .ok (some ⟨.get, "/v2/market/trades", some { Params.forPair pair with offset, limit }⟩) := by
    show pairParams pair >>= _ = _
    rw [pairParams, if_neg (mt String.isEmpty_iff.1 given)]
    rfl
  exact negative_offset_said_differently negative (agreement.said_alike hplan rfl hasked rfl rfl)

/-- Ways that agree on a call were given uniform arguments. -/
theorem Agreement.uniform {op : RestApi.Operation α} {c : ChannelOperation α}
    (agreement : Agreement s now op c) (offered : ChannelOperation.ofRest? op = some c) :
    Uniform op := by
  cases op with
  | marketTrades pair offset limit =>
    cases offered
    by_contra hnot
    obtain ⟨hpair, hoffset⟩ := not_or.1 hnot
    exact negative_offset_disagrees hpair (Int64.not_le.1 hoffset) agreement
  | userOrdersOpen pair =>
    cases offered
    rintro rfl
    have hplan : (RestApi.Operation.userOrdersOpen "").plan = .error .invalidPair := rfl
    cases agreement.refused_alike hplan {}
  | userOrderInfo pair tradeId =>
    cases offered
    by_contra hnot
    obtain ⟨hpair, hlow⟩ := not_or.1 hnot
    have hplan : (RestApi.Operation.userOrderInfo pair tradeId).plan = .error .invalidTradeId := by
      show RestApi.tradeParams pair tradeId >>= _ = _
      rw [tradeParams_given hpair, if_pos (Int64.not_lt.1 hlow)]
      rfl
    have hasked := agreement.refused_alike hplan {}
    simp only [ChannelOperation.plan, PrivateOperation.plan,
      if_neg (mt String.isEmpty_iff.1 hpair)] at hasked
    cases hasked
  | tradeCancel trade =>
    cases offered
    by_contra hnot
    obtain ⟨hpositive, hrest⟩ := not_or.1 hnot
    obtain ⟨hpair, hside⟩ := not_or.1 hrest
    have hplan : (RestApi.Operation.tradeCancel trade).plan = .error .invalidTradeType := by
      rw [RestApi.Operation.plan, if_neg hpositive, not_not.1 hside]
    have hasked := agreement.refused_alike hplan {}
    simp only [ChannelOperation.plan, PrivateOperation.plan, if_neg hpositive,
      not_not.1 hpair] at hasked
    cases hasked
  | _ => trivial

end

/-- With credentials, what can be asked both over HTTP and over a channel is refused for the same
reason or sent to say the same, exactly where its arguments are uniform. -/
theorem ways_agree_iff_uniform {α : Type} (s : Settings) (now : Instant) (op : RestApi.Operation α)
    (c : ChannelOperation α) (known : s.token ≠ "" ∧ s.secret ≠ "")
    (offered : ChannelOperation.ofRest? op = some c) : Agreement s now op c ↔ Uniform op := by
  constructor
  · intro agreement
    exact agreement.uniform offered
  · intro uniform
    exact agreement_of_plans known (plan_held offered) (planned_alike offered uniform)

/-- Trades from the first on are asked for alike. -/
theorem first_trades_asked_alike :
    let s : Settings := { token := "my-key", secret := "secr3t" }
    Agreement s ⟨1574423788000⟩ (.marketTrades "ten_btc" 0 10)
      (.market (.marketTrades "ten_btc" 0 10)) := by
  intro s
  exact (ways_agree_iff_uniform s _ _ _ (by decide) rfl).2 (Or.inr (by decide))

/-- An order with the number zero is refused over HTTP and asked for over the channel. -/
theorem order_zero_asked_over_channel :
    ¬∀ {α : Type} (s : Settings) (now : Instant) (op : RestApi.Operation α)
      (c : ChannelOperation α), s.token ≠ "" ∧ s.secret ≠ "" →
        ChannelOperation.ofRest? op = some c → Agreement s now op c := by
  intro claimed
  let s : Settings := { token := "my-key", secret := "secr3t" }
  have hagreement := claimed s ⟨1574423788000⟩ (.userOrderInfo "ten_btc" 0) _ (by decide) rfl
  have hplan : (RestApi.Operation.userOrderInfo "ten_btc" 0).plan = .error .invalidTradeId := rfl
  cases hagreement.refused_alike hplan {}

end ExchangeClient.Channel
