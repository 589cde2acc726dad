import ExchangeClient.Proofs.Request.Fitness
import ExchangeClient.Proofs.Signing.Requests

/-!
# A call sends one request or none

Arguments are checked first, then a private call is signed, and only then
something is sent, once. So whoever gives unfit arguments or no credentials is
told so without the exchange being asked, and whatever comes back is not asked
for a second time.
-/

namespace ExchangeClient

/-- The names under which a failure is reported do not hide its cause. -/
theorem Outcome.duringAll_error {α : Type} (names : List String) (cause : ClientError) :
    ∃ e : ClientError, Outcome.duringAll names (.error cause : Outcome α) = .error e ∧
      e.root = cause.root := by
  induction names with
  | nil => exact ⟨cause, rfl, rfl⟩
  | cons name names ih =>
    obtain ⟨e, hsame, hroot⟩ := ih
    refine ⟨.during name e, ?_, hroot⟩
    show Outcome.during name (Outcome.duringAll names _) = _
    rw [hsame]
    rfl

theorem Outcome.duringAll_ok {α : Type} (names : List String) (a : α) :
    Outcome.duringAll names (.ok a) = .ok a := by
  rw [← Except.toOption_eq_some, Outcome.duringAll_toOption]
  rfl

namespace Conversation

variable {α π : Type}

/-- What a call sends and comes to, by the fitness of its arguments, by whether it is private and
by whether its caller is known. -/
structure Guarded (c : Conversation α) (fit : Prop) (isPrivate : Bool) (known : Prop) :
    Prop where
  atMostOne : ∀ transport, (c.run transport).1.length ≤ 1
  none_iff : ∀ transport, (c.run transport).1 = [] ↔ ¬fit ∨ isPrivate = true ∧ ¬known
  /-- Unfit arguments are refused whatever the transport would do. -/
  refused : ¬fit → ∃ e : RequestError, ∀ transport, c.run transport = ([], .error (.request e))
  /-- An unknown caller is told so whatever the transport would do. -/
  unknown : fit → isPrivate = true → ¬known →
    ∃ e : ClientError, e.root = .unauthenticated ∧ ∀ transport, c.run transport = ([], .error e)
  /-- The one request does not depend on the transport either. -/
  sent : fit → (isPrivate = true → known) →
    ∃ r : Http.Request, (∀ transport, (c.run transport).1 = [r]) ∧
      (isPrivate = false → r.headers = [])

section

variable {plan : Except RequestError π} {names : π → List String}
  {request : π → Outcome Http.Request} {conclude : π → Outcome Http.Response → Outcome α}
  {p : π}

theorem run_of_refused {e : RequestError} (refused : plan = .error e) (transport : Transport) :
    (planned plan names request conclude).run transport = ([], .error (.request e)) := by
  rw [refused]
  rfl

theorem run_of_unsigned {cause : ClientError} (fit : plan = .ok p)
    (unsigned : request p = .error cause) :
    ∃ e : ClientError, e.root = cause.root ∧ ∀ transport,
      (planned plan names request conclude).run transport = ([], .error e) := by
  obtain ⟨e, hsame, hroot⟩ := Outcome.duringAll_error (α := Http.Request) (names p) cause
  refine ⟨e, hroot, ?_⟩
  intro transport
  simp only [fit, planned, unsigned, hsame]
  rfl

theorem run_of_sent {r : Http.Request} (fit : plan = .ok p) (made : request p = .ok r)
    (transport : Transport) :
    (planned plan names request conclude).run transport = ([r], conclude p (transport [r])) := by
  simp only [fit, planned, made, Outcome.duringAll_ok]
  rfl

/-- The answer to the one request of a call is what the call makes its outcome of. -/
theorem outcome_of_answered {transport : Transport} {q : Http.Request}
    (sent : ((planned plan names request conclude).run transport).1 = [q]) :
    ∃ p, plan = .ok p ∧
      ((planned plan names request conclude).run transport).2 = conclude p (transport [q]) := by
  obtain ⟨p, hplan, hrequest⟩ := planned_requested (sent ▸ List.mem_singleton_self q)
  exact ⟨p, hplan, by rw [run_of_sent hplan hrequest]⟩

/-- A planned call that succeeds has sent the request of its plan and concludes from the answer. -/
theorem answered_of_success {transport : Transport} {a : α}
    (success : ((planned plan names request conclude).run transport).2 = .ok a) :
    ∃ p q, plan = .ok p ∧ ((planned plan names request conclude).run transport).1 = [q] ∧
      conclude p (transport [q]) = .ok a := by
  cases plan with
  | error e => cases success
  | ok p =>
    rw [planned] at success ⊢
    cases hrequest : Outcome.duringAll (names p) (request p) with
    | error e =>
      rw [hrequest] at success
      cases success
    | ok q =>
      rw [hrequest] at success
      exact ⟨p, q, rfl, rfl, success⟩

/-- A planned call is guarded if only its caller can keep its request from being made. -/
theorem planned_guarded {fit : Prop} {isPrivate : Bool} {known : Prop}
    (fitness : (∃ p, plan = .ok p) ↔ fit)
    (unknown : ∀ p, plan = .ok p → isPrivate = true → ¬known →
      request p = .error .unauthenticated)
    (made : ∀ p, plan = .ok p → (isPrivate = true → known) →
      ∃ r, request p = .ok r ∧ (isPrivate = false → r.headers = [])) :
    (planned plan names request conclude).Guarded fit isPrivate known := by
  have hrefused : ¬fit → ∃ e : RequestError, ∀ transport,
      (planned plan names request conclude).run transport = ([], .error (.request e)) := by
    intro hunfit
    cases hplan : plan with
    | error e => exact ⟨e, run_of_refused rfl⟩
    | ok p => exact absurd (fitness.1 ⟨p, hplan⟩) hunfit
  have hunknown : fit → isPrivate = true → ¬known → ∃ e : ClientError,
      e.root = .unauthenticated ∧ ∀ transport,
        (planned plan names request conclude).run transport = ([], .error e) := by
    intro hfit hprivate hstranger
    obtain ⟨p, hplan⟩ := fitness.2 hfit
    exact run_of_unsigned hplan (unknown p hplan hprivate hstranger)
  have hsent : fit → (isPrivate = true → known) → ∃ r : Http.Request,
      (∀ transport, ((planned plan names request conclude).run transport).1 = [r]) ∧
        (isPrivate = false → r.headers = []) := by
    intro hfit hknown
    obtain ⟨p, hplan⟩ := fitness.2 hfit
    obtain ⟨r, hmade, hplain⟩ := made p hplan hknown
    refine ⟨r, ?_, hplain⟩
    intro transport
    rw [run_of_sent hplan hmade]
  have hnone : ∀ transport, ((planned plan names request conclude).run transport).1 = [] ↔
      ¬fit ∨ isPrivate = true ∧ ¬known := by
    intro transport
    constructor
    · intro hnothing
      by_contra hgood
      obtain ⟨hfit, hknown⟩ := not_or.1 hgood
      obtain ⟨r, hone, -⟩ := hsent (not_not.1 hfit) fun hprivate =>
        not_not.1 fun hstranger => hknown ⟨hprivate, hstranger⟩
      rw [hone transport] at hnothing
      exact List.cons_ne_nil _ _ hnothing
    · intro hbad
      by_cases hfit : fit
      · obtain ⟨hprivate, hstranger⟩ := hbad.resolve_left (not_not.2 hfit)
        obtain ⟨e, -, hrun⟩ := hunknown hfit hprivate hstranger
        rw [hrun]
      · obtain ⟨e, hrun⟩ := hrefused hfit
        rw [hrun]
  refine ⟨?_, hnone, hrefused, hunknown, hsent⟩
  intro transport
  rw [planned_requests]
  cases plan.toOption.bind fun p => (request p).toOption with
  | none => exact Nat.zero_le 1
  | some r => exact Nat.le_refl 1

end

end Conversation

theorem Credentials.isConfigured_iff {c : Credentials} :
    c.isConfigured = true ↔ c.key ≠ "" ∧ c.secret ≠ "" := by
  rw [isConfigured, Bool.and_eq_true, Bool.not_eq_true', Bool.not_eq_true',
    isEmpty_eq_false_iff_ne, isEmpty_eq_false_iff_ne]

theorem Credentials.sign_unknown {c : Credentials} (unknown : ¬(c.key ≠ "" ∧ c.secret ≠ ""))
    (params : Form.Params) (f : Freshness) (now : Instant) :
    c.sign params f now = .error .unauthenticated := by
  rw [sign, signAt, if_neg (mt isConfigured_iff.1 unknown)]

/-! ## The exchange's own interface -/

namespace RestApi

variable {α : Type}

theorem Operation.plan_plain {β : Type} {x : Except RequestError β} {g : β → Form.Params}
    {name path : String} {p : Plan}
    (planned : (do pure (Plan.plain name path (g (← x)))) = Except.ok p) : p.isPrivate = false := by
  obtain ⟨params, -, hplan⟩ := Except.bind_eq_ok.1 planned
  cases hplan
  rfl

/-- An operation about the market plans a request that is not signed. -/
theorem Operation.plan_public {op : Operation α} {p : Plan} (hpublic : op.isPrivate = false)
    (planned : op.plan = .ok p) : p.isPrivate = false := by
  cases op with
  | authenticate | userInfo | userTrades | userOrdersClosed | userOrdersOpen | userOrderInfo
  | userTransactions | userWithdraw | tradeAsk | tradeBid | tradeCancel | tradeCancelAll
  | tradeCancelAsk | tradeCancelBid => cases hpublic
  | marketInfo | marketPrices | marketSummaries =>
    cases planned
    rfl
  | marketDepths pair | marketTradesOpen pair | marketTicker pair =>
    exact plan_plain (g := id) planned
  | marketTrades pair offset limit => exact plan_plain planned

theorem Plan.request_unknown {p : Plan} {s : Settings} (secure : p.isPrivate = true)
    (unknown : ¬(s.token ≠ "" ∧ s.secret ≠ "")) (now : Instant) :
    p.request s now = .error .unauthenticated := by
  have hsign : s.credentials.sign p.params .timestamp now = .error .unauthenticated :=
    Credentials.sign_unknown unknown _ _ _
  rw [request, if_pos secure, hsign]
  rfl

theorem Plan.exists_request {p : Plan} {s : Settings}
    (known : p.isPrivate = true → s.token ≠ "" ∧ s.secret ≠ "") (now : Instant) :
    ∃ r, p.request s now = .ok r ∧ (p.isPrivate = false → r.headers = []) := by
  cases hprivate : p.isPrivate with
  | true =>
    obtain ⟨payload, hsign⟩ := Credentials.exists_sign
      (Credentials.isConfigured_iff.2 (known hprivate) : s.credentials.isConfigured = true)
      p.params .timestamp now
    rw [request, if_pos hprivate, hsign]
    exact ⟨_, rfl, fun hpublic => absurd hpublic Bool.noConfusion⟩
  | false =>
    rw [request, hprivate, if_neg Bool.false_ne_true]
    exact ⟨_, rfl, fun _ => Http.Request.carrying_headers _ _ _ _⟩

theorem Operation.call_guarded (s : Settings) (now : Instant) (op : Operation α) :
    (op.call s now).Guarded op.Fit op.isPrivate (s.token ≠ "" ∧ s.secret ≠ "") := by
  rw [op.call_planned]
  apply Conversation.planned_guarded op.plan_fit
  · intro p hplan hprivate hstranger
    exact Plan.request_unknown (plan_private hprivate hplan) hstranger now
  · intro p hplan hknown
    cases hprivate : op.isPrivate with
    | true =>
      obtain ⟨r, hr, -⟩ := Plan.exists_request (p := p) (fun _ => hknown hprivate) now
      exact ⟨r, hr, fun hpublic => absurd hpublic Bool.noConfusion⟩
    | false =>
      have hplain := plan_public hprivate hplan
      obtain ⟨r, hr, hheaders⟩ := Plan.exists_request (s := s)
        (fun hsecure => absurd (hplain.symm.trans hsecure) Bool.false_ne_true) now
      exact ⟨r, hr, fun _ => hheaders hplain⟩

end RestApi

/-! ## The trade API -/

namespace TradeApi

variable {α : Type}

theorem Operation.plan_path {β : Type} {x : Except RequestError β} {names : List String}
    {path : String} {p : Plan}
    (planned : (do let _ ← x; pure ⟨names, .path path⟩) = Except.ok p) :
    ∃ path, p.target = .path path := by
  obtain ⟨_, -, hplan⟩ := Except.bind_eq_ok.1 planned
  cases hplan
  exact ⟨path, rfl⟩

/-- An operation about the market plans a call of a path, which is not signed. -/
theorem Operation.plan_public {op : Operation α} {p : Plan} (hpublic : op.isPrivate = false)
    (planned : op.plan = .ok p) : ∃ path, p.target = .path path := by
  cases op with
  | authenticate | userInfo | userOrder | userOrdersOpen | userOrdersClosed | userTrades
  | userTransactions | userWithdraw | tradeBid | tradeAsk | tradeCancelBid | tradeCancelAsk =>
    cases hpublic
  | marketSummaries | marketInfo =>
    cases planned
    exact ⟨_, rfl⟩
  | marketTicker pair | marketTrades pair | marketOrdersOpen pair => exact plan_path planned

theorem Operation.call_guarded (s : Settings) (now : Instant) (op : Operation α) :
    (op.call s now).Guarded op.Fit op.isPrivate (s.token ≠ "" ∧ s.secret ≠ "") := by
  rw [op.call_planned]
  apply Conversation.planned_guarded op.plan_fit
  · intro p hplan hprivate hstranger
    obtain ⟨method, params, htarget⟩ := plan_private hprivate hplan
    have hsign : s.credentials.sign (params.insert "method" method) .nonce now =
        .error .unauthenticated := Credentials.sign_unknown hstranger _ _ _
    simp only [Plan.request, htarget, hsign]
    rfl
  · intro p hplan hknown
    cases hprivate : op.isPrivate with
    | true =>
      obtain ⟨method, params, htarget⟩ := plan_private hprivate hplan
      obtain ⟨payload, hsign⟩ := Credentials.exists_sign
        (Credentials.isConfigured_iff.2 (hknown hprivate) : s.credentials.isConfigured = true)
        (params.insert "method" method) .nonce now
      simp only [Plan.request, htarget, hsign]
      exact ⟨_, rfl, fun hpublic => absurd hpublic Bool.noConfusion⟩
    | false =>
      obtain ⟨path, htarget⟩ := plan_public hprivate hplan
      simp only [Plan.request, htarget]
      exact ⟨_, rfl, fun _ => Http.Request.carrying_headers _ _ _ _⟩

/-- A call comes to what is read from the reply to its one request. -/
theorem Operation.outcome_of_reply {s : Settings} {now : Instant} {transport : Transport}
    {op : Operation α} {q : Http.Request} {r : Http.Response}
    (sent : ((op.call s now).run transport).1 = [q]) (answered : transport [q] = .ok r) :
    ∃ names, ((op.call s now).run transport).2 = Outcome.duringAll names (op.read r) := by
  rw [op.call_planned] at sent ⊢
  obtain ⟨p, -, houtcome⟩ := Conversation.outcome_of_answered sent
  rw [houtcome, answered]
  exact ⟨p.names, rfl⟩

/-- A call that succeeds has sent one request and made its outcome of the reply. -/
theorem Operation.reply_of_success {op : Operation α} {s : Settings} {now : Instant}
    {transport : Transport} {a : α} (success : ((op.call s now).run transport).2 = .ok a) :
    ∃ q r, ((op.call s now).run transport).1 = [q] ∧ transport [q] = .ok r ∧
      op.read r = .ok a := by
  rw [op.call_planned] at success ⊢
  obtain ⟨p, q, -, hsent, hconcluded⟩ := Conversation.answered_of_success success
  rw [← Except.toOption_eq_some, Outcome.duringAll_toOption, Except.toOption_eq_some] at hconcluded
  obtain ⟨r, hr, hread⟩ := Except.bind_eq_ok.1 hconcluded
  exact ⟨q, r, hsent, hr, hread⟩

end TradeApi

/-- Every call of the two interfaces sends at most one request: none where the arguments are unfit
or a private call has no credentials, which is found out without the transport, and otherwise one,
which says nothing of the caller where the call is public. -/
theorem calls_send_at_most_once (s : Settings) (now : Instant) :
    (∀ {α : Type} (op : RestApi.Operation α),
      (op.call s now).Guarded op.Fit op.isPrivate (s.token ≠ "" ∧ s.secret ≠ "")) ∧
    ∀ {α : Type} (op : TradeApi.Operation α),
      (op.call s now).Guarded op.Fit op.isPrivate (s.token ≠ "" ∧ s.secret ≠ "") :=
  ⟨fun op => op.call_guarded s now, fun op => op.call_guarded s now⟩

end ExchangeClient
