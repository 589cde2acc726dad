import ExchangeClient.Proofs.Results
import ExchangeClient.RestApi.Operation
import ExchangeClient.TradeApi.Operation

/-!
# What a call sends

The calls of both interfaces have one shape: a plan, the request of the plan,
and what is made of the answer. Such a call sends the request of its plan and
nothing else, whatever the transport does.
-/

namespace ExchangeClient

theorem Outcome.during_toOption {α : Type} (name : String) (o : Outcome α) :
    (o.during name).toOption = o.toOption := by
  cases o with
  | error e => rfl
  | ok a => rfl

theorem Outcome.duringAll_toOption {α : Type} (names : List String) (o : Outcome α) :
    (o.duringAll names).toOption = o.toOption := by
  induction names with
  | nil => rfl
  | cons name names ih => exact (Outcome.during_toOption name _).trans ih

namespace Conversation

variable {α π : Type}

/-- The conversation of a plan: its request is sent and the answer is read. -/
def planned (plan : Except RequestError π) (names : π → List String)
    (request : π → Outcome Http.Request) (conclude : π → Outcome Http.Response → Outcome α) :
    Conversation α :=
  match plan with
  | .error e => .ended (.error (.request e))
  | .ok p => match Outcome.duringAll (names p) (request p) with
    | .error e => .ended (.error e)
    | .ok r => .sending r fun answer => .ended (conclude p answer)

/-- The transport has no influence on what is sent. -/
theorem planned_requests (plan : Except RequestError π) (names : π → List String)
    (request : π → Outcome Http.Request) (conclude : π → Outcome Http.Response → Outcome α)
    (transport : Transport) :
    ((planned plan names request conclude).run transport).1 =
      (plan.toOption.bind fun p => (request p).toOption).toList := by
  cases plan with
  | error e => rfl
  | ok p =>
    have hsame : (Outcome.duringAll (names p) (request p)).toOption = (request p).toOption :=
      Outcome.duringAll_toOption (names p) (request p)
    have hbind : ((Except.ok p : Except RequestError π).toOption.bind fun p =>
        (request p).toOption) = (request p).toOption := rfl
    rw [hbind, ← hsame, planned]
    cases Outcome.duringAll (names p) (request p) with
    | error e => rfl
    | ok r => rfl

/-- A request that is sent is the one of a plan. -/
theorem planned_requested {plan : Except RequestError π} {names : π → List String}
    {request : π → Outcome Http.Request} {conclude : π → Outcome Http.Response → Outcome α}
    {transport : Transport} {r : Http.Request}
    (sent : r ∈ ((planned plan names request conclude).run transport).1) :
    ∃ p, plan = .ok p ∧ request p = .ok r := by
  rw [planned_requests, Option.mem_toList, Option.bind_eq_some_iff] at sent
  obtain ⟨p, hplan, hrequest⟩ := sent
  exact ⟨p, Except.toOption_eq_some.1 hplan, Except.toOption_eq_some.1 hrequest⟩

/-- Two ways of making requests that differ in nothing that is looked at send the same. -/
theorem planned_requests_map {β : Type} {plan : Except RequestError π} {names : π → List String}
    {request request' : π → Outcome Http.Request}
    {conclude : π → Outcome Http.Response → Outcome α} {look : Http.Request → β}
    (same : ∀ p, (request p >>= fun r => .ok (look r)) = (request' p >>= fun r => .ok (look r)))
    (transport transport' : Transport) :
    ((planned plan names request conclude).run transport).1.map look =
      ((planned plan names request' conclude).run transport').1.map look := by
  have hlook : ∀ x : Outcome Http.Request,
      x.toOption.toList.map look = (x >>= fun r => .ok (look r)).toOption.toList := by
    intro x
    cases x with
    | error e => rfl
    | ok r => rfl
  rw [planned_requests, planned_requests]
  cases plan with
  | error e => rfl
  | ok p =>
    have hleft := hlook (request p)
    rw [same p, ← hlook (request' p)] at hleft
    exact hleft

end Conversation

variable {α : Type}

theorem RestApi.Operation.call_planned (s : Settings) (now : Instant) (op : RestApi.Operation α) :
    op.call s now = .planned op.plan Plan.names (fun p => p.request s now)
      (fun p answer => op.conclude p.names answer) := by
  simp only [call, Conversation.planned]
  cases op.plan with
  | error e => rfl
  | ok p => rfl

theorem TradeApi.Operation.call_planned (s : Settings) (now : Instant)
    (op : TradeApi.Operation α) :
    op.call s now = .planned op.plan Plan.names (fun p => p.request s now)
      (fun p answer => Outcome.duringAll p.names (answer >>= fun r => op.read r)) := by
  simp only [call, Conversation.planned]
  cases op.plan with
  | error e => rfl
  | ok p => rfl

end ExchangeClient
