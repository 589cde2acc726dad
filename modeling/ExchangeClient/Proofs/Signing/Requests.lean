import ExchangeClient.Proofs.Conversation
import ExchangeClient.Proofs.Signing.Payload

/-!
# Signed requests of the two interfaces

Each private operation has a plan that is signed as a whole: the payload that
the plan comes to is put into the request unchanged, next to the key and the
signature of just that payload.
-/

namespace ExchangeClient

namespace Http.Request

/-- A request to a place, signed under credentials at a moment, that says some parameters. -/
def SignedBy (r : Request) (c : Credentials) (place : String) (f : Freshness) (now : Instant)
    (params : Form.Params) : Prop :=
  ∃ payload, r.Transmits place payload ∧ Stamped f now params payload ∧
    r.headers = [("Key", c.key), ("Sign", Digest.sign payload c.secret)]

theorem signedBy_carrying {c : Credentials} {params : Form.Params} {f : Freshness}
    {now : Instant} {signed : SignedPayload} (success : c.sign params f now = .ok signed)
    (method : Method) (base path : String) :
    ((carrying method base path signed.payload).withHeaders signed.headers).SignedBy c
      (base ++ path) f now params := by
  obtain ⟨-, hpayload, hheaders⟩ := c.sign_ok success
  have hstamped : Stamped f now params signed.payload := by
    rw [hpayload]
    exact stamped_ofParams f now params
  refine ⟨signed.payload, ?_, hstamped, ?_⟩
  · exact carrying_transmits method base path hstamped.not_empty
  · rw [withHeaders, carrying_headers, List.nil_append, hheaders]

theorem withoutSignature_signed (method : Method) (base path payload key signature : String) :
    ((carrying method base path payload).withHeaders
      [("Key", key), ("Sign", signature)]).withoutSignature =
      (carrying method base path payload).withHeaders [("Key", key)] := by
  have hkey : [("Key", key), ("Sign", signature)].filter (fun h => h.1 != "Sign") =
      [("Key", key)] := rfl
  simp only [withoutSignature, withHeaders, carrying_headers, List.nil_append, hkey]

end Http.Request

/-! ## The exchange's own interface -/

namespace RestApi

theorem Plan.request_signed {p : Plan} {s : Settings} {now : Instant} {r : Http.Request}
    (secure : p.isPrivate = true) (success : p.request s now = .ok r) :
    r.method = p.method ∧
      r.SignedBy s.credentials (s.address ++ p.path) .timestamp now p.params := by
  simp only [request] at success
  rw [if_pos secure] at success
  cases hsign : s.credentials.sign p.params .timestamp now with
  | error e =>
    rw [hsign] at success
    cases success
  | ok signed =>
    rw [hsign] at success
    cases success
    constructor
    · exact Http.Request.carrying_method p.method s.address p.path signed.payload
    · exact Http.Request.signedBy_carrying hsign p.method s.address p.path

/-- The secret only matters to the signature of a request. -/
theorem Plan.request_secret (p : Plan) (s : Settings) (now : Instant) {a b : String}
    (givenA : a ≠ "") (givenB : b ≠ "") :
    (p.request { s with secret := a } now >>= fun r => .ok r.withoutSignature) =
      (p.request { s with secret := b } now >>= fun r => .ok r.withoutSignature) := by
  simp only [request]
  split
  · rw [bind_assoc, bind_assoc]
    apply Credentials.sign_secret givenA givenB
    intro payload
    simp only [pure_bind, SignedPayload.headers, Http.Request.withoutSignature_signed]
  · rfl

variable {α : Type}

namespace Operation

/-- Operations about the user; the others are about the market. -/
def isPrivate : Operation α → Bool
  | .marketDepths _ | .marketInfo | .marketTradesOpen _ | .marketPrices | .marketTicker _
  | .marketTrades _ _ _ | .marketSummaries => false
  | _ => true

theorem plan_secure {β : Type} {x : Except RequestError β} {g : β → Form.Params}
    {name path : String} {method : Http.Method} {p : Plan}
    (planned : (do pure (Plan.secure name method path (g (← x)))) = Except.ok p) :
    p.isPrivate = true := by
  cases x with
  | error e => cases planned
  | ok params =>
    cases planned
    rfl

theorem cancelPlan_private {side : Side} {pair : String} {tradeId : Int64} {p : Plan}
    (planned : cancelPlan side pair tradeId = .ok p) : p.isPrivate = true := by
  simp only [cancelPlan] at planned
  cases side with
  | sell => exact plan_secure planned
  | buy => exact plan_secure planned

/-- A private operation plans a request that is signed. -/
theorem plan_private {op : Operation α} {p : Plan} (hprivate : op.isPrivate = true)
    (planned : op.plan = .ok p) : p.isPrivate = true := by
  cases op with
  | marketDepths | marketInfo | marketTradesOpen | marketPrices | marketTicker | marketTrades
  | marketSummaries => cases hprivate
  | authenticate | userInfo | userTransactions | tradeCancelAll =>
    cases planned
    rfl
  | userTrades listing => exact plan_secure (g := id) planned
  | userOrdersClosed pair timeAfter timeBefore => exact plan_secure planned
  | userOrdersOpen pair => exact plan_secure (g := id) planned
  | userOrderInfo pair tradeId => exact plan_secure (g := id) planned
  | userWithdraw request => exact plan_secure (g := id) planned
  | tradeAsk request => exact plan_secure (g := Prod.fst) planned
  | tradeBid request => exact plan_secure (g := Prod.fst) planned
  | tradeCancel trade =>
    rw [plan] at planned
    split at planned
    · cases planned
    · split at planned
      · exact cancelPlan_private planned
      · cases planned
  | tradeCancelAsk pair tradeId =>
    exact cancelPlan_private (show cancelPlan .sell pair tradeId = .ok p from planned)
  | tradeCancelBid pair tradeId =>
    exact cancelPlan_private (show cancelPlan .buy pair tradeId = .ok p from planned)

end Operation
end RestApi

/-! ## The trade API -/

namespace TradeApi

theorem Plan.request_signed {p : Plan} {s : Settings} {now : Instant} {r : Http.Request}
    {method : String} {params : Form.Params} (secure : p.target = .method method params)
    (success : p.request s now = .ok r) :
    r.method = .post ∧
      r.SignedBy s.credentials (s.tradeApiAddress ++ "/tapi") .nonce now
        (params.insert "method" method) := by
  simp only [request] at success
  rw [secure] at success
  dsimp only at success
  cases hsign : s.credentials.sign (params.insert "method" method) .nonce now with
  | error e =>
    rw [hsign] at success
    cases success
  | ok signed =>
    rw [hsign] at success
    cases success
    exact ⟨rfl, Http.Request.signedBy_carrying hsign .post s.tradeApiAddress "/tapi"⟩

/-- The secret only matters to the signature of a request. -/
theorem Plan.request_secret (p : Plan) (s : Settings) (now : Instant) {a b : String}
    (givenA : a ≠ "") (givenB : b ≠ "") :
    (p.request { s with secret := a } now >>= fun r => .ok r.withoutSignature) =
      (p.request { s with secret := b } now >>= fun r => .ok r.withoutSignature) := by
  simp only [request]
  split
  · rfl
  · rw [bind_assoc, bind_assoc]
    apply Credentials.sign_secret givenA givenB
    intro payload
    simp only [pure_bind, SignedPayload.headers, Http.Request.withoutSignature_signed]

variable {α : Type}

namespace Operation

/-- Operations about the user; the others are about the market. -/
def isPrivate : Operation α → Bool
  | .marketSummaries | .marketTicker _ | .marketTrades _ | .marketOrdersOpen _
  | .marketInfo => false
  | _ => true

theorem plan_method {β : Type} {x : Except RequestError β} {g : β → Form.Params}
    {names : List String} {method : String} {p : Plan}
    (planned : (do pure ⟨names, .method method (g (← x))⟩) = Except.ok p) :
    ∃ params, p.target = .method method params := by
  cases x with
  | error e => cases planned
  | ok built =>
    cases planned
    exact ⟨g built, rfl⟩

/-- A private operation plans a call of a method, which is signed. -/
theorem plan_private {op : Operation α} {p : Plan} (hprivate : op.isPrivate = true)
    (planned : op.plan = .ok p) : ∃ method params, p.target = .method method params := by
  cases op with
  | marketSummaries | marketTicker | marketTrades | marketOrdersOpen | marketInfo => cases hprivate
  | authenticate | userInfo | userOrdersOpen | userTransactions =>
    cases planned
    exact ⟨_, _, rfl⟩
  | userOrder pair orderId => exact ⟨_, plan_method (g := id) planned⟩
  | userOrdersClosed pair count fromId => exact ⟨_, plan_method planned⟩
  | userTrades listing => exact ⟨_, plan_method (g := id) planned⟩
  | userWithdraw request => exact ⟨_, plan_method (g := id) planned⟩
  | tradeBid request => exact ⟨_, plan_method (g := id) planned⟩
  | tradeAsk request => exact ⟨_, plan_method (g := id) planned⟩
  | tradeCancelBid pair orderId => exact ⟨_, plan_method (g := id) planned⟩
  | tradeCancelAsk pair orderId => exact ⟨_, plan_method (g := id) planned⟩

end Operation
end TradeApi
end ExchangeClient
