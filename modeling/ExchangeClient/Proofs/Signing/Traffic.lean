import ExchangeClient.Channel.Handshake
import ExchangeClient.Proofs.Form.Queries
import ExchangeClient.Proofs.Signing.Requests

/-!
# Everything private is signed

A private channel is opened by a request whose whole query is signed. Together
with the operations of the two interfaces that is all the private traffic, and
in all of it the payload that is sent is the payload that was signed.
-/

namespace ExchangeClient

theorem Outcome.of_during {α : Type} {name : String} {o : Outcome α} {a : α}
    (success : o.during name = .ok a) : o = .ok a := by
  rw [← Except.toOption_eq_some, ← Outcome.during_toOption name, success]
  rfl

namespace Digest

theorem hexDigit_sendable :
    ∀ n < 16, 32 ≤ (Nat.digitChar n).toNat ∧ (Nat.digitChar n).toNat ≠ 127 := by decide

/-- A signature can be the value of a header. -/
theorem sign_isHeaderValue (payload secret : String) :
    Http.isHeaderValue (sign payload secret) = true := by
  rw [Http.isHeaderValue, sign, String.toList_ofList, List.all_eq_true]
  intro c hc
  obtain ⟨b, -, hb⟩ := List.mem_flatMap.1 hc
  have hbyte : b.toNat < 256 := b.toNat_lt
  have hdigit : ∃ n < 16, c = Nat.digitChar n := by
    rcases List.mem_cons.1 hb with h | h
    · exact ⟨_, by omega, h⟩
    · exact ⟨_, by omega, List.mem_singleton.1 h⟩
  obtain ⟨n, hn, rfl⟩ := hdigit
  obtain ⟨hlow, hdelete⟩ := hexDigit_sendable n hn
  simp [hlow, hdelete]

end Digest

namespace Channel.Handshake

/-- A handshake with an endpoint, signed under credentials at a moment. -/
def SignedBy (h : Handshake) (c : Credentials) (e : Endpoint) (now : Instant) : Prop :=
  ∃ payload, h.endpoint = e ∧ h.query = some payload ∧
    h.uri = String.ofList e.baseChars ++ "?" ++ payload ∧
    Stamped .timestamp now .empty payload ∧
    h.headers = [("Key", c.key), ("Sign", Digest.sign payload c.secret)]

/-- A handshake without the header that proves who sent it. -/
def withoutSignature (h : Handshake) : Handshake :=
  { h with headers := h.headers.filter fun header => header.1 != "Sign" }

theorem signed_ok {e : Endpoint} {s : SignedPayload} {h : Handshake}
    (success : signed e s = .ok h) :
    h = { endpoint := e, query := some (String.ofList (Url.queryChars s.payload.toList)),
          headers := s.headers } := by
  simp only [signed, plain] at success
  by_cases hsendable : e.isSendable = true
  · rw [if_pos hsendable] at success
    by_cases hvalues : (s.headers.all fun header => Http.isHeaderValue header.2) = true
    · simp only [bind, Except.bind, if_pos hvalues] at success
      cases success
      rfl
    · simp only [bind, Except.bind, if_neg hvalues] at success
      cases success
  · rw [if_neg hsendable] at success
    cases success

/-- An opened private channel was asked for by a signed query. -/
theorem forPrivate_ok {s : Settings} {now : Instant} {h : Handshake}
    (success : forPrivate s now = .ok h) :
    ∃ e, Endpoint.read s.address privatePath = .ok e ∧ h.SignedBy s.credentials e now := by
  simp only [forPrivate] at success
  split at success
  · cases hread : Endpoint.read s.address privatePath with
    | error error =>
      rw [hread] at success
      cases success
    | ok e =>
      rw [hread] at success
      have hopened : (s.credentials.sign .empty .timestamp now >>= signed e) = .ok h :=
        Outcome.of_during success
      cases hsign : s.credentials.sign .empty .timestamp now with
      | error error =>
        rw [hsign] at hopened
        cases hopened
      | ok payload =>
        rw [hsign] at hopened
        obtain ⟨-, hpayload, hheaders⟩ := s.credentials.sign_ok hsign
        have hquery : String.ofList (Url.queryChars payload.payload.toList) = payload.payload := by
          rw [hpayload]
          exact Form.queryChars_canonical _
        have hstamped : Stamped .timestamp now .empty payload.payload := by
          rw [hpayload]
          exact stamped_ofParams .timestamp now .empty
        rw [signed_ok hopened, hquery]
        refine ⟨e, rfl, payload.payload, rfl, rfl, ?_, hstamped, hheaders⟩
        rw [uri, String.append_assoc]
  · cases success

/-- A private channel is asked for if the exchange can be reached and the credentials are
complete. -/
theorem forPrivate_opens {s : Settings} {e : Endpoint} (now : Instant)
    (configured : s.isAuthenticated = true)
    (reached : Endpoint.read s.address privatePath = .ok e) (sendable : e.isSendable = true)
    (sayable : Http.isHeaderValue s.token = true) :
    ∃ h, forPrivate s now = .ok h := by
  obtain ⟨payload, hsign⟩ := Credentials.exists_sign configured .empty .timestamp now
  have hkey : Http.isHeaderValue s.credentials.key = true := sayable
  rw [forPrivate, if_pos configured, reached]
  simp only [bind, Except.bind, hsign, signed, plain, if_pos sendable, SignedPayload.headers,
    List.all_cons, List.all_nil, hkey, Digest.sign_isHeaderValue, Bool.and_self, if_true]
  exact ⟨_, rfl⟩

theorem signed_withoutSignature (e : Endpoint) (payload key secret : String) :
    (signed e ⟨payload, key, Digest.sign payload secret⟩ >>= fun h => .ok h.withoutSignature) =
      (plain e >>= fun h =>
        if Http.isHeaderValue key then
          .ok { h with query := some (String.ofList (Url.queryChars payload.toList)),
                       headers := [("Key", key)] }
        else .error (.webSocket "failed to parse header value")) := by
  rw [signed, bind_assoc]
  congr 1
  funext h
  have hkey : [("Key", key), ("Sign", Digest.sign payload secret)].filter
      (fun header => header.1 != "Sign") = [("Key", key)] := rfl
  cases hvalue : Http.isHeaderValue key with
  | true =>
    simp only [SignedPayload.headers, List.all_cons, List.all_nil, hvalue,
      Digest.sign_isHeaderValue, Bool.and_self, if_true, pure_bind, withoutSignature, hkey]
  | false =>
    simp only [SignedPayload.headers, List.all_cons, List.all_nil, hvalue, Bool.false_and,
      Bool.false_eq_true, if_false]
    rfl

/-- The secret only matters to the signature of a handshake. -/
theorem forPrivate_secret (s : Settings) (now : Instant) {a b : String} (givenA : a ≠ "")
    (givenB : b ≠ "") :
    (forPrivate { s with secret := a } now).map withoutSignature =
      (forPrivate { s with secret := b } now).map withoutSignature := by
  have hmap : ∀ o : Outcome Handshake, (o.during "private_ws_connect").map withoutSignature =
      Outcome.during "private_ws_connect" (o >>= fun h => .ok h.withoutSignature) := by
    intro o
    cases o with
    | error e => rfl
    | ok h => rfl
  simp only [forPrivate]
  simp only [Settings.isAuthenticated, Settings.credentials,
    Credentials.isConfigured_secret s.token givenA, Credentials.isConfigured_secret s.token givenB]
  cases s.token.isEmpty with
  | true => simp only [Bool.not_true, Bool.false_eq_true, if_false]
  | false =>
    simp only [Bool.not_false, if_true]
    cases Endpoint.read s.address privatePath with
    | error e => simp only [bind, Except.bind]
    | ok e =>
      have hsame : ((Credentials.mk s.token a).sign .empty .timestamp now >>= signed e >>=
            fun h => .ok h.withoutSignature) =
          ((Credentials.mk s.token b).sign .empty .timestamp now >>= signed e >>=
            fun h => .ok h.withoutSignature) := by
        rw [bind_assoc, bind_assoc]
        apply Credentials.sign_secret givenA givenB
        intro payload
        rw [signed_withoutSignature, signed_withoutSignature]
      exact (hmap _).trans ((congrArg _ hsame).trans (hmap _).symm)

end Channel.Handshake

/-! ## All private traffic -/

/-- Whatever is sent in private is one signed payload: it says what its operation had to say and
the moment of sending, the signature is one of this very payload, and the secret has no influence
on anything else. -/
theorem private_traffic_signed (s : Settings) (now : Instant) :
    (∀ {α : Type} (op : RestApi.Operation α) (transport : Transport) (request : Http.Request),
      op.isPrivate = true → request ∈ ((op.call s now).run transport).1 →
      ∃ plan, op.plan = .ok plan ∧ request.method = plan.method ∧
        request.SignedBy s.credentials (s.address ++ plan.path) .timestamp now plan.params) ∧
    (∀ {α : Type} (op : TradeApi.Operation α) (transport : Transport) (request : Http.Request),
      op.isPrivate = true → request ∈ ((op.call s now).run transport).1 →
      ∃ names method params, op.plan = .ok ⟨names, .method method params⟩ ∧
        request.method = .post ∧
        request.SignedBy s.credentials (s.tradeApiAddress ++ "/tapi") .nonce now
          (params.insert "method" method)) ∧
    (∀ handshake, Channel.Handshake.forPrivate s now = .ok handshake →
      ∃ endpoint,
        Channel.Endpoint.read s.address Channel.Handshake.privatePath = .ok endpoint ∧
        handshake.SignedBy s.credentials endpoint now) ∧
    (∀ a b : String, a ≠ "" → b ≠ "" →
      (∀ {α : Type} (op : RestApi.Operation α) (transport transport' : Transport),
        ((op.call { s with secret := a } now).run transport).1.map
            Http.Request.withoutSignature =
          ((op.call { s with secret := b } now).run transport').1.map
            Http.Request.withoutSignature) ∧
      (∀ {α : Type} (op : TradeApi.Operation α) (transport transport' : Transport),
        ((op.call { s with secret := a } now).run transport).1.map
            Http.Request.withoutSignature =
          ((op.call { s with secret := b } now).run transport').1.map
            Http.Request.withoutSignature) ∧
      (Channel.Handshake.forPrivate { s with secret := a } now).map
          Channel.Handshake.withoutSignature =
        (Channel.Handshake.forPrivate { s with secret := b } now).map
          Channel.Handshake.withoutSignature) := by
  refine ⟨?_, ?_, ?_, ?_⟩
  · intro α op transport request hprivate sent
    rw [op.call_planned] at sent
    obtain ⟨plan, hplan, hrequest⟩ := Conversation.planned_requested sent
    have hsecure := RestApi.Operation.plan_private hprivate hplan
    obtain ⟨hmethod, hsigned⟩ := RestApi.Plan.request_signed hsecure hrequest
    exact ⟨plan, hplan, hmethod, hsigned⟩
  · intro α op transport request hprivate sent
    rw [op.call_planned] at sent
    obtain ⟨⟨names, target⟩, hplan, hrequest⟩ := Conversation.planned_requested sent
    obtain ⟨method, params, htarget⟩ := TradeApi.Operation.plan_private hprivate hplan
    obtain ⟨hmethod, hsigned⟩ := TradeApi.Plan.request_signed htarget hrequest
    cases htarget
    exact ⟨names, method, params, hplan, hmethod, hsigned⟩
  · intro handshake opened
    exact Channel.Handshake.forPrivate_ok opened
  · intro a b givenA givenB
    refine ⟨?_, ?_, ?_⟩
    · intro α op transport transport'
      rw [op.call_planned, op.call_planned]
      exact Conversation.planned_requests_map
        (fun plan => plan.request_secret s now givenA givenB) transport transport'
    · intro α op transport transport'
      rw [op.call_planned, op.call_planned]
      exact Conversation.planned_requests_map
        (fun plan => plan.request_secret s now givenA givenB) transport transport'
    · exact Channel.Handshake.forPrivate_secret s now givenA givenB

/-- The open orders of a user are asked for in a signed query, the account of the trade API in a
signed body, and the private channel in a signed handshake. -/
theorem private_traffic_of_a_user :
    let s : Settings := { token := "my-key", secret := "secr3t" }
    let now : Instant := ⟨1574423788000⟩
    let silent : Transport := fun _ => .error .timeout
    (∃ request ∈ (((RestApi.Operation.userOrdersOpen "ten_btc").call s now).run silent).1,
      request.method = .get ∧
      request.SignedBy ⟨"my-key", "secr3t"⟩ (s.address ++ "/v2/user/orders/open") .timestamp now
        (.ofList [("pair", "ten_btc")])) ∧
    (∃ request ∈ ((TradeApi.Operation.userInfo.call s now).run silent).1,
      request.SignedBy ⟨"my-key", "secr3t"⟩ (s.tradeApiAddress ++ "/tapi") .nonce now
        (Dictionary.empty.insert "method" "getInfo")) ∧
    (∃ handshake endpoint, Channel.Handshake.forPrivate s now = .ok handshake ∧
      handshake.SignedBy ⟨"my-key", "secr3t"⟩ endpoint now) ∧
    (Channel.Handshake.forPrivate { s with secret := "a" } now).map
        Channel.Handshake.withoutSignature =
      (Channel.Handshake.forPrivate { s with secret := "b" } now).map
        Channel.Handshake.withoutSignature := by
  intro s now silent
  obtain ⟨hrest, htrade, hchannel, hsecret⟩ := private_traffic_signed s now
  refine ⟨?_, ?_, ?_, ?_⟩
  · obtain ⟨plan, hplan, hmethod, hsigned⟩ :=
      hrest (.userOrdersOpen "ten_btc") silent _ rfl (List.mem_singleton_self _)
    cases hplan
    exact ⟨_, List.mem_singleton_self _, hmethod, hsigned⟩
  · obtain ⟨names, method, params, hplan, -, hsigned⟩ :=
      htrade .userInfo silent _ rfl (List.mem_singleton_self _)
    cases hplan
    exact ⟨_, List.mem_singleton_self _, hsigned⟩
  · have hreached : ∃ e, Channel.Endpoint.read s.address Channel.Handshake.privatePath = .ok e ∧
        e.isSendable = true := by
      have hread : ((Channel.Endpoint.read s.address Channel.Handshake.privatePath).toOption.any
          Channel.Endpoint.isSendable) = true := by decide +kernel
      obtain ⟨e, he, hsendable⟩ := (Option.any_eq_true _ _).1 hread
      exact ⟨e, Except.toOption_eq_some.1 he, hsendable⟩
    obtain ⟨e, hread, hsendable⟩ := hreached
    obtain ⟨handshake, hopened⟩ :=
      Channel.Handshake.forPrivate_opens now (by decide) hread hsendable (by decide)
    obtain ⟨endpoint, -, hsigned⟩ := hchannel handshake hopened
    exact ⟨handshake, endpoint, hopened, hsigned⟩
  · exact (hsecret "a" "b" (by decide) (by decide)).2.2

end ExchangeClient
