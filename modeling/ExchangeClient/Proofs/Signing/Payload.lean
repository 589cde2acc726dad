import ExchangeClient.Http.Wire
import ExchangeClient.Proofs.Form.Reading
import ExchangeClient.Signing

/-!
# What is signed is what is sent

A signed payload says the parameters it was made of and the moment of signing,
the latter once. Its signature is one of the payload itself, and nothing but the
signature depends on the secret.
-/

namespace ExchangeClient

/-- A payload that says some parameters and, once, the moment at which it was signed. -/
structure Stamped (f : Freshness) (now : Instant) (params : Form.Params) (payload : String) :
    Prop where
  decodes : Form.decode payload = (params.insert f.param (Digits.intText (f.reading now))).entries
  ascending : (Form.decode payload).Pairwise fun p q => p.1 < q.1
  once : ((Form.decode payload).filter fun p => p.1 == f.param) =
    [(f.param, Digits.intText (f.reading now))]
  others : ((Form.decode payload).filter fun p => p.1 != f.param) =
    params.entries.filter fun p => p.1 != f.param

theorem stamped_ofParams (f : Freshness) (now : Instant) (params : Form.Params) :
    Stamped f now params
      (Form.ofParams (params.insert f.param (Digits.intText (f.reading now)))) := by
  have hdecode := Form.decode_ofParams (params.insert f.param (Digits.intText (f.reading now)))
  constructor
  · exact hdecode
  · rw [hdecode]
    exact Dictionary.ascending _
  · rw [hdecode]
    exact Entries.filter_insert_self params.ascending
  · rw [hdecode]
    exact Entries.filter_insert_other _ _ params.entries

theorem Stamped.not_empty {f : Freshness} {now : Instant} {params : Form.Params}
    {payload : String} (stamped : Stamped f now params payload) : payload.isEmpty = false := by
  cases hempty : payload.isEmpty with
  | false => rfl
  | true =>
    rw [String.isEmpty_iff] at hempty
    have honce := stamped.once
    rw [hempty] at honce
    exact absurd honce (List.cons_ne_nil _ _).symm

namespace Credentials

/-- Only credentials with a key and a secret sign, and they sign what they send. -/
theorem sign_ok {c : Credentials} {params : Form.Params} {f : Freshness} {now : Instant}
    {signed : SignedPayload} (success : c.sign params f now = .ok signed) :
    c.isConfigured = true ∧
    signed.payload = Form.ofParams (params.insert f.param (Digits.intText (f.reading now))) ∧
    signed.headers = [("Key", c.key), ("Sign", Digest.sign signed.payload c.secret)] := by
  simp only [sign, signAt] at success
  split at success
  · rename_i hconfigured
    cases success
    exact ⟨hconfigured, rfl, rfl⟩
  · cases success

/-- Credentials with a key and a secret do sign. -/
theorem exists_sign {c : Credentials} (configured : c.isConfigured = true) (params : Form.Params)
    (f : Freshness) (now : Instant) :
    ∃ payload, c.sign params f now = .ok ⟨payload, c.key, Digest.sign payload c.secret⟩ := by
  rw [sign, signAt, if_pos configured]
  exact ⟨_, rfl⟩

theorem isConfigured_secret (key : String) {secret : String} (given : secret ≠ "") :
    (Credentials.mk key secret).isConfigured = !key.isEmpty := by
  have hsecret : secret.isEmpty = false := by
    rw [← Bool.not_eq_true, String.isEmpty_iff]
    exact given
  rw [isConfigured, hsecret, Bool.not_false, Bool.and_true]

/-- What is made of a signed payload without regard to the signature is the same under any
secret. -/
theorem sign_secret {β : Type} {key a b : String} (givenA : a ≠ "") (givenB : b ≠ "")
    (params : Form.Params) (f : Freshness) (now : Instant) {g : SignedPayload → Outcome β}
    (blind : ∀ payload,
      g ⟨payload, key, Digest.sign payload a⟩ = g ⟨payload, key, Digest.sign payload b⟩) :
    ((Credentials.mk key a).sign params f now >>= g) =
      ((Credentials.mk key b).sign params f now >>= g) := by
  simp only [sign, signAt]
  rw [isConfigured_secret key givenA, isConfigured_secret key givenB]
  cases key.isEmpty with
  | true => simp only [Bool.not_true, Bool.false_eq_true, if_false]
  | false =>
    simp only [Bool.not_false, if_true]
    exact blind _

end Credentials

/-! ## Where a payload travels -/

namespace Http.Request

/-- A request to a place whose whole payload is a given one. -/
def Transmits (r : Request) (place payload : String) : Prop :=
  (r.method = .post ∧ r.url = place ∧ r.body = some payload) ∨
    (r.method ≠ .post ∧ r.url = place ++ "?" ++ payload ∧ r.body = none)

/-- A request without the header that proves who sent it. -/
def withoutSignature (r : Request) : Request :=
  { r with headers := r.headers.filter fun h => h.1 != "Sign" }

theorem carrying_query {method : Method} (noBody : method.hasBody = false) (base path : String)
    {payload : String} (present : payload.isEmpty = false) :
    carrying method base path payload =
      { method := method, url := base ++ path ++ "?" ++ payload } := by
  rw [carrying, noBody, present]
  rfl

theorem carrying_transmits (method : Method) (base path : String) {payload : String}
    (present : payload.isEmpty = false) :
    (carrying method base path payload).Transmits (base ++ path) payload := by
  cases method with
  | post => exact Or.inl ⟨rfl, rfl, rfl⟩
  | get =>
    rw [carrying_query rfl base path present]
    exact Or.inr ⟨nofun, rfl, rfl⟩
  | delete =>
    rw [carrying_query rfl base path present]
    exact Or.inr ⟨nofun, rfl, rfl⟩

theorem carrying_method (method : Method) (base path payload : String) :
    (carrying method base path payload).method = method := by
  simp only [carrying]
  split
  · rfl
  · split <;> rfl

theorem carrying_headers (method : Method) (base path payload : String) :
    (carrying method base path payload).headers = [] := by
  simp only [carrying]
  split
  · rfl
  · split <;> rfl

/-- Only its headers are added to a request that carries a payload. -/
theorem carrying_bare (method : Method) (base path payload : String)
    (headers : List (String × String)) :
    { (carrying method base path payload).withHeaders headers with headers := [] } =
      carrying method base path payload := by
  have hbare := carrying_headers method base path payload
  cases hr : carrying method base path payload
  rw [hr] at hbare
  cases hbare
  rfl

/-- No two payloads are carried alike to one place. -/
theorem carrying_inj {method : Method} {base path payload payload' : String}
    (same : carrying method base path payload = carrying method base path payload') :
    payload = payload' := by
  have hlonger : ∀ text : String,
      (base ++ path ++ "?" ++ text).length ≠ (base ++ path).length := by
    intro text
    have hmark : "?".length = 1 := rfl
    rw [String.length_append, String.length_append, hmark]
    omega
  simp only [carrying] at same
  split at same
  · cases same
    rfl
  · have hurl := congrArg Request.url same
    split at hurl <;> split at hurl
    · rename_i hempty hempty'
      exact (String.isEmpty_iff.1 hempty).trans (String.isEmpty_iff.1 hempty').symm
    · exact absurd (congrArg String.length hurl).symm (hlonger payload')
    · exact absurd (congrArg String.length hurl) (hlonger payload)
    · exact (String.append_right_inj _).1 hurl

end Http.Request
end ExchangeClient
