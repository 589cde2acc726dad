import ExchangeClient.Proofs.Json.Members
import ExchangeClient.Proofs.Sending
import ExchangeClient.Proofs.TradeApi.Constraints

/-!
# Rejected calls

A reply can have a good status and still say that the call was rejected, by a
number that is not the one of success. A call reads all that it expects of a
reply before it looks at that number. So it fails with the reported error as long
as the other contents are what it expects, or are left out, and otherwise with
the complaint about these contents: a rejection is only as good as what stands
next to it.
-/

namespace ExchangeClient.TradeApi

open Json

/-- A reply with a good status whose body is an object that says no success, and what it reports
instead. -/
structure Rejection (r : Http.Response) (members : List (String × Document)) (report : ApiError) :
    Prop where
  good : r.status < 400
  body : Json.readText r.body = ⟨.object (quotedMembers members) none, false⟩
  once : (members.map (·.1)).Nodup
  wellFormed : ∀ m ∈ members, m.2.passing = none
  /-- The number that says success is missing or another one. -/
  unsuccessful : ∃ i ≠ succeeded, memberOr intCodec 0 "success" members = .ok i
  code : report.code = rejectedCode
  message : memberOr textCodec "" "error" members = .ok report.message
  name : memberOr textCodec "" "error_code" members = .ok report.name

/-- The names of what every private reply has. -/
def commonNames : List String := ["success", "error", "error_code"]

/-- There is a member of one of some names that a codec cannot read. -/
def Unreadable {β : Type} (c : Codec β) (names : List String) (members : List (String × Document))
    (cause : Json.Error) : Prop :=
  ∃ m ∈ members, m.1 ∈ names ∧ c.decode m.2 = .error cause

/-- How a rejected call fails: with what is reported, or with a complaint about what else the
reply contains. -/
inductive Failure (report : ApiError) (unreadable : Json.Error → Prop) : ClientError → Prop where
  | reported (readable : ∀ cause, ¬unreadable cause) : Failure report unreadable (.api report)
  | unread {cause : Json.Error} (because : unreadable cause) :
    Failure report unreadable (.serialization cause)

/-- A computation that fails as a rejected call does. -/
def Fails {β : Type} (report : ApiError) (unreadable : Json.Error → Prop) (x : Outcome β) : Prop :=
  ∃ e, x = .error e ∧ Failure report unreadable e

theorem Fails.bind {β γ : Type} {report : ApiError} {unreadable : Json.Error → Prop}
    {x : Outcome β} (fails : Fails report unreadable x) (f : β → Outcome γ) :
    Fails report unreadable (x >>= f) := by
  obtain ⟨e, rfl, hfailure⟩ := fails
  exact ⟨e, rfl, hfailure⟩

theorem Fails.map {β γ : Type} {report : ApiError} {unreadable : Json.Error → Prop}
    {x : Outcome β} (fails : Fails report unreadable x) (f : β → γ) :
    Fails report unreadable (x.map f) := by
  obtain ⟨e, rfl, hfailure⟩ := fails
  exact ⟨e, rfl, hfailure⟩

/-- The fields of a reply: those of every private reply, and contents under names of their own. -/
structure ReplyRow {σ β : Type} (fields : List (RecordField σ)) (success : σ → Int64)
    (error errorCode : σ → String) (c : Codec β) (names : List String) : Prop where
  loose : Record.Loose fields
  distinct : Record.Distinct fields
  readsSuccess : ∃ set, .of "success" intCodec success set ∈ fields ∧ ∀ t a, success (set t a) = a
  readsError : ∃ set, .of "error" textCodec error set ∈ fields ∧ ∀ t a, error (set t a) = a
  readsErrorCode : ∃ set, .of "error_code" textCodec errorCode set ∈ fields ∧
    ∀ t a, errorCode (set t a) = a
  keeps : ∀ f ∈ fields, (f.name = "success" ∨ f.Keeps success) ∧
    (f.name = "error" ∨ f.Keeps error) ∧ (f.name = "error_code" ∨ f.Keeps errorCode)
  named : names = (fields.map (·.name)).filter fun n => !commonNames.contains n
  contents : ∀ f ∈ fields, f.name ∈ commonNames ∨
    ∀ d e, f.read d = .error e ↔ c.decode d = .error e

namespace ReplyRow

variable {σ β : Type} {fields : List (RecordField σ)} {success : σ → Int64}
  {error errorCode : σ → String} {c : Codec β} {names : List String}
  {r : Http.Response} {members : List (String × Document)} {report : ApiError}

theorem shows_success (row : ReplyRow fields success error errorCode c names) :
    Record.Shows fields "success" intCodec success := by
  obtain ⟨set, hmem, hsame⟩ := row.readsSuccess
  exact .of hmem hsame fun f hf other => (row.keeps f hf).1.resolve_left other

theorem shows_error (row : ReplyRow fields success error errorCode c names) :
    Record.Shows fields "error" textCodec error := by
  obtain ⟨set, hmem, hsame⟩ := row.readsError
  exact .of hmem hsame fun f hf other => (row.keeps f hf).2.1.resolve_left other

theorem shows_errorCode (row : ReplyRow fields success error errorCode c names) :
    Record.Shows fields "error_code" textCodec errorCode := by
  obtain ⟨set, hmem, hsame⟩ := row.readsErrorCode
  exact .of hmem hsame fun f hf other => (row.keeps f hf).2.2.resolve_left other

theorem mem_names (row : ReplyRow fields success error errorCode c names) {n : String} :
    n ∈ names ↔ (∃ f ∈ fields, f.name = n) ∧ n ∉ commonNames := by
  rw [row.named, List.mem_filter, List.mem_map]
  simp

/-- What is reported can be read. -/
theorem common_read (row : ReplyRow fields success error errorCode c names)
    (rejection : Rejection r members report) {m : String × Document} (mem : m ∈ members)
    (common : m.1 ∈ commonNames) (e : Json.Error) : Record.change fields m ≠ .error e := by
  obtain ⟨i, -, hi⟩ := rejection.unsuccessful
  simp only [commonNames, List.mem_cons, List.not_mem_nil, or_false] at common
  rcases common with hname | hname | hname
  · exact Record.change_ne_error row.distinct row.shows_success rejection.once hi mem hname e
  · exact Record.change_ne_error row.distinct row.shows_error rejection.once rejection.message mem
      hname e
  · exact Record.change_ne_error row.distinct row.shows_errorCode rejection.once rejection.name mem
      hname e

/-- What a member is read as that fails is contents, so these are not what they should be. -/
theorem unreadable_of_change (row : ReplyRow fields success error errorCode c names)
    (rejection : Rejection r members report) {m : String × Document} (mem : m ∈ members)
    {e : Json.Error} (fails : Record.change fields m = .error e) :
    Unreadable c names members e := by
  have hother : m.1 ∉ commonNames := fun common => row.common_read rejection mem common e fails
  rw [Record.change] at fails
  split at fails
  · rename_i f hfound
    obtain ⟨hf, hname⟩ := row.loose.find?_some hfound
    rw [← hname] at hother
    refine ⟨m, mem, hname ▸ row.mem_names.2 ⟨⟨f, hf, rfl⟩, hother⟩, ?_⟩
    exact ((row.contents f hf).resolve_left hother m.2 e).1 fails
  · rw [Record.passOver, rejection.wellFormed m mem] at fails
    cases fails

theorem change_of_unreadable (row : ReplyRow fields success error errorCode c names)
    {e : Json.Error} (unreadable : Unreadable c names members e) :
    ∃ m ∈ members, Record.change fields m = .error e := by
  obtain ⟨⟨k, d⟩, hm, hname, hunread⟩ := unreadable
  obtain ⟨⟨f, hf, rfl⟩, hother⟩ := row.mem_names.1 hname
  refine ⟨_, hm, ?_⟩
  rw [Record.change_field row.distinct hf]
  exact ((row.contents f hf).resolve_left hother d e).2 hunread

/-- A rejection is read as what it reports, or not at all. -/
theorem rejected (row : ReplyRow fields success error errorCode c names)
    (rejection : Rejection r members report) (record : String) (initial : σ)
    (blank : success initial = 0 ∧ error initial = "" ∧ errorCode initial = "") :
    (∃ t, readBody (.record record fields initial) r.body = .ok t ∧ success t ≠ succeeded ∧
      report = ⟨rejectedCode, error t, errorCode t⟩ ∧ ∀ cause, ¬Unreadable c names members cause) ∨
    ∃ cause, readBody (.record record fields initial) r.body = .error (.serialization cause) ∧
      Unreadable c names members cause := by
  have hread : (Codec.record record fields initial).readText r.body =
      Record.decode record fields initial (.object (quotedMembers members) none) := by
    rw [Codec.readText, rejection.body]
    exact bind_pure _
  rw [readBody, hread]
  rcases Record.decode_cases row.loose row.distinct rejection.once record initial with
    ⟨t, hdecode, hall, hshows⟩ | ⟨m, hm, e, hfails, hdecode⟩
  · rw [hdecode]
    refine Or.inl ⟨t, rfl, ?_, ?_, ?_⟩
    · obtain ⟨i, hother, hi⟩ := rejection.unsuccessful
      have hsuccess := hshows row.shows_success
      rw [blank.1, hi] at hsuccess
      cases hsuccess
      exact hother
    · have hmessage := hshows row.shows_error
      have hname := hshows row.shows_errorCode
      rw [blank.2.1, rejection.message] at hmessage
      rw [blank.2.2, rejection.name] at hname
      obtain ⟨code, message, name⟩ := report
      cases hmessage
      cases hname
      cases rejection.code
      rfl
    · intro cause unreadable
      obtain ⟨m, hm, hfails⟩ := row.change_of_unreadable unreadable
      obtain ⟨u, hu⟩ := hall m hm
      cases hfails.symm.trans hu
  · rw [hdecode]
    exact Or.inr ⟨e, rfl, row.unreadable_of_change rejection hm hfails⟩

/-- Whoever refuses what says no success fails on a rejection. -/
theorem fails {β : Type} {next : σ → Outcome β}
    (row : ReplyRow fields success error errorCode c names) (rejection : Rejection r members report)
    (record : String) (initial : σ)
    (blank : success initial = 0 ∧ error initial = "" ∧ errorCode initial = "")
    (refuses : ∀ t, success t ≠ succeeded →
      next t = .error (.api ⟨rejectedCode, error t, errorCode t⟩)) :
    Fails report (Unreadable c names members)
      (readBody (.record record fields initial) r.body >>= next) := by
  rcases row.rejected rejection record initial blank with
    ⟨t, hread, hother, rfl, hreadable⟩ | ⟨cause, hread, hunread⟩
  · rw [hread]
    exact ⟨_, refuses t hother, .reported hreadable⟩
  · rw [hread]
    exact ⟨_, rfl, .unread hunread⟩

end ReplyRow

/-! ## The two kinds of replies -/

theorem Envelope.replyRow {γ : Type} (c : Codec γ) :
    ReplyRow (Envelope.fields c) (·.success) (·.error) (·.errorCode) (Codec.option c)
      ["return"] where
  loose := by
    constructor
    · simp [Envelope.fields, RecordField.of, RecordField.neededInArrays]
    · simp [Envelope.fields, RecordField.of, RecordField.neededInArrays]
  distinct := by
    simp [Envelope.fields, RecordField.of, RecordField.neededInArrays, Record.Distinct,
      RecordField.isCalled]
  readsSuccess := ⟨_, List.mem_of_getElem? (i := 0) rfl, fun _ _ => rfl⟩
  readsError := ⟨_, List.mem_of_getElem? (i := 1) rfl, fun _ _ => rfl⟩
  readsErrorCode := ⟨_, List.mem_of_getElem? (i := 2) rfl, fun _ _ => rfl⟩
  keeps := by
    simp only [Envelope.fields, List.forall_mem_cons, List.not_mem_nil, false_imp_iff,
      implies_true, and_true]
    and_intros <;>
      first | exact Or.inl rfl | exact Or.inr (RecordField.keeps_of (fun _ => rfl) fun _ _ => rfl)
  named := rfl
  contents := by
    simp only [Envelope.fields, List.forall_mem_cons, List.not_mem_nil, false_imp_iff,
      implies_true, and_true]
    and_intros <;>
      first
      | exact Or.inr fun d e => Except.map_eq_error
      | exact Or.inl (by simp [commonNames, RecordField.of])

/-- The contents of the answer to a withdrawal. -/
def withdrawalNames : List String :=
  ["withdraw_id", "txid", "status", "withdraw_currency", "withdraw_address", "withdraw_amount",
    "fee", "amount_after_fee", "submit_time", "withdraw_memo"]

theorem WithdrawReply.replyRow :
    ReplyRow WithdrawReply.fields (·.success) (·.error) (·.errorCode) textCodec
      withdrawalNames where
  loose := by
    constructor
    · simp [WithdrawReply.fields, RecordField.of, textField]
    · simp [WithdrawReply.fields, RecordField.of, textField]
  distinct := by decide
  readsSuccess := ⟨_, List.mem_of_getElem? (i := 0) rfl, fun _ _ => rfl⟩
  readsError := ⟨_, List.mem_of_getElem? (i := 1) rfl, fun _ _ => rfl⟩
  readsErrorCode := ⟨_, List.mem_of_getElem? (i := 2) rfl, fun _ _ => rfl⟩
  keeps := by
    simp only [WithdrawReply.fields, List.forall_mem_cons, List.not_mem_nil, false_imp_iff,
      implies_true, and_true]
    and_intros <;>
      first | exact Or.inl rfl | exact Or.inr (RecordField.keeps_of (fun _ => rfl) fun _ _ => rfl)
  named := rfl
  contents := by
    simp only [WithdrawReply.fields, List.forall_mem_cons, List.not_mem_nil, false_imp_iff,
      implies_true, and_true]
    and_intros <;>
      first | exact Or.inl (by decide) | exact Or.inr fun d e => Except.map_eq_error

/-! ## Replies that are accepted -/

section

variable {γ : Type} {c : Codec γ} {a : γ}

theorem decode_of_readBody {body : String} (read : readBody c body = .ok a) :
    c.decode (Json.readText body).document = .ok a := by
  obtain ⟨b, hread, hend⟩ := Except.bind_eq_ok.1 (Except.mapError_eq_ok.1 read)
  split at hend
  · cases hend
  · exact hread.trans hend

theorem envelope_of_readPrivate {method : String} {r : Http.Response}
    (success : readPrivate method c r = .ok a) :
    ∃ e, readBody (Envelope.codec c) r.body = .ok e ∧ e.success = succeeded ∧
      e.contents = some a := by
  obtain ⟨_, -, hrest⟩ := Except.bind_eq_ok.1 success
  obtain ⟨e, hread, hrest⟩ := Except.bind_eq_ok.1 hrest
  have hsucceeds : e.success = succeeded := by
    by_contra hother
    rw [if_pos hother] at hrest
    cases hrest
  rw [if_neg (not_not.2 hsucceeds)] at hrest
  refine ⟨e, hread, hsucceeds, ?_⟩
  cases hcontents : e.contents with
  | none =>
    rw [hcontents] at hrest
    cases hrest
  | some b =>
    rw [hcontents] at hrest
    exact congrArg some (Except.ok.inj hrest)

end

/-! ## Calls -/

section

variable {r : Http.Response} {members : List (String × Document)} {report : ApiError}

theorem Rejection.checkStatus (rejection : Rejection r members report) :
    checkStatus r = .ok () := by
  have hgood : r.isError = false := decide_eq_false (Nat.not_le.2 rejection.good)
  rw [TradeApi.checkStatus, hgood]
  rfl

/-- Returned contents that a codec cannot read. -/
abbrev Unreturned {β : Type} (c : Codec β) : List (String × Document) → Json.Error → Prop :=
  Unreadable (Codec.option c) ["return"]

theorem readPrivate_rejected {β : Type} (rejection : Rejection r members report) (method : String)
    (c : Codec β) :
    Fails report (Unreturned c members) (readPrivate method c r) := by
  rw [readPrivate, rejection.checkStatus]
  apply (Envelope.replyRow c).fails rejection "LegacyEnvelope" {} ⟨rfl, rfl, rfl⟩
  intro t hother
  rw [if_pos hother]
  rfl

theorem readWithdrawal_rejected (rejection : Rejection r members report) :
    Fails report (Unreadable textCodec withdrawalNames members) (Operation.readWithdrawal r) := by
  rw [Operation.readWithdrawal, readPublic, rejection.checkStatus]
  apply WithdrawReply.replyRow.fails rejection "LegacyWithdrawResponse" {} ⟨rfl, rfl, rfl⟩
  intro t hother
  rw [if_pos hother]
  rfl

end

variable {α : Type}

/-- Why a call about the user cannot read the contents of a reply. -/
def Operation.Unread (members : List (String × Document)) (cause : Json.Error) :
    Operation α → Prop
  | .authenticate | .userInfo => Unreturned AccountInfo.codec members cause
  | .userOrder _ _ => Unreturned Operation.orderMember members cause
  | .userOrdersOpen _ => Unreturned (Operation.ordersMember .value .null) members cause
  | .userOrdersClosed _ _ _ =>
    Unreturned (Operation.ordersMember (.list Order.codec) []) members cause
  | .userTrades _ => Unreturned Operation.tradesMember members cause
  | .userTransactions => Unreturned Transfers.codec members cause
  | .userWithdraw _ => Unreadable textCodec withdrawalNames members cause
  | .tradeBid _ | .tradeAsk _ => Unreturned Placement.codec members cause
  | .tradeCancelBid _ _ | .tradeCancelAsk _ _ => Unreturned Cancellation.codec members cause
  | .marketSummaries | .marketTicker _ | .marketTrades _ | .marketOrdersOpen _ | .marketInfo =>
    False

section

variable {r : Http.Response} {members : List (String × Document)} {report : ApiError}

theorem Operation.read_rejected {op : Operation α} (hprivate : op.isPrivate = true)
    (rejection : Rejection r members report) :
    Fails report (fun cause => op.Unread members cause) (op.read r) := by
  cases op with
  | marketSummaries | marketTicker | marketTrades | marketOrdersOpen | marketInfo => cases hprivate
  | authenticate | userInfo | userOrder | userOrdersClosed | userTrades | userTransactions =>
    exact readPrivate_rejected rejection _ _
  | userOrdersOpen pair => exact (readPrivate_rejected rejection _ _).bind _
  | userWithdraw request => exact readWithdrawal_rejected rejection
  | tradeBid | tradeAsk | tradeCancelBid | tradeCancelAsk =>
    exact (readPrivate_rejected rejection _ _).map _

/-- The names under which a rejection is reported do not hide what it is. -/
theorem Operation.call_rejected (op : Operation α) (s : Settings) (now : Instant)
    (transport : Transport) {q : Http.Request} (hprivate : op.isPrivate = true)
    (sent : sentBy s now transport op = [q]) (answered : transport [q] = .ok r)
    (rejection : Rejection r members report) :
    ∃ e, ((op.call s now).run transport).2 = .error e ∧
      Failure report (fun cause => op.Unread members cause) e.root := by
  obtain ⟨names, houtcome⟩ := op.outcome_of_reply sent answered
  obtain ⟨cause, hread, hfailure⟩ := Operation.read_rejected hprivate rejection
  obtain ⟨e, hnamed, hroot⟩ := Outcome.duringAll_error (α := α) names cause
  refine ⟨e, ?_, ?_⟩
  · rw [houtcome, hread, hnamed]
  · rw [hroot]
    cases hfailure with
    | reported hreadable => exact .reported hreadable
    | unread hunread => exact .unread hunread

end

/-- A call about the user that is answered by a rejection fails, with what is reported exactly if
it can read the other contents, and otherwise with a complaint about some of them. -/
theorem rejections_reported (s : Settings) (now : Instant) (transport : Transport)
    (op : Operation α) (q : Http.Request) (r : Http.Response)
    (members : List (String × Document)) (report : ApiError) (hprivate : op.isPrivate = true)
    (sent : sentBy s now transport op = [q]) (answered : transport [q] = .ok r)
    (rejection : Rejection r members report) :
    ∃ e : ClientError, ((op.call s now).run transport).2 = .error e ∧
      (e.root = .api report ↔ ∀ cause, ¬op.Unread members cause) ∧
      (e.root ≠ .api report →
        ∃ cause, op.Unread members cause ∧ e.root = .serialization cause) := by
  obtain ⟨e, hfails, hfailure⟩ := op.call_rejected s now transport hprivate sent answered rejection
  refine ⟨e, hfails, ?_⟩
  generalize e.root = root at hfailure
  cases hfailure with
  | reported hreadable => exact ⟨iff_of_true rfl hreadable, fun hother => absurd rfl hother⟩
  | @unread cause hunread =>
    constructor
    · exact iff_of_false nofun fun hreadable => hreadable cause hunread
    · intro _
      exact ⟨cause, hunread, rfl⟩

/-- A rejection that returns nothing. -/
theorem bad_sign_reported :
    let s : Settings := { token := "my-key", secret := "secr3t" }
    ∃ r : Http.Response, r.body = "\x7b\"success\":0,\"error\":\"Bad sign\"\x7d" ∧
      ∃ e : ClientError,
        ((Operation.userInfo.call s ⟨1574423788000⟩).run fun _ => .ok r).2 = .error e ∧
          e.root = .api ⟨400, "Bad sign", ""⟩ := by
  intro s
  refine ⟨⟨200, _⟩, rfl, ?_⟩
  have hrejection : Rejection ⟨200, "\x7b\"success\":0,\"error\":\"Bad sign\"\x7d"⟩
      [("success", .leaf (.number (.int 0))), ("error", .leaf (.string "Bad sign"))]
      ⟨400, "Bad sign", ""⟩ :=
    ⟨by decide, rfl, by simp, by simp [Document.passing, Leaf.passing], ⟨0, by decide, rfl⟩, rfl,
      rfl, rfl⟩
  obtain ⟨e, hfails, hreported, -⟩ := rejections_reported s ⟨1574423788000⟩ (fun _ => .ok _)
    .userInfo _ _ _ _ rfl rfl rfl hrejection
  refine ⟨e, hfails, hreported.2 ?_⟩
  rintro cause ⟨m, hm, hname, -⟩
  simp only [List.mem_cons, List.not_mem_nil, or_false] at hm hname
  rcases hm with rfl | rfl
  · simp at hname
  · simp at hname

/-- A rejection next to an empty list, where the user was expected, is not reported. -/
theorem bad_sign_beside_list_hidden :
    ¬∀ {α : Type} (s : Settings) (now : Instant) (transport : Transport) (op : Operation α)
      (q : Http.Request) (r : Http.Response) (members : List (String × Document))
      (report : ApiError), op.isPrivate = true → sentBy s now transport op = [q] →
        transport [q] = .ok r → Rejection r members report →
          ∃ e : ClientError, ((op.call s now).run transport).2 = .error e ∧
            e.root = .api report := by
  intro claimed
  have hrejection : Rejection
      ⟨200, "\x7b\"success\":0,\"error\":\"Bad sign\",\"return\":[]\x7d"⟩
      [("success", .leaf (.number (.int 0))), ("error", .leaf (.string "Bad sign")),
        ("return", .array [] none)] ⟨400, "Bad sign", ""⟩ :=
    ⟨by decide, rfl, by simp, by simp [Document.passing, Document.passingItems, Leaf.passing],
      ⟨0, by decide, rfl⟩, rfl, rfl, rfl⟩
  let s : Settings := { token := "my-key", secret := "secr3t" }
  obtain ⟨e, hfails, hreported⟩ := claimed s ⟨1574423788000⟩ (fun _ => .ok _) .userInfo _ _ _ _
    rfl rfl rfl hrejection
  obtain ⟨e', hfails', hfailure⟩ := Operation.userInfo.call_rejected s ⟨1574423788000⟩
    (fun _ => .ok _) rfl rfl rfl hrejection
  cases hfails.symm.trans hfails'
  rw [hreported] at hfailure
  cases hfailure with
  | reported hreadable =>
    apply hreadable (.content (.invalidType .sequence "a map"))
    exact ⟨("return", .array [] none), by simp, List.mem_singleton_self _, rfl⟩

end ExchangeClient.TradeApi
