import ExchangeClient.Proofs.Json.Members
import ExchangeClient.Proofs.Sending
import ExchangeClient.Proofs.Text.Trimming

/-!
# Replies with a bad status

Whoever is answered with a status from 400 on is told an error of that code. The
trade API takes its message from the reply, or the text of the reply where that
has none. The exchange's own interface takes the text of the reply only where it
is no envelope, so an envelope without a message is reported with none, whatever
else it says.
-/

namespace ExchangeClient

namespace Text

/-- A text that is not all blank. -/
def Visible (s : String) : Prop := ∃ c ∈ s.toList, isBlank c = false

/-- Of a text that is not all blank something is left. -/
theorem trim_ne_empty {s : String} (visible : Visible s) : trim s ≠ "" := by
  intro hempty
  obtain ⟨c, hc, hvisible⟩ := visible
  have hnone : trimChars s.toList = [] := by
    rw [← String.toList_ofList (l := trimChars s.toList)]
    exact congrArg String.toList hempty
  rw [trimChars_eq_nil_iff.1 hnone c hc] at hvisible
  cases hvisible

end Text

/-- A call that fails with an error of the code of a status, of which something more is known. -/
def Outcome.Reports {α : Type} (o : Outcome α) (status : Nat) (known : ApiError → Prop) : Prop :=
  ∃ (e : ClientError) (report : ApiError),
    o = .error e ∧ e.root = .api report ∧ report.code = status ∧ known report

theorem Outcome.Reports.of_root {α : Type} {o : Outcome α} {status : Nat}
    {known : ApiError → Prop} {e : ClientError} {report : ApiError} (fails : o = .error e)
    (root : e.root = .api report) (code : report.code = status) (told : known report) :
    o.Reports status known := ⟨e, report, fails, root, code, told⟩

variable {α : Type} {s : Settings} {now : Instant} {transport : Transport} {q : Http.Request}
  {r : Http.Response}

/-! ## The exchange's own interface -/

namespace RestApi

open Json

/-- A body that is an object with distinct names. -/
structure ObjectBody (body : String) (members : List (String × Document)) : Prop where
  read : Json.readText body = ⟨.object (quotedMembers members) none, false⟩
  once : (members.map (·.1)).Nodup
  wellFormed : ∀ m ∈ members, m.2.passing = none

/-- An object that gives no message, and has no other member that an envelope could not have. -/
structure Wordless (members : List (String × Document)) : Prop where
  message : memberOr .string "" "message" members = .ok ""
  name : ∃ text, memberOr .string "" "name" members = .ok text
  data : ∃ data, memberOr (.option .ignored) none "data" members = .ok data

namespace Envelope

section

variable {β : Type} (c : Codec β)

theorem loose : Record.Loose (fields c) := by
  constructor
  · simp [fields, RecordField.of, RecordField.neededInArrays]
  · simp [fields, RecordField.of, RecordField.neededInArrays]

theorem distinct : Record.Distinct (fields c) := by
  simp [fields, RecordField.of, RecordField.neededInArrays, Record.Distinct, RecordField.isCalled]

theorem shows_message : Record.Shows (fields c) "message" .string (·.message) := by
  apply Record.Shows.of (List.mem_of_getElem? (i := 0) rfl) (fun _ _ => rfl)
  simp only [fields, List.forall_mem_cons, List.not_mem_nil, false_imp_iff, implies_true, and_true]
  exact ⟨fun other => absurd rfl other,
    fun _ => RecordField.keeps_of (fun _ => rfl) fun _ _ => rfl,
    fun _ => RecordField.keeps_of (fun _ => rfl) fun _ _ => rfl⟩

theorem shows_name : Record.Shows (fields c) "name" .string (·.name) := by
  apply Record.Shows.of (List.mem_of_getElem? (i := 1) rfl) (fun _ _ => rfl)
  simp only [fields, List.forall_mem_cons, List.not_mem_nil, false_imp_iff, implies_true, and_true]
  exact ⟨fun _ => RecordField.keeps_of (fun _ => rfl) fun _ _ => rfl,
    fun other => absurd rfl other,
    fun _ => RecordField.keeps_of (fun _ => rfl) fun _ _ => rfl⟩

theorem shows_data : Record.Shows (fields c) "data" (.option c) (·.data) := by
  have hmem : (RecordField.of "data" (.option c) Envelope.data
      fun e x => { e with data := x }).neededInArrays ∈ fields c :=
    List.mem_of_getElem? (i := 2) rfl
  apply Record.Shows.of_read hmem rfl (fun _ => rfl) (fun _ _ => rfl)
  simp only [fields, List.forall_mem_cons, List.not_mem_nil, false_imp_iff, implies_true, and_true]
  exact ⟨fun _ => RecordField.keeps_of (fun _ => rfl) fun _ _ => rfl,
    fun _ => RecordField.keeps_of (fun _ => rfl) fun _ _ => rfl,
    fun other => absurd rfl other⟩

end

/-- Of an object that gives no message every member is read. -/
theorem change_ne_error {members : List (String × Document)} (wordless : Wordless members)
    (once : (members.map (·.1)).Nodup) {m : String × Document} (mem : m ∈ members)
    (wellFormed : m.2.passing = none) (e : Json.Error) :
    Record.change (fields .ignored) m ≠ .error e := by
  obtain ⟨text, hname⟩ := wordless.name
  obtain ⟨data, hdata⟩ := wordless.data
  intro hfails
  have hchange := hfails
  rw [Record.change] at hfails
  split at hfails
  · rename_i f hfound
    obtain ⟨hf, hcalled⟩ := (loose .ignored).find?_some hfound
    simp only [fields, List.mem_cons, List.not_mem_nil, or_false] at hf
    rcases hf with rfl | rfl | rfl
    · exact Record.change_ne_error (distinct _) (shows_message _) once wordless.message mem
        hcalled.symm e hchange
    · exact Record.change_ne_error (distinct _) (shows_name _) once hname mem hcalled.symm e
        hchange
    · exact Record.change_ne_error (distinct _) (shows_data _) once hdata mem hcalled.symm e
        hchange
  · rw [Record.passOver, wellFormed] at hfails
    cases hfails

end Envelope

/-- An error has no message where the body is an envelope without one. -/
theorem message_eq_empty_iff_envelope (visible : Text.Visible r.body) :
    (Envelope.error r).message = "" ↔
      ∃ e, (Envelope.codec .ignored).readText r.body = .ok e ∧ e.message = "" := by
  rw [Envelope.error]
  cases (Envelope.codec .ignored).readText r.body with
  | ok e =>
    constructor
    · intro hempty
      exact ⟨e, rfl, hempty⟩
    · rintro ⟨_, ⟨⟩, hempty⟩
      exact hempty
  | error e => exact iff_of_false (Text.trim_ne_empty visible) nofun

/-- An error has no message where the body is an object that gives none. -/
theorem message_eq_empty_iff_wordless (visible : Text.Visible r.body)
    {members : List (String × Document)} (body : ObjectBody r.body members) :
    (Envelope.error r).message = "" ↔ Wordless members := by
  have hread : (Envelope.codec .ignored).readText r.body = Record.decode "Envelope"
      (Envelope.fields .ignored) {} (.object (quotedMembers members) none) := by
    rw [Codec.readText, body.read]
    exact bind_pure _
  rw [message_eq_empty_iff_envelope visible, hread]
  rcases Record.decode_cases (Envelope.loose .ignored) (Envelope.distinct .ignored) body.once
    "Envelope" {} with ⟨t, hdecode, -, hshows⟩ | ⟨m, hm, e, hfails, hdecode⟩
  · have hmessage := hshows (Envelope.shows_message .ignored)
    have hname := hshows (Envelope.shows_name .ignored)
    rw [hdecode]
    constructor
    · rintro ⟨_, ⟨⟩, hempty⟩
      exact ⟨hempty ▸ hmessage, ⟨_, hname⟩, _, hshows (Envelope.shows_data .ignored)⟩
    · intro wordless
      exact ⟨t, rfl, Except.ok.inj (hmessage.symm.trans wordless.message)⟩
  · rw [hdecode]
    constructor
    · rintro ⟨_, hread, -⟩
      cases hread
    · intro wordless
      exact absurd hfails
        (Envelope.change_ne_error wordless body.once hm (body.wellFormed m hm) e)

theorem Envelope.read_bad {β : Type} (bad : 400 ≤ r.status) (c : Codec β) (empty : β) :
    Envelope.read c empty r = .error (.api (Envelope.error r)) := by
  rw [Envelope.read, Http.Response.isError, if_pos (decide_eq_true bad)]

/-- Every operation makes the same error of an answer with a bad status. -/
theorem Operation.conclude_bad (bad : 400 ≤ r.status) (names : List String) (op : Operation α) :
    ∃ e : ClientError, op.conclude names (.ok r) = .error e ∧ e.root = .api (Envelope.error r) := by
  have hreading : ∀ {β : Type} (a : Answer β), ∃ e : ClientError,
      Operation.reading names a (.ok r) = .error e ∧ e.root = .api (Envelope.error r) := by
    intro β a
    obtain ⟨e, hnamed, hroot⟩ :=
      Outcome.duringAll_error (α := β) names (.api (Envelope.error r))
    refine ⟨e, ?_, hroot⟩
    rw [← hnamed, ← Envelope.read_bad bad a.codec a.empty]
    rfl
  cases op with
  | tradeCancel trade =>
    obtain ⟨e, hfails, hroot⟩ := hreading ⟨TradeResult.codec, {}⟩
    refine ⟨e, ?_, hroot⟩
    rw [Operation.conclude, hfails]
    rfl
  | authenticate | marketDepths | marketInfo | marketTradesOpen | marketPrices | marketTicker
  | marketTrades | marketSummaries | userInfo | userTrades | userOrdersClosed | userOrdersOpen
  | userOrderInfo | userTransactions | userWithdraw | tradeAsk | tradeBid | tradeCancelAll
  | tradeCancelAsk | tradeCancelBid => exact hreading _

end RestApi

/-! ## The trade API -/

namespace TradeApi

/-- An error has a message where the body says anything. -/
theorem statusError_message_ne_empty (visible : Text.Visible r.body) :
    (statusError r).message ≠ "" := by
  rw [statusError]
  split
  · split
    · exact Text.trim_ne_empty visible
    · rename_i hworded
      rw [String.isEmpty_iff] at hworded
      exact hworded
  · exact Text.trim_ne_empty visible

theorem statusError_code (r : Http.Response) : (statusError r).code = r.status := by
  rw [statusError]
  split
  · split <;> rfl
  · rfl

theorem checkStatus_bad (bad : 400 ≤ r.status) :
    checkStatus r = .error (.api (statusError r)) := by
  rw [checkStatus, Http.Response.isError, if_pos (decide_eq_true bad)]

/-- Every operation makes the same error of an answer with a bad status. -/
theorem Operation.read_bad (bad : 400 ≤ r.status) (op : Operation α) :
    op.read r = .error (.api (statusError r)) := by
  have hpublic : ∀ {β : Type} (c : Json.Codec β),
      readPublic c r = .error (.api (statusError r)) := by
    intro β c
    rw [readPublic, checkStatus_bad bad]
    rfl
  have hprivate : ∀ {β : Type} (method : String) (c : Json.Codec β),
      readPrivate method c r = .error (.api (statusError r)) := by
    intro β method c
    rw [readPrivate, checkStatus_bad bad]
    rfl
  cases op with
  | marketTrades | marketOrdersOpen | marketInfo => exact hpublic _
  | marketSummaries | marketTicker =>
    rw [Operation.read, hpublic]
    rfl
  | authenticate | userInfo | userOrder | userOrdersClosed | userTrades | userTransactions =>
    exact hprivate _ _
  | userWithdraw request =>
    rw [Operation.read, Operation.readWithdrawal, hpublic]
    rfl
  | userOrdersOpen | tradeBid | tradeAsk | tradeCancelBid | tradeCancelAsk =>
    rw [Operation.read, hprivate]
    rfl

end TradeApi

/-- Every call that is answered with a bad status fails with an error of that code. If the body
says anything, so does the error of the trade API; that of the exchange's own interface does unless
the body is an envelope without a message. -/
theorem bad_statuses_reported (s : Settings) (now : Instant) (transport : Transport)
    (q : Http.Request) (r : Http.Response) (answered : transport [q] = .ok r)
    (bad : 400 ≤ r.status) :
    (∀ {α : Type} (op : RestApi.Operation α), ((op.call s now).run transport).1 = [q] →
      ((op.call s now).run transport).2.Reports r.status fun report => Text.Visible r.body →
        (report.message = "" ↔ ∃ e, (RestApi.Envelope.codec .ignored).readText r.body = .ok e ∧
          e.message = "") ∧
        ∀ members, RestApi.ObjectBody r.body members →
          (report.message = "" ↔ RestApi.Wordless members)) ∧
    ∀ {α : Type} (op : TradeApi.Operation α), ((op.call s now).run transport).1 = [q] →
      ((op.call s now).run transport).2.Reports r.status fun report => Text.Visible r.body →
        report.message ≠ "" := by
  constructor
  · intro α op sent
    rw [op.call_planned] at sent ⊢
    obtain ⟨p, -, houtcome⟩ := Conversation.outcome_of_answered sent
    obtain ⟨e, hfails, hroot⟩ := op.conclude_bad bad p.names
    rw [houtcome, answered]
    refine .of_root hfails hroot ?_ ?_
    · rw [RestApi.Envelope.error]
      split <;> rfl
    · intro visible
      exact ⟨RestApi.message_eq_empty_iff_envelope visible,
        fun members => RestApi.message_eq_empty_iff_wordless visible⟩
  · intro α op sent
    obtain ⟨names, houtcome⟩ := op.outcome_of_reply sent answered
    obtain ⟨e, hfails, hroot⟩ :=
      Outcome.duringAll_error (α := α) names (.api (TradeApi.statusError r))
    rw [op.read_bad bad, hfails] at houtcome
    exact .of_root houtcome hroot (TradeApi.statusError_code r)
      TradeApi.statusError_message_ne_empty

/-- A page of a gateway is no envelope, so its text is the message. -/
theorem bad_gateway_reported :
    let r : Http.Response := ⟨502, "Bad Gateway\n"⟩
    400 ≤ r.status ∧
      ((RestApi.Operation.marketPrices.call {} ⟨0⟩).run fun _ => .ok r).2.Reports 502
        fun report => report.message ≠ "" := by
  intro r
  have hbad : 400 ≤ r.status := by decide
  obtain ⟨e, report, hfails, hroot, hcode, hknown⟩ := (bad_statuses_reported {} ⟨0⟩
    (fun _ => .ok r) _ r rfl hbad).1 RestApi.Operation.marketPrices rfl
  refine ⟨hbad, e, report, hfails, hroot, hcode, ?_⟩
  have hvisible : Text.Visible r.body := ⟨'B', by decide, by decide⟩
  intro hempty
  obtain ⟨cause, hplain⟩ : ∃ cause, (RestApi.Envelope.codec .ignored).readText
      "Bad Gateway\n" = .error cause := ⟨_, rfl⟩
  obtain ⟨envelope, hread, -⟩ := (hknown hvisible).1.1 hempty
  cases hplain.symm.trans hread

/-- An envelope that tells its trouble under another name is reported without a message. -/
theorem error_member_unreported :
    ¬∀ {α : Type} (s : Settings) (now : Instant) (transport : Transport)
      (op : RestApi.Operation α) (q : Http.Request) (r : Http.Response),
      transport [q] = .ok r → 400 ≤ r.status → ((op.call s now).run transport).1 = [q] →
        ((op.call s now).run transport).2.Reports r.status fun report =>
          Text.Visible r.body → report.message ≠ "" := by
  intro claimed
  obtain ⟨e, report, hfails, hroot, -, hworded⟩ := claimed {} ⟨0⟩
    (fun _ => .ok ⟨500, "\x7b\"error\":\"down\"\x7d"⟩) RestApi.Operation.marketPrices _ _ rfl
    (by decide) rfl
  have hsilent : ((RestApi.Operation.marketPrices.call {} ⟨0⟩).run
      fun _ => .ok ⟨500, "\x7b\"error\":\"down\"\x7d"⟩).2 =
      .error (.during "market_prices" (.api ⟨500, "", ""⟩)) := rfl
  cases hsilent.symm.trans hfails
  cases hroot
  exact hworded ⟨'d', by decide, by decide⟩ rfl

end ExchangeClient
