import ExchangeClient.Channel.Connection
import ExchangeClient.Proofs.Channel.Verdicts

/-!
# Calls and their outcomes

The theorem on a whole run of a table: numbers are not shared, every caller is
told once and by the first signal that concerns it, and frames that concern
nobody change nothing. What a connection does to its table is such a run.
-/

namespace ExchangeClient.Channel

namespace RequestTable

theorem cancel_counter (t : RequestTable) (id : UInt64) : (t.cancel id).counter = t.counter := by
  simp only [cancel]
  split
  · exact deliver_counter _ _ _
  · rfl

theorem step_counter (t : RequestTable) (s : Signal) :
    (t.step s).counter = if s.isRequest then t.takeId.2.counter else t.counter := by
  cases s with
  | request => exact cancel_counter t.takeId.2 t.takeId.1
  | refuse => rfl
  | hear text =>
    simp only [step]
    split
    · split
      · rfl
      · simp only [resolve]
        split
        · rfl
        · exact deliver_counter _ _ _
    · rfl
  | expire m =>
    simp only [step, expire]
    split
    · exact deliver_counter _ _ _
    · rfl
  | fail => exact failAll_counter t

/-- The numbers of a run are consecutive ones. -/
theorem handedOut_eq {start : UInt64} {k : Nat} {t : RequestTable}
    (h : t.takeId.1 = numberAt start k) (signals : List Signal) :
    t.handedOut signals = (List.range' k (requests signals)).map (numberAt start) := by
  induction signals generalizing k t with
  | nil => rfl
  | cons s rest ih =>
    have counter := step_counter t s
    rw [handedOut, requests_cons]
    cases hs : s.isRequest with
    | true =>
      rw [hs, if_pos rfl] at counter
      have next := (takeId_congr counter).trans (takeId_next h)
      rw [if_pos rfl, ih next, if_pos rfl, List.range'_succ, h]
      rfl
    | false =>
      rw [hs, if_neg (by decide)] at counter
      have same := (takeId_congr counter).trans h
      rw [if_neg (by decide), ih same, if_neg (by decide)]
      rfl

theorem handedOut_append (t : RequestTable) (a b : List Signal) :
    t.handedOut (a ++ b) = t.handedOut a ++ (t.run a).handedOut b := by
  induction a generalizing t with
  | nil => rfl
  | cons s rest ih => rw [List.cons_append, handedOut, ih, handedOut, List.append_assoc, run_cons]

theorem handedOut_nodup (start : UInt64) {signals : List Signal}
    (few : requests signals ≤ numberCount) : ((starting start).handedOut signals).Nodup := by
  rw [handedOut_eq (takeId_starting start)]
  refine (List.nodup_map_iff_inj_on List.nodup_range').mpr ?_
  intro k hk l hl heq
  rw [List.mem_range'_1] at hk hl
  exact numberAt_inj (by omega) (by omega) heq

theorem broadcastId_not_handedOut (start : UInt64) (signals : List Signal) :
    ReplyFrame.broadcastId ∉ (starting start).handedOut signals := by
  rw [handedOut_eq (takeId_starting start)]
  intro h
  obtain ⟨k, _, heq⟩ := List.mem_map.mp h
  exact numberAt_ne_broadcast start k heq

/-- A text that is no frame, a broadcast, or a frame for nobody. -/
theorem step_hear_unclaimed {t : RequestTable} {text : String}
    (unclaimed : ∀ frame, ReplyFrame.ofText? text = some frame →
      frame.id = ReplyFrame.broadcastId ∨ frame.id ∉ t.pending.map (·.1)) :
    t.step (.hear text) = t := by
  cases hf : ReplyFrame.ofText? text with
  | none => simp only [step, hf]
  | some frame =>
    rcases unclaimed frame hf with zero | absent
    · simp only [step, hf, ReplyFrame.isBroadcast, zero, beq_self_eq_true, if_true]
    · have nobody := (find?_none_iff t frame.id).mpr absent
      simp only [step, hf, resolve, nobody, ite_self]

/-- What a caller finds at the end of a run, from the moment of its request. -/
theorem caller_finds_first_verdict {start : UInt64} {before after : List Signal}
    (few : requests (before ++ .request :: after) ≤ numberCount) :
    let asked := (starting start).run before
    let id := asked.takeId.1
    let caller := asked.mailboxes.length
    let t := (starting start).run (before ++ .request :: after)
    t.mailboxes[caller]? = some ((after.findSome? (Signal.verdict? id caller)).getD .waiting) ∧
      (id ∈ t.pending.map (·.1) ↔ t.mailboxes[caller]? = some .waiting) := by
  intro asked id caller t
  have counted : requests before + (requests after + 1) ≤ numberCount := by
    rw [requests_append, requests_cons] at few
    exact few
  have sound := (starting_sound start).run before (by omega)
  have opened := sound.step_request (by omega)
  have listed : (id, caller) ∈ (asked.step .request).pending := by
    rw [step_request (sound.fresh (by omega))]
    exact List.mem_append_right _ List.mem_cons_self
  have split : t = (asked.step .request).run after := run_append _ before _
  obtain ⟨finds, number⟩ := opened.run_pending after (by omega) listed
  rw [split]
  refine ⟨finds, number.trans ?_⟩
  rw [finds]
  cases hv : after.findSome? (Signal.verdict? id caller) with
  | none => simp
  | some x =>
    obtain ⟨_, s, _, _, told, _⟩ := List.findSome?_eq_some_iff.mp hv
    simpa using verdict_told told

end RequestTable

namespace Connection

variable {α : Type}

/-- What an event means for the table of a connection. -/
def signal? (c : Connection α) : Event → Option Signal
  | .ask _ => some (if c.isClosed then .refuse else .request)
  | .write => none
  | .tear => if c.isUp && !c.queue.isEmpty then some .fail else none
  | .receive text => if c.isUp then some (.hear text) else none
  | .expire mailbox => some (.expire mailbox)
  | .lose => if c.isUp then some .fail else none
  | .connect _ => none
  | .close => if c.isClosed then none else some .fail
  | .stop => if c.isClosed && c.isUp then some .fail else none

def signals (hear : ReplyFrame → Option α) (c : Connection α) : List Event → List Signal
  | [] => []
  | e :: rest => (c.signal? e).toList ++ signals hear (c.step hear e) rest

/-- Only the queue and what was taken out of it change when a request is taken. -/
theorem takeTurn_kept (c : Connection α) (wentOut : Bool) :
    (c.takeTurn wentOut).table = c.table ∧ (c.takeTurn wentOut).link = c.link ∧
      (c.takeTurn wentOut).isClosed = c.isClosed := by
  simp only [takeTurn]
  split <;> exact ⟨rfl, rfl, rfl⟩

theorem lose_table (c : Connection α) :
    c.lose.table = if c.isUp then c.table.failAll else c.table := by
  simp only [lose]
  split <;> rfl

theorem step_table (hear : ReplyFrame → Option α) (c : Connection α) (e : Event) :
    (c.step hear e).table = c.table.run (c.signal? e).toList := by
  cases e with
  | ask a =>
    by_cases hc : c.isClosed
    · simp [step, ask, signal?, hc, RequestTable.step]
    · simp [step, ask, signal?, hc, RequestTable.step]
  | write =>
    simp only [step, write, signal?]
    split
    · exact (takeTurn_kept c true).1
    · rfl
  | tear =>
    obtain ⟨htable, hlink, -⟩ := takeTurn_kept c false
    have up : (c.takeTurn false).isUp = c.isUp := by rw [isUp, hlink, isUp]
    by_cases hu : c.isUp && !c.queue.isEmpty
    · have hup : c.isUp = true := (Bool.and_eq_true_iff.1 hu).1
      simp only [step, tear, signal?, if_pos hu]
      rw [lose_table, up, if_pos hup, htable]
      rfl
    · simp only [step, tear, signal?, if_neg hu]
      rfl
  | receive text =>
    by_cases hu : c.isUp
    · cases hf : ReplyFrame.codec.readText text with
      | error e =>
        simp [step, receive, signal?, hu, hf, RequestTable.step, ReplyFrame.ofText?,
          Except.toOption]
      | ok frame =>
        by_cases hb : frame.isBroadcast
        · simp [step, receive, dispatch, signal?, hu, hf, hb, RequestTable.step,
            ReplyFrame.ofText?, Except.toOption]
        · simp [step, receive, dispatch, signal?, hu, hf, hb, RequestTable.step,
            ReplyFrame.ofText?, Except.toOption]
    · simp [step, receive, signal?, hu]
  | expire mailbox => rfl
  | lose =>
    by_cases hu : c.isUp
    · simp [step, signal?, lose_table, hu, RequestTable.step]
    · simp [step, signal?, lose_table, hu]
  | connect made =>
    simp only [step, connect, signal?]
    split <;> rfl
  | close =>
    by_cases hc : c.isClosed
    · simp [step, close, signal?, hc]
    · simp [step, close, signal?, hc, RequestTable.step]
  | stop =>
    by_cases hc : c.isClosed
    · by_cases hu : c.isUp
      · simp [step, stop, signal?, lose_table, hc, hu, RequestTable.step]
      · simp [step, stop, signal?, lose_table, hc, hu]
    · simp [step, stop, signal?, hc]

theorem run_table (hear : ReplyFrame → Option α) (c : Connection α) (events : List Event) :
    (run hear c events).table = c.table.run (signals hear c events) := by
  induction events generalizing c with
  | nil => rfl
  | cons e rest ih =>
    rw [signals, RequestTable.run_append, ← step_table]
    exact ih (c.step hear e)

/-- A caller whose number goes to a later request is told that the connection is closed. -/
theorem displaced_told_closed {c : Connection α} {mailbox : Nat} (isOpen : c.isClosed = false)
    (pending : c.table.find? c.table.takeId.1 = some mailbox)
    (waits : c.table.mailboxes[mailbox]? = some .waiting) (a : Ask) :
    (c.ask a).outcome? mailbox = some (.error .connectionClosed) := by
  have found : c.table.takeId.2.find? c.table.takeId.1 = some mailbox := pending
  have deserted : (c.table.takeId.2.cancel c.table.takeId.1).mailboxes[mailbox]? =
      some .deserted := by
    simp only [RequestTable.cancel, found]
    rw [RequestTable.deliver_mailbox]
    exact if_pos ⟨rfl, waits⟩
  have kept : (c.ask a).table.mailboxes[mailbox]? = some .deserted := by
    simp only [ask, isOpen, Bool.false_eq_true, if_false, RequestTable.register]
    exact (List.getElem?_append_left (List.getElem?_eq_some_iff.mp deserted).1).trans deserted
  rw [outcome?, kept]

end Connection

namespace RequestTable

/-- Along any run of fewer requests than there are numbers: no two requests share
a number and none has that of broadcasts; a caller finds the first verdict that
came after its request, which for a reply is the first frame with its number, and
its number is pending exactly until then; what it once found stays; a text that
is no frame or a frame for nobody changes nothing; a failure empties the table
and tells exactly those that still wait. The table of a connection runs so. -/
theorem callers_told_once (start : UInt64) (signals : List Signal)
    (few : requests signals < numberCount) :
    let t := (starting start).run signals
    ((starting start).handedOut signals).Nodup ∧
    ReplyFrame.broadcastId ∉ (starting start).handedOut signals ∧
    (∀ before after : List Signal, signals = before ++ .request :: after →
      let asked := (starting start).run before
      let id := asked.takeId.1
      let caller := asked.mailboxes.length
      t.mailboxes[caller]? =
          some ((after.findSome? (Signal.verdict? id caller)).getD .waiting) ∧
        (id ∈ t.pending.map (·.1) ↔ t.mailboxes[caller]? = some .waiting)) ∧
    (∀ (before after : List Signal) (caller : Nat) (found : Mailbox),
      signals = before ++ after → found ≠ .waiting →
      ((starting start).run before).mailboxes[caller]? = some found →
      t.mailboxes[caller]? = some found) ∧
    (∀ text : String, (∀ frame, ReplyFrame.ofText? text = some frame →
        frame.id = ReplyFrame.broadcastId ∨ frame.id ∉ t.pending.map (·.1)) →
      t.step (.hear text) = t) ∧
    (t.step .fail).pending = [] ∧
    (∀ caller : Nat, (t.step .fail).mailboxes[caller]? =
      if t.mailboxes[caller]? = some .waiting then some .failed else t.mailboxes[caller]?) ∧
    (∀ (α : Type) (hear : ReplyFrame → Option α) (events : List Event),
      Connection.signals hear (.fresh start) events = signals →
      (Connection.run hear (.fresh start) events).table = t) := by
  intro t
  have sound := (starting_sound start).run signals (by omega)
  refine ⟨handedOut_nodup start (by omega), broadcastId_not_handedOut start signals, ?_, ?_,
    fun text => step_hear_unclaimed, failAll_pending t, ?_, ?_⟩
  · rintro before after rfl
    exact caller_finds_first_verdict (by omega)
  · rintro before after caller found rfl told early
    have later := run_settled early told after
    rw [← run_append] at later
    exact later
  · intro caller
    have pending := sound.waiting_iff caller
    by_cases hw : t.mailboxes[caller]? = some .waiting
    · rw [if_pos hw]
      exact (failAll_mailbox t caller).trans (if_pos ⟨pending.mpr hw, hw⟩)
    · rw [if_neg hw]
      exact (failAll_mailbox t caller).trans (if_neg fun h => hw h.2)
  · rintro α hear events rfl
    exact Connection.run_table hear (.fresh start) events

/-- The second of two callers around the end of the numbers, answered as number one. -/
theorem second_caller_past_zero_answered :
    let after := [.hear "\x7b\"id\":1,\"code\":200\x7d", .expire 0, .fail]
    requests (.request :: .request :: after) < numberCount ∧
      ((starting 0xffffffffffffffff).run (.request :: .request :: after)).mailboxes[1]? =
        some (.answered { id := 1, code := 200 }) := by
  intro after
  have few : requests (.request :: .request :: after) < numberCount := by decide
  obtain ⟨_, _, finds, _⟩ := callers_told_once 0xffffffffffffffff _ few
  refine ⟨few, (finds [.request] after rfl).1.trans ?_⟩
  decide +kernel

end RequestTable
end ExchangeClient.Channel
