import ExchangeClient.Proofs.Channel.Calls

/-!
# Requests on the wire

Frames leave the queue in the order of their requests and each at most once. The
queue does not know what callers were told, so a request whose call failed is
still written as long as it is queued and there may be another socket.
-/

namespace ExchangeClient.Channel.Connection

variable {α : Type}

/-- The frame that an event puts into the queue. -/
def post? (c : Connection α) : Event → Option RequestFrame
  | .ask a =>
    if c.isClosed then none
    else some (.carrying c.table.takeId.1 a.method a.target a.params)
  | _ => none

/-- The frames of the requests along a run, the first one first. -/
def posted (hear : ReplyFrame → Option α) (c : Connection α) : List Event → List RequestFrame
  | [] => []
  | e :: rest => (c.post? e).toList ++ posted hear (c.step hear e) rest

/-- The frames that left the queue and those that are in it. -/
def frames (c : Connection α) : List RequestFrame := c.taken.map (·.frame) ++ c.queue

/-- Where the next request will stand among all frames. -/
def nextTurn (c : Connection α) : Nat := c.taken.length + c.queue.length

/-- Whether the request that stands somewhere among all frames was written. -/
def wroteTurn (c : Connection α) (i : Nat) : Bool := (c.taken[i]?).any (·.wentOut)

theorem run_append (hear : ReplyFrame → Option α) (c : Connection α) (a b : List Event) :
    run hear c (a ++ b) = run hear (run hear c a) b := List.foldl_append

theorem run_cons (hear : ReplyFrame → Option α) (c : Connection α) (e : Event)
    (rest : List Event) : run hear c (e :: rest) = run hear (c.step hear e) rest := rfl

theorem frames_length (c : Connection α) : c.frames.length = c.nextTurn := by
  simp [frames, nextTurn]

/-- What a step may do to the queue and to what left it: nothing, or one turn of a socket. -/
inductive Turned (c c' : Connection α) : Prop where
  | kept (queue : c'.queue = c.queue) (taken : c'.taken = c.taken)
  | turn (up : c.link = .up) (t : Turn) (attempt : t.attempt = c.attempts)
      (queue : c.queue = t.frame :: c'.queue) (taken : c'.taken = c.taken ++ [t])

theorem Turned.frames_eq {c c' : Connection α} (turned : Turned c c') : c'.frames = c.frames := by
  cases turned with
  | kept queue taken => rw [frames, frames, queue, taken]
  | turn up t attempt queue taken => simp [frames, queue, taken]

theorem lose_turned (c : Connection α) : Turned c c.lose := by
  simp only [lose]
  split <;> exact .kept rfl rfl

theorem receive_turned (hear : ReplyFrame → Option α) (c : Connection α) (text : String) :
    Turned c (c.receive hear text) := by
  simp only [receive]
  split
  · split
    · simp only [dispatch]
      split <;> exact .kept rfl rfl
    · exact .kept rfl rfl
  · exact .kept rfl rfl

theorem takeTurn_turned {c : Connection α} (up : c.isUp = true) (wentOut : Bool) :
    Turned c (c.takeTurn wentOut) := by
  simp only [takeTurn]
  split
  · exact .kept rfl rfl
  · rename_i frame rest hq
    exact .turn (by simpa [isUp] using up) ⟨c.attempts, frame, wentOut⟩ rfl hq rfl

theorem tear_turned (c : Connection α) : Turned c c.tear := by
  simp only [tear]
  split
  · rename_i h
    have torn := takeTurn_turned (Bool.and_eq_true_iff.1 h).1 false
    have queue : (c.takeTurn false).lose.queue = (c.takeTurn false).queue := by
      simp only [lose]
      split <;> rfl
    have taken : (c.takeTurn false).lose.taken = (c.takeTurn false).taken := by
      simp only [lose]
      split <;> rfl
    cases torn with
    | kept q t => exact .kept (queue.trans q) (taken.trans t)
    | turn up t attempt q more =>
      exact .turn up t attempt (q.trans (by rw [queue])) (taken.trans more)
  · exact .kept rfl rfl

/-- Every step but a request is a turn of a socket or leaves all frames alone. -/
theorem step_turned (hear : ReplyFrame → Option α) (c : Connection α) (e : Event)
    (quiet : c.post? e = none) : Turned c (c.step hear e) := by
  cases e with
  | ask a =>
    by_cases hc : c.isClosed
    · exact .kept (by simp [step, ask, hc]) (by simp [step, ask, hc])
    · simp [post?, hc] at quiet
  | write =>
    simp only [step, write]
    split
    · exact takeTurn_turned (by assumption) true
    · exact .kept rfl rfl
  | tear => exact tear_turned c
  | receive text => exact receive_turned hear c text
  | expire mailbox => exact .kept rfl rfl
  | lose => exact lose_turned c
  | connect made =>
    simp only [step, connect]
    split <;> exact .kept rfl rfl
  | close =>
    simp only [step, close]
    split <;> exact .kept rfl rfl
  | stop =>
    simp only [step, stop]
    split
    · cases lose_turned c with
      | kept queue taken => exact .kept queue taken
      | turn up t attempt queue taken => exact .turn up t attempt queue taken
    · exact .kept rfl rfl

/-- A request is queued behind all others. -/
theorem step_posts (hear : ReplyFrame → Option α) {c : Connection α} {e : Event}
    {frame : RequestFrame} (posts : c.post? e = some frame) :
    (c.step hear e).queue = c.queue ++ [frame] ∧ (c.step hear e).taken = c.taken := by
  cases e with
  | ask a =>
    by_cases hc : c.isClosed
    · simp [post?, hc] at posts
    · simp only [post?, hc, Bool.false_eq_true, if_false, Option.some.injEq] at posts
      simp [step, ask, hc, ← posts]
  | _ => simp [post?] at posts

/-- A step adds the frame of its request at the end and takes none away. -/
theorem step_frames (hear : ReplyFrame → Option α) (c : Connection α) (e : Event) :
    (c.step hear e).frames = c.frames ++ (c.post? e).toList := by
  cases hp : c.post? e with
  | none =>
    rw [(step_turned hear c e hp).frames_eq]
    exact (List.append_nil _).symm
  | some frame =>
    obtain ⟨queue, taken⟩ := step_posts hear hp
    rw [frames, frames, queue, taken, ← List.append_assoc]
    rfl

theorem run_frames (hear : ReplyFrame → Option α) (c : Connection α) (events : List Event) :
    (run hear c events).frames = c.frames ++ posted hear c events := by
  induction events generalizing c with
  | nil => simp [run, posted]
  | cons e rest ih =>
    rw [run_cons, ih, step_frames, posted, List.append_assoc]

/-- A step takes one frame out of the queue or none, and only while there is a socket. -/
theorem step_taken (hear : ReplyFrame → Option α) (c : Connection α) (e : Event) :
    (c.step hear e).taken = c.taken ∨
      c.link = .up ∧ ∃ t : Turn, t.attempt = c.attempts ∧
        (c.step hear e).taken = c.taken ++ [t] := by
  cases hp : c.post? e with
  | none =>
    cases step_turned hear c e hp with
    | kept queue taken => exact Or.inl taken
    | turn up t attempt queue taken => exact Or.inr ⟨up, t, attempt, taken⟩
  | some frame => exact Or.inl (step_posts hear hp).2

/-- What left the queue stays at its place. -/
theorem run_taken (hear : ReplyFrame → Option α) (c : Connection α) (events : List Event) :
    c.taken <+: (run hear c events).taken := by
  induction events generalizing c with
  | nil => exact List.prefix_rfl
  | cons e rest ih =>
    have first : c.taken <+: (c.step hear e).taken := by
      rcases step_taken hear c e with same | ⟨_, t, _, more⟩
      · exact same ▸ List.prefix_rfl
      · rw [more]
        exact List.prefix_append _ _
    exact first.trans (ih (c.step hear e))

/-- What had its turn is written from then on only if it was written before. -/
theorem run_wroteTurn (hear : ReplyFrame → Option α) (c : Connection α) (events : List Event)
    {i : Nat} (past : i < c.taken.length) : (run hear c events).wroteTurn i = c.wroteTurn i := by
  obtain ⟨more, hmore⟩ := run_taken hear c events
  rw [wroteTurn, wroteTurn, ← hmore, List.getElem?_append_left past]

/-- Nothing is written once the driver has ended, and it does not start again. -/
theorem step_ended {c : Connection α} (ended : c.link = .ended) (hear : ReplyFrame → Option α)
    (e : Event) : (c.step hear e).link = .ended ∧ (c.step hear e).taken = c.taken := by
  have down : c.isUp = false := by simp [isUp, ended]
  have kept : (c.step hear e).taken = c.taken := by
    rcases step_taken hear c e with same | ⟨up, _⟩
    · exact same
    · rw [ended] at up
      cases up
  refine ⟨?_, kept⟩
  cases e with
  | ask a =>
    simp only [step, ask]
    split <;> exact ended
  | write => simpa [step, write, down] using ended
  | tear => simpa [step, tear, down] using ended
  | receive text => simpa [step, receive, down] using ended
  | expire mailbox => exact ended
  | lose => simpa [step, lose, down] using ended
  | connect made => simp [step, connect, ended]
  | close =>
    simp only [step, close]
    split <;> exact ended
  | stop =>
    simp only [step, stop]
    split
    · rfl
    · exact ended

theorem run_ended {c : Connection α} (ended : c.link = .ended) (hear : ReplyFrame → Option α)
    (events : List Event) : (run hear c events).taken = c.taken := by
  induction events generalizing c with
  | nil => rfl
  | cons e rest ih =>
    obtain ⟨still, kept⟩ := step_ended ended hear e
    exact (ih still).trans kept

/-- A driver with a socket writes one queued frame after the other. -/
theorem run_writes {c : Connection α} (up : c.link = .up) (hear : ReplyFrame → Option α)
    {n : Nat} (enough : n < c.queue.length) :
    (run hear c (List.replicate (n + 1) .write)).wroteTurn (c.taken.length + n) = true := by
  induction n generalizing c with
  | zero =>
    cases hq : c.queue with
    | nil => rw [hq] at enough; simp at enough
    | cons frame rest => simp [run, step, write, takeTurn, hq, isUp, up, wroteTurn]
  | succ n ih =>
    rw [List.replicate_succ, run_cons]
    cases hq : c.queue with
    | nil => rw [hq] at enough; simp at enough
    | cons frame rest =>
      have wrote : c.step hear .write =
          { c with queue := rest, taken := c.taken ++ [⟨c.attempts, frame, true⟩] } := by
        simp [step, write, takeTurn, hq, isUp, up]
      have position : c.taken.length + (n + 1) = (c.step hear .write).taken.length + n := by
        rw [wrote]
        simp only [List.length_append, List.length_singleton]
        omega
      rw [hq, List.length_cons] at enough
      rw [position]
      exact ih (by rw [wrote]; exact up) (by rw [wrote]; exact Nat.lt_of_succ_lt_succ enough)

/-- Whatever is queued can still be written, unless the driver has ended. -/
theorem queued_can_be_written {c : Connection α} (hear : ReplyFrame → Option α)
    (alive : c.link ≠ .ended) {n : Nat} (enough : n < c.queue.length) :
    ∃ events, (run hear c events).wroteTurn (c.taken.length + n) = true := by
  cases hl : c.link with
  | up => exact ⟨_, run_writes hl hear enough⟩
  | down =>
    have made : c.step hear (.connect true) =
        { c with attempts := c.attempts + 1, link := .up } := by
      simp [step, connect, hl]
    refine ⟨.connect true :: List.replicate (n + 1) .write, ?_⟩
    rw [run_cons, made]
    exact run_writes rfl hear enough
  | ended => exact absurd hl alive

theorem post_id (c : Connection α) (e : Event) :
    (c.post? e).toList.map (·.id) = c.table.handedOut (c.signal? e).toList := by
  cases e with
  | ask a => by_cases hc : c.isClosed <;> simp [post?, signal?, hc, RequestFrame.carrying,
      RequestTable.handedOut, Signal.isRequest]
  | write => rfl
  | tear => by_cases ht : c.isUp && !c.queue.isEmpty <;> simp only [post?, signal?, ht] <;> rfl
  | receive text => by_cases hu : c.isUp <;> simp [post?, signal?, hu, RequestTable.handedOut,
      Signal.isRequest]
  | expire mailbox => rfl
  | lose => by_cases hu : c.isUp <;> simp [post?, signal?, hu, RequestTable.handedOut,
      Signal.isRequest]
  | connect made => rfl
  | close => by_cases hc : c.isClosed <;> simp [post?, signal?, hc, RequestTable.handedOut,
      Signal.isRequest]
  | stop => by_cases hs : c.isClosed && c.isUp <;> simp [post?, signal?, hs,
      RequestTable.handedOut, Signal.isRequest]

/-- Frames carry the numbers that the table handed out. -/
theorem posted_ids (hear : ReplyFrame → Option α) (c : Connection α) (events : List Event) :
    (posted hear c events).map (·.id) = c.table.handedOut (signals hear c events) := by
  induction events generalizing c with
  | nil => rfl
  | cons e rest ih =>
    rw [posted, signals, List.map_append, ih, post_id, RequestTable.handedOut_append, step_table]

/-- What was written are frames in the order of their requests. -/
theorem written_sublist (c : Connection α) : (c.written.map (·.2)).Sublist c.frames := by
  have kept : ((c.taken.filter (·.wentOut)).map (·.frame)).Sublist (c.taken.map (·.frame)) :=
    List.filter_sublist.map _
  rw [written, List.map_map]
  exact kept.trans (List.sublist_append_left _ _)

/-- A frame is written from some moment on only if it was queued then and the driver had not
ended. -/
theorem written_later_iff (hear : ReplyFrame → Option α) {c : Connection α} {i : Nat}
    (posted : i < c.nextTurn) :
    (∃ later, c.wroteTurn i = false ∧ (run hear c later).wroteTurn i = true) ↔
      c.taken.length ≤ i ∧ c.link ≠ .ended := by
  constructor
  · rintro ⟨later, before, wrote⟩
    constructor
    · by_contra past
      rw [run_wroteTurn hear c later (Nat.lt_of_not_le past), before] at wrote
      exact Bool.false_ne_true wrote
    · intro ended
      rw [wroteTurn, run_ended ended, ← wroteTurn, before] at wrote
      exact Bool.false_ne_true wrote
  · rintro ⟨queued, alive⟩
    obtain ⟨n, rfl⟩ := Nat.exists_eq_add_of_le queued
    have inside : n < c.queue.length := Nat.lt_of_add_lt_add_left posted
    have before : c.wroteTurn (c.taken.length + n) = false := by
      rw [wroteTurn, List.getElem?_eq_none (Nat.le_add_right _ _)]
      rfl
    obtain ⟨later, wrote⟩ := queued_can_be_written hear alive inside
    exact ⟨later, before, wrote⟩

/-- Along any run frames leave the queue in the order of their requests, so that each
is written once at most, and frames of different requests differ as long as
numbers do. Whatever its caller was told, the frame of a request is written from
then on only if it was still queued and the driver had not ended; and then it
can be. -/
theorem frames_written_once (hear : ReplyFrame → Option α) (start : UInt64)
    (events : List Event) :
    let c := run hear (.fresh start) events
    c.taken.map (·.frame) ++ c.queue = posted hear (.fresh start) events ∧
    (c.written.map (·.2)).Sublist (posted hear (.fresh start) events) ∧
    (RequestTable.requests (signals hear (.fresh start) events) < RequestTable.numberCount →
      (c.written.map (·.2.id)).Nodup) ∧
    (∀ (before after : List Event) (a : Ask), events = before ++ .ask a :: after →
      let asked := run hear (.fresh start) before
      asked.isClosed = false →
      (posted hear (.fresh start) events)[asked.nextTurn]? =
          some (.carrying asked.table.takeId.1 a.method a.target a.params) ∧
        ((∃ later, c.wroteTurn asked.nextTurn = false ∧
            (run hear c later).wroteTurn asked.nextTurn = true) ↔
          c.taken.length ≤ asked.nextTurn ∧ c.link ≠ .ended)) := by
  intro c
  have order : c.frames = posted hear (.fresh start) events := run_frames hear (.fresh start) events
  have part := written_sublist c
  rw [order] at part
  refine ⟨order, part, ?_, ?_⟩
  · intro few
    have ids := part.map (·.id)
    rw [posted_ids, List.map_map] at ids
    exact (RequestTable.handedOut_nodup start (by omega)).sublist ids
  · rintro before after a rfl asked isOpen
    have all := run_frames hear asked (.ask a :: after)
    have frame : asked.post? (.ask a) =
        some (.carrying asked.table.takeId.1 a.method a.target a.params) := by
      simp [post?, isOpen]
    have here : c.frames[asked.nextTurn]? =
        some (.carrying asked.table.takeId.1 a.method a.target a.params) := by
      rw [show c = run hear asked (.ask a :: after) from run_append hear _ before _, all, posted,
        frame, ← frames_length, List.getElem?_append_right (Nat.le_refl _)]
      simp
    have inside := (List.getElem?_eq_some_iff.mp here).1
    rw [frames_length] at inside
    rw [← order]
    exact ⟨here, written_later_iff hear inside⟩

/-- A caller gave up while there was no socket; its request is written by the next one. -/
theorem written_after_timeout :
    ¬ ∀ (before after later : List Event) (a : Ask),
      let hear : ReplyFrame → Option Unit := fun _ => none
      let asked := run hear (.fresh 1) before
      let c := run hear (.fresh 1) (before ++ .ask a :: after)
      asked.isClosed = false →
      c.outcome? asked.table.mailboxes.length = some (.error .timeout) ∨
        c.outcome? asked.table.mailboxes.length = some (.error .connectionClosed) →
      ¬ (c.wroteTurn asked.nextTurn = false ∧
        (run hear c later).wroteTurn asked.nextTurn = true) := by
  intro never
  refine never [.lose] [.expire 0] [.connect true, .write]
    ⟨.delete, "/v2/ws/subscription", some { depths := ["ten_btc"] }⟩ rfl (Or.inl rfl) ⟨?_, ?_⟩
  · decide +kernel
  · decide +kernel

/-- The same request, found by the theorem: told of its time limit and still queued. -/
theorem abandoned_request_can_be_written :
    let hear : ReplyFrame → Option Unit := fun _ => none
    let c := run hear (.fresh 1) [.lose, .ask ⟨.get, "/v2/user/info", none⟩, .expire 0]
    RequestTable.requests
        (signals hear (.fresh 1) [.lose, .ask ⟨.get, "/v2/user/info", none⟩, .expire 0]) <
      RequestTable.numberCount ∧ (c.written.map (·.2.id)).Nodup ∧
    c.outcome? 0 = some (.error .timeout) ∧
      ∃ later, c.wroteTurn 0 = false ∧ (run hear c later).wroteTurn 0 = true := by
  intro hear c
  obtain ⟨_, _, distinct, exact⟩ := frames_written_once hear 1
    [.lose, .ask ⟨.get, "/v2/user/info", none⟩, .expire 0]
  have few : RequestTable.requests
      (signals hear (.fresh 1) [.lose, .ask ⟨.get, "/v2/user/info", none⟩, .expire 0]) <
    RequestTable.numberCount := by decide +kernel
  have told : c.outcome? 0 = some (.error .timeout) := rfl
  have possible := (exact [.lose] [.expire 0] ⟨.get, "/v2/user/info", none⟩ rfl rfl).2
  exact ⟨few, distinct few, told, possible.mpr ⟨by decide +kernel, by decide +kernel⟩⟩

end ExchangeClient.Channel.Connection
