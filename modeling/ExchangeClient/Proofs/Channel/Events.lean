import ExchangeClient.Channel.Private
import ExchangeClient.Proofs.Channel.Calls
import ExchangeClient.Proofs.Results

/-!
# Events in the order of their broadcasts

What was read of a channel and what waits to be read are the events of the
broadcasts that came, in their order and each of them once. A broadcast leaves no
event only if the channel does not listen to its topic, its contents cannot be
read, or the feed was full when it came.
-/

namespace ExchangeClient.Channel

/-- What a channel listens to: a topic, and how that is read which is told about it. -/
structure Subject (α : Type) where
  topic : String
  read : ReplyFrame → Outcome α

def publicSubjects : List (Subject PublicEvent) :=
  [⟨"/v2/market/trades", fun f => (f.decode Trade.codec {}).map .trade⟩,
    ⟨"/v2/market/trades/open", fun f => (f.decode Trade.codec {}).map .trade⟩,
    ⟨"/v2/market/depths", fun f => (f.decode OrderBook.codec {}).map .depths⟩]

def privateSubjects : List (Subject Trade) :=
  [⟨"/v2/user/orders/closed", fun f => f.decode Trade.codec {}⟩]

section

variable {α : Type}

/-- A frame tells an event of a subject. -/
def Tells (subjects : List (Subject α)) (f : ReplyFrame) (e : α) : Prop :=
  ∃ s ∈ subjects, s.topic = f.topic ∧ s.read f = .ok e

/-- No subject has the topic of a frame. -/
def OffTopic (subjects : List (Subject α)) (f : ReplyFrame) : Prop :=
  ∀ s ∈ subjects, s.topic ≠ f.topic

/-- The contents of a frame are not what its topic is read as. -/
def Garbled (subjects : List (Subject α)) (f : ReplyFrame) : Prop :=
  ∃ s ∈ subjects, s.topic = f.topic ∧ ∃ cause, s.read f = .error cause

/-- Events are made of the frames that tell one. -/
structure Listens (hear : ReplyFrame → Option α) (subjects : List (Subject α)) : Prop where
  distinct : (subjects.map (·.topic)).Nodup
  hears : ∀ f e, hear f = some e ↔ Tells subjects f e

theorem Listens.hear_eq_none {hear : ReplyFrame → Option α} {subjects : List (Subject α)}
    (listens : Listens hear subjects) (f : ReplyFrame) :
    hear f = none ↔ OffTopic subjects f ∨ Garbled subjects f := by
  constructor
  · intro hnone
    by_cases htopic : OffTopic subjects f
    · exact Or.inl htopic
    · simp only [OffTopic, ne_eq, not_forall, not_not] at htopic
      obtain ⟨s, hs, hsame⟩ := htopic
      cases hread : s.read f with
      | error cause => exact Or.inr ⟨s, hs, hsame, cause, hread⟩
      | ok e =>
        have htells := (listens.hears f e).2 ⟨s, hs, hsame, hread⟩
        rw [hnone] at htells
        cases htells
  · intro hsilent
    cases hheard : hear f with
    | none => rfl
    | some e =>
      obtain ⟨s, hs, hsame, hread⟩ := (listens.hears f e).1 hheard
      rcases hsilent with hoff | ⟨t, ht, hother, cause, hcause⟩
      · exact absurd hsame (hoff s hs)
      · cases List.inj_on_of_nodup_map listens.distinct hs ht (hsame.trans hother.symm)
        cases hread.symm.trans hcause

end

theorem publicSubjects_listened : Listens PublicEvent.ofBroadcast? publicSubjects where
  distinct := by decide
  hears := by
    intro f e
    simp only [Tells, publicSubjects, List.exists_mem_cons_iff, List.not_mem_nil, false_and,
      exists_false, or_false, Except.map_eq_ok]
    rw [PublicEvent.ofBroadcast?]
    split
    · simp_all [Option.map_eq_some_iff, Except.toOption_eq_some]
    · simp_all [Option.map_eq_some_iff, Except.toOption_eq_some]
    · simp_all [Option.map_eq_some_iff, Except.toOption_eq_some]
    · rename_i htrades hopen hdepths
      refine iff_of_false nofun ?_
      rintro (⟨hsame, -⟩ | ⟨hsame, -⟩ | ⟨hsame, -⟩)
      · exact htrades hsame.symm
      · exact hopen hsame.symm
      · exact hdepths hsame.symm

theorem privateSubjects_listened : Listens closedOrder? privateSubjects where
  distinct := by decide
  hears := by
    intro f e
    simp only [Tells, privateSubjects, List.exists_mem_cons_iff, List.not_mem_nil, false_and,
      exists_false, or_false]
    rw [closedOrder?, Option.ite_none_right_eq_some, Except.toOption_eq_some, eq_comm]

/-! ## Feeds -/

namespace Feed

variable {α : Type}

theorem offer_length {f : Feed α} (bounded : f.queued.length ≤ capacity) (event : Option α) :
    (f.offer event).queued.length ≤ capacity := by
  cases event with
  | none => exact bounded
  | some e =>
    rw [offer]
    split
    · rw [List.length_append]
      assumption
    · exact bounded

theorem offer_queued (f : Feed α) (event : Option α) :
    (f.offer event).queued =
      f.queued ++ (if f.queued.length < capacity then event else none).toList := by
  cases event with
  | none => simp [offer]
  | some e =>
    rw [offer]
    split
    · rfl
    · exact (List.append_nil _).symm

end Feed

namespace Connection

variable {α : Type}

/-- The broadcast that comes with an event. -/
def broadcast? (c : Connection α) : Event → Option ReplyFrame
  | .receive text => if c.isUp then (ReplyFrame.ofText? text).filter (·.isBroadcast) else none
  | _ => none

theorem takeTurn_feed (c : Connection α) (wentOut : Bool) : (c.takeTurn wentOut).feed = c.feed := by
  rw [takeTurn]
  split <;> rfl

theorem lose_feed (c : Connection α) : c.lose.feed = c.feed := by
  rw [lose]
  split <;> rfl

theorem receive_feed (hear : ReplyFrame → Option α) (c : Connection α) (text : String) :
    (c.receive hear text).feed =
      match c.broadcast? (.receive text) with
      | some f => c.feed.offer (hear f)
      | none => c.feed := by
  rw [receive, broadcast?]
  by_cases hup : c.isUp
  · rw [if_pos hup, if_pos hup, ReplyFrame.ofText?]
    cases ReplyFrame.codec.readText text with
    | error e => rfl
    | ok f =>
      show (c.dispatch hear f).feed = match (some f).filter (·.isBroadcast) with
        | some f => c.feed.offer (hear f)
        | none => c.feed
      rw [dispatch, Option.filter_some]
      by_cases hbroadcast : f.isBroadcast
      · rw [if_pos hbroadcast, if_pos hbroadcast]
      · rw [if_neg hbroadcast, if_neg hbroadcast]
  · rw [if_neg hup, if_neg hup]

/-- Only a broadcast changes what waits to be read. -/
theorem step_feed (hear : ReplyFrame → Option α) (c : Connection α) (e : Event) :
    (c.step hear e).feed =
      match c.broadcast? e with
      | some f => c.feed.offer (hear f)
      | none => c.feed := by
  cases e with
  | receive text => exact receive_feed hear c text
  | expire mailbox => rfl
  | lose => exact lose_feed c
  | ask a =>
    show (c.ask a).feed = c.feed
    rw [ask]
    split <;> rfl
  | write =>
    show c.write.feed = c.feed
    rw [write]
    split
    · exact takeTurn_feed c true
    · rfl
  | tear =>
    show c.tear.feed = c.feed
    rw [tear]
    split
    · rw [lose_feed, takeTurn_feed]
    · rfl
  | connect made =>
    show (c.connect made).feed = c.feed
    rw [connect]
    split <;> rfl
  | close =>
    show c.close.feed = c.feed
    rw [close]
    split <;> rfl
  | stop =>
    show c.stop.feed = c.feed
    rw [stop]
    split
    · exact lose_feed c
    · rfl

end Connection

/-! ## Listeners -/

/-- What happens on a channel that is read. -/
inductive Happening where
  | event (e : Event)
  /-- The oldest event is read, if one waits. -/
  | read
  deriving DecidableEq

/-- A connection and what was read of it, the first event first. -/
structure Listener (α : Type) where
  connection : Connection α
  heard : List α := []
  deriving DecidableEq

/-- A broadcast that came, with the number of the events that waited then. -/
structure Arrival where
  frame : ReplyFrame
  waiting : Nat
  deriving DecidableEq

/-- The event that a broadcast leaves, if it tells one and the feed has room for it. -/
def Arrival.event? {α : Type} (hear : ReplyFrame → Option α) (a : Arrival) : Option α :=
  if a.waiting < Feed.capacity then hear a.frame else none

namespace Listener

variable {α : Type}

def fresh (counter : UInt64) : Listener α := { connection := .fresh counter }

/-- The events that wait to be read. -/
def queued (l : Listener α) : List α := l.connection.feed.queued

def read (l : Listener α) : Listener α :=
  match l.connection.feed.next? with
  | none => l
  | some (e, feed) => ⟨{ l.connection with feed }, l.heard ++ [e]⟩

def step (hear : ReplyFrame → Option α) (l : Listener α) : Happening → Listener α
  | .event e => { l with connection := l.connection.step hear e }
  | .read => l.read

def run (hear : ReplyFrame → Option α) (l : Listener α) (happenings : List Happening) :
    Listener α :=
  happenings.foldl (step hear) l

def arrival? (l : Listener α) : Happening → Option Arrival
  | .event e => (l.connection.broadcast? e).map fun f => ⟨f, l.queued.length⟩
  | .read => none

/-- The broadcasts along a run, the first one first. -/
def arrivals (hear : ReplyFrame → Option α) (l : Listener α) : List Happening → List Arrival
  | [] => []
  | h :: rest => (l.arrival? h).toList ++ arrivals hear (l.step hear h) rest

/-- All events that the feed took and has not lost: those that were read and those that wait. -/
def taken (l : Listener α) : List α := l.heard ++ l.queued

/-- Reading takes the oldest of the events that wait, and no event is lost by it. -/
theorem read_cases (l : Listener α) :
    (l.queued = [] ∧ l.read = l) ∨
      ∃ e, l.queued = e :: l.read.queued ∧ l.read.heard = l.heard ++ [e] := by
  rw [read, Feed.next?]
  cases hqueued : l.connection.feed.queued with
  | nil => exact Or.inl ⟨hqueued, rfl⟩
  | cons e rest => exact Or.inr ⟨e, hqueued, rfl⟩

theorem step_event_queued (hear : ReplyFrame → Option α) (l : Listener α) (e : Event) :
    (l.step hear (.event e)).queued =
      l.queued ++ (l.arrival? (.event e)).toList.filterMap (Arrival.event? hear) := by
  show (l.connection.step hear e).feed.queued = _
  rw [Connection.step_feed, arrival?]
  cases l.connection.broadcast? e with
  | none => exact (List.append_nil _).symm
  | some f =>
    let a : Arrival := ⟨f, l.queued.length⟩
    have hoffered : (l.connection.feed.offer (hear f)).queued =
        l.queued ++ (a.event? hear).toList := Feed.offer_queued _ _
    show (l.connection.feed.offer (hear f)).queued = l.queued ++ [a].filterMap (Arrival.event? hear)
    rw [hoffered, List.filterMap_cons]
    cases a.event? hear with
    | none => rfl
    | some e => rfl

/-- A step adds the event of the broadcast that came with it, and takes none away. -/
theorem step_taken (hear : ReplyFrame → Option α) (l : Listener α) (h : Happening) :
    (l.step hear h).taken = l.taken ++ (l.arrival? h).toList.filterMap (Arrival.event? hear) := by
  cases h with
  | event e =>
    rw [taken, step_event_queued, ← List.append_assoc]
    rfl
  | read =>
    show l.read.taken = l.taken ++ []
    rw [List.append_nil]
    rcases l.read_cases with ⟨-, hsame⟩ | ⟨e, hqueued, hheard⟩
    · rw [hsame]
    · rw [taken, taken, hqueued, hheard, List.append_assoc]
      rfl

theorem run_taken (hear : ReplyFrame → Option α) (l : Listener α) (happenings : List Happening) :
    (l.run hear happenings).taken =
      l.taken ++ (l.arrivals hear happenings).filterMap (Arrival.event? hear) := by
  induction happenings generalizing l with
  | nil => exact (List.append_nil _).symm
  | cons h rest ih =>
    show ((l.step hear h).run hear rest).taken = _
    rw [ih, step_taken, arrivals, List.filterMap_append, List.append_assoc]

/-- No more events wait than the feed has room for. -/
def Bounded (l : Listener α) : Prop := l.queued.length ≤ Feed.capacity

theorem Bounded.step {l : Listener α} (bounded : l.Bounded) (hear : ReplyFrame → Option α)
    (h : Happening) : (l.step hear h).Bounded := by
  cases h with
  | event e =>
    show (l.connection.step hear e).feed.queued.length ≤ Feed.capacity
    rw [Connection.step_feed]
    split
    · exact Feed.offer_length bounded _
    · exact bounded
  | read =>
    show l.read.queued.length ≤ Feed.capacity
    rcases l.read_cases with ⟨-, hsame⟩ | ⟨e, hqueued, -⟩
    · rw [hsame]
      exact bounded
    · rw [Bounded, hqueued, List.length_cons] at bounded
      exact Nat.le_of_succ_le bounded

theorem Bounded.run {l : Listener α} (bounded : l.Bounded) (hear : ReplyFrame → Option α)
    (happenings : List Happening) : (l.run hear happenings).Bounded := by
  induction happenings generalizing l with
  | nil => exact bounded
  | cons h rest ih => exact ih (bounded.step hear h)

theorem Bounded.arrivals {l : Listener α} (bounded : l.Bounded) (hear : ReplyFrame → Option α)
    (happenings : List Happening) :
    ∀ a ∈ l.arrivals hear happenings, a.waiting ≤ Feed.capacity := by
  induction happenings generalizing l with
  | nil => exact nofun
  | cons h rest ih =>
    intro a ha
    rw [Listener.arrivals, List.mem_append, Option.mem_toList] at ha
    rcases ha with hnow | hlater
    · cases h with
      | event e =>
        obtain ⟨f, -, rfl⟩ := Option.map_eq_some_iff.1 hnow
        exact bounded
      | read => cases hnow
    · exact ih (bounded.step hear h) a hlater

end Listener

/-- After any happenings on a fresh connection: what was read and then what waits are the events of
the broadcasts in the order in which these came; never more than 256 wait; a broadcast left its
event if fewer waited when it came, and none left no event for any other reason than its topic,
its contents or a full feed. -/
structure HeardInOrder {α : Type} (hear : ReplyFrame → Option α) (subjects : List (Subject α))
    (start : UInt64) (happenings : List Happening) : Prop where
  inOrder :
    ((Listener.fresh start).run hear happenings).heard ++
        ((Listener.fresh start).run hear happenings).queued =
      ((Listener.fresh start).arrivals hear happenings).filterMap (Arrival.event? hear)
  bounded : ((Listener.fresh start).run hear happenings).queued.length ≤ 256
  kept : ∀ a ∈ (Listener.fresh start).arrivals hear happenings, ∀ e,
    a.event? hear = some e ↔ a.waiting < 256 ∧ Tells subjects a.frame e
  lost : ∀ a ∈ (Listener.fresh start).arrivals hear happenings,
    a.event? hear = none ↔
      OffTopic subjects a.frame ∨ Garbled subjects a.frame ∨ a.waiting = 256

theorem Listens.heardInOrder {α : Type} {hear : ReplyFrame → Option α}
    {subjects : List (Subject α)} (listens : Listens hear subjects) (start : UInt64)
    (happenings : List Happening) : HeardInOrder hear subjects start happenings := by
  have hfresh : (Listener.fresh start : Listener α).Bounded := Nat.zero_le _
  constructor
  · exact Listener.run_taken hear (.fresh start) happenings
  · exact hfresh.run hear happenings
  · intro a _ e
    rw [Arrival.event?, Option.ite_none_right_eq_some, listens.hears]
    rfl
  · intro a ha
    have hwaiting : a.waiting ≤ 256 := hfresh.arrivals hear happenings a ha
    rw [Arrival.event?, ite_eq_right_iff, listens.hear_eq_none, Feed.capacity]
    constructor
    · intro hsilent
      rcases Nat.lt_or_eq_of_le hwaiting with hroom | hfull
      · exact (hsilent hroom).imp_right Or.inl
      · exact Or.inr (Or.inr hfull)
    · rintro (hoff | hgarbled | hfull) hroom
      · exact Or.inl hoff
      · exact Or.inr hgarbled
      · exact absurd hfull (Nat.ne_of_lt hroom)

/-- Both channels are heard in the order of their broadcasts. -/
theorem channels_heard_in_order (start : UInt64) (happenings : List Happening) :
    HeardInOrder PublicEvent.ofBroadcast? publicSubjects start happenings ∧
      HeardInOrder closedOrder? privateSubjects start happenings :=
  ⟨publicSubjects_listened.heardInOrder start happenings,
    privateSubjects_listened.heardInOrder start happenings⟩

/-- Of a frame on another topic, one with a closed order and one that cannot be read, the closed
order is heard. -/
example :
    ((Listener.fresh 1).run closedOrder?
      [.event (.receive "\x7b\"message\":\"/v2/market/depths\"\x7d"),
        .event (.receive "\x7b\"message\":\"/v2/user/orders/closed\",\"body\":\"eyJpZCI6N30=\"\x7d"),
        .event (.receive "\x7b\"message\":\"/v2/user/orders/closed\",\"body\":\"W10\"\x7d"),
        .read, .read]).heard = [{ id := 7 }] := by decide +kernel

end ExchangeClient.Channel
