import ExchangeClient.Channel.Feed
import ExchangeClient.Channel.RequestTable

/-!
# Connections

A connection outlives its socket. Requests are queued and written as long as
there is a socket; when it is lost, every pending caller is told and a new one
is tried, while the queue stays. A request on which the socket fails is not tried
again. A caller that waited too long gives up. A closed
connection takes no more requests; its driver goes on with the socket it has, or
with the one it is making, until it notices and ends.
-/

namespace ExchangeClient.Channel

/-- What a caller asks for. -/
structure Ask where
  method : Http.Method
  target : String
  params : Option Params := none
  deriving DecidableEq

inductive Link where
  | up
  /-- The socket was lost and a new one is being made. -/
  | down
  /-- The driver has ended. -/
  | ended
  deriving DecidableEq

/-- A request that was taken out of the queue. -/
structure Turn where
  /-- The attempt that made its socket. -/
  attempt : Nat
  frame : RequestFrame
  /-- Whether the socket took it. -/
  wentOut : Bool
  deriving DecidableEq

structure Connection (α : Type) where
  table : RequestTable
  /-- Requests that wait to be written, the oldest first. -/
  queue : List RequestFrame := []
  link : Link := .up
  /-- How often a socket was asked for. -/
  attempts : Nat := 1
  isClosed : Bool := false
  /-- The requests that are no longer queued, the oldest first. -/
  taken : List Turn := []
  feed : Feed α := {}
  deriving DecidableEq

inductive Event where
  | ask (ask : Ask)
  /-- The socket takes a queued request. -/
  | write
  /-- The socket fails on a queued request, which is lost with it. -/
  | tear
  /-- A text comes from the exchange. -/
  | receive (text : String)
  /-- The caller of a mailbox gives up. -/
  | expire (mailbox : Nat)
  | lose
  /-- A socket is asked for, and made or not. -/
  | connect (made : Bool)
  | close
  /-- The driver notices that the connection was closed. -/
  | stop
  deriving DecidableEq

namespace Connection

variable {α : Type}

/-- A connection whose socket was just made. -/
def fresh (counter : UInt64) : Connection α := { table := .starting counter }

/-- Queues a request; on a closed connection its caller is told at once. -/
def ask (c : Connection α) (a : Ask) : Connection α :=
  if c.isClosed then
    { c with table := { c.table with mailboxes := c.table.mailboxes ++ [.failed] } }
  else
    let (id, table) := c.table.takeId
    { c with
      table := (table.register id).2
      queue := c.queue ++ [.carrying id a.method a.target a.params] }

def isUp (c : Connection α) : Bool := c.link == .up

/-- Takes the oldest request out of the queue. -/
def takeTurn (c : Connection α) (wentOut : Bool) : Connection α :=
  match c.queue with
  | [] => c
  | frame :: rest => { c with queue := rest, taken := c.taken ++ [⟨c.attempts, frame, wentOut⟩] }

def write (c : Connection α) : Connection α := if c.isUp then c.takeTurn true else c

/-- The requests that were written, each with the attempt that made its socket. -/
def written (c : Connection α) : List (Nat × RequestFrame) :=
  (c.taken.filter (·.wentOut)).map fun t => (t.attempt, t.frame)

/-- Takes a frame: a broadcast goes to the feed, a reply to its caller. -/
def dispatch (hear : ReplyFrame → Option α) (c : Connection α) (frame : ReplyFrame) :
    Connection α :=
  if frame.isBroadcast then { c with feed := c.feed.offer (hear frame) }
  else { c with table := (c.table.resolve frame).2 }

/-- Takes a text; one that is no frame changes nothing. -/
def receive (hear : ReplyFrame → Option α) (c : Connection α) (text : String) : Connection α :=
  if c.isUp then
    match ReplyFrame.codec.readText text with
    | .ok frame => c.dispatch hear frame
    | .error _ => c
  else c

def expire (c : Connection α) (mailbox : Nat) : Connection α :=
  { c with table := c.table.expire mailbox }

/-- The link after a socket was lost or could not be made. -/
def retry (c : Connection α) : Link := if c.isClosed then .ended else .down

def lose (c : Connection α) : Connection α :=
  if c.isUp then { c with link := c.retry, table := c.table.failAll } else c

def tear (c : Connection α) : Connection α :=
  if c.isUp && !c.queue.isEmpty then (c.takeTurn false).lose else c

def connect (c : Connection α) (made : Bool) : Connection α :=
  if c.link = .down then
    { c with attempts := c.attempts + 1, link := if made then .up else c.retry }
  else c

/-- Tells every pending caller; the driver learns of it later. -/
def close (c : Connection α) : Connection α :=
  if c.isClosed then c else { c with isClosed := true, table := c.table.failAll }

def stop (c : Connection α) : Connection α :=
  if c.isClosed then { c.lose with link := .ended } else c

def step (hear : ReplyFrame → Option α) (c : Connection α) : Event → Connection α
  | .ask a => c.ask a
  | .write => c.write
  | .tear => c.tear
  | .receive text => c.receive hear text
  | .expire mailbox => c.expire mailbox
  | .lose => c.lose
  | .connect made => c.connect made
  | .close => c.close
  | .stop => c.stop

def run (hear : ReplyFrame → Option α) (c : Connection α) (events : List Event) : Connection α :=
  events.foldl (step hear) c

/-- What the caller of a mailbox was told, once it was. A caller goes away when its time is over. One
whose number went to a later request is told as if the connection were closed. -/
def outcome? (c : Connection α) (mailbox : Nat) : Option (Outcome ReplyFrame) :=
  match c.table.mailboxes[mailbox]? with
  | some (.answered reply) => some reply.accept
  | some .failed | some .deserted => some (.error .connectionClosed)
  | some .discarded => some (.error .timeout)
  | _ => none

end Connection
end ExchangeClient.Channel
