import ExchangeClient.Channel.Connection

/-!
# Sessions with a peer

A session runs a connection against a peer of which it is known what it does
after each request and how many sockets it refuses. A call is a request of which
the outcome is awaited: the connection is brought up, the request is written,
the peer makes its moves, and a caller that is left waiting gives up.
-/

namespace ExchangeClient.Channel

/-- What a peer does. -/
inductive Move where
  | say (text : String)
  /-- A frame that is no text. -/
  | noise
  /-- The socket is lost and some sockets are refused after it. -/
  | hangUp (refusals : Nat)
  deriving DecidableEq

/-- What a peer does after a request; the number tells how many requests came before it. -/
abbrev Peer := Nat → RequestFrame → List Move

structure Session (α : Type) where
  connection : Connection α
  /-- How many sockets the peer refuses next. -/
  refusals : Nat := 0
  deriving DecidableEq

namespace Session

variable {α : Type}

/-- Asks for sockets until one is made. -/
def reconnect (s : Session α) : Session α :=
  if s.connection.isUp || s.connection.isClosed then s
  else
    let tried := s.refusals.fold (fun _ _ c => c.connect false) s.connection
    ⟨tried.connect true, 0⟩

/-- Writes what is queued. -/
def flush (s : Session α) : Session α :=
  { s with connection := s.connection.queue.foldl (fun c _ => c.write) s.connection }

def move (hear : ReplyFrame → Option α) (s : Session α) : Move → Session α
  | .say text => { s with connection := s.connection.receive hear text }
  | .noise => s
  | .hangUp refusals =>
    if s.connection.isUp then ⟨s.connection.lose, refusals⟩ else s

/-- The requests written since an earlier state of the session. -/
def writtenSince (s earlier : Session α) : List (Nat × RequestFrame) :=
  s.connection.written.drop earlier.connection.written.length

/-- Sends a request and awaits its outcome. -/
def call (hear : ReplyFrame → Option α) (peer : Peer) (s : Session α) (a : Ask) :
    Outcome ReplyFrame × Session α :=
  let mailbox := s.connection.table.mailboxes.length
  let asked := { s with connection := s.connection.ask a }.reconnect.flush
  let earlier := s.connection.written.length
  let moves := ((asked.writtenSince s).zipIdx earlier).flatMap fun w => peer w.2 w.1.2
  let moved := moves.foldl (move hear) asked
  let left := { moved with connection := moved.connection.expire mailbox }
  ((left.connection.outcome? mailbox).getD (.error .connectionClosed), left)

/-- Closes the connection and waits for its driver to end. -/
def close (s : Session α) : Session α := { s with connection := s.connection.close.stop }

/-- Reads all events that wait. -/
def drain (s : Session α) : List α × Session α :=
  let (events, feed) := s.connection.feed.drain
  (events, { s with connection := { s.connection with feed } })

end Session
end ExchangeClient.Channel
