import ExchangeClient.Channel.Handshake
import ExchangeClient.Channel.Session
import ExchangeClient.CommandLine.Command
import ExchangeClient.CommandLine.Report
import ExchangeClient.RestApi.Operation
import ExchangeClient.Settings.Load
import ExchangeClient.TradeApi.Operation

/-!
# Running a command

A command prints lines, sends requests and may fail. What the exchange makes of
the requests, and when somebody interrupts a command that watches, comes from
outside.
-/

namespace ExchangeClient.CommandLine

open Channel (PublicEvent PublicOperation)

/-- What a command meets outside itself. -/
structure World where
  now : Instant
  transport : Transport
  /-- What becomes of the attempt to open a channel. -/
  attempt : Channel.Attempt
  peer : Channel.Peer
  /-- After how many lines watching is interrupted, if it is. -/
  patience : Option Nat := none

inductive Failure where
  | client (e : ClientError)
  | noSecret
  /-- The program itself was not understood. -/
  | refused (r : Refusal)

/-- What a command did. -/
structure Trace where
  lines : List String := []
  requests : List Http.Request := []
  frames : List (Nat × Channel.RequestFrame) := []
  failure : Option Failure := none

/-- Prints some lines, asks, and prints what the answer comes to. -/
def converse {α : Type} (w : World) (before : List String) (c : Conversation α)
    (render : α → List String) : Trace :=
  let (requests, outcome) := c.run w.transport
  match outcome with
  | .ok a => { lines := before ++ render a, requests }
  | .error e => { lines := before, requests, failure := some (.client e) }

/-- A channel that is watched: its session and the remembered subscription. -/
structure Watched where
  session : Channel.Session PublicEvent
  held : Subscription := {}

namespace Watched

/-- The first number of a connection, from the clock. -/
def firstNumber (now : Instant) : UInt64 := UInt64.ofNat (max (now.milliseconds.toNat * 1000000) 1)

def opened (now : Instant) : Watched := { session := { connection := .fresh (firstNumber now) } }

def call {α : Type} (peer : Channel.Peer) (c : Watched) (op : PublicOperation α) :
    Outcome α × Watched :=
  let (outcome, held, session) := op.call
    (fun session ask => session.call PublicEvent.ofBroadcast? peer ask) c.held c.session
  (outcome, ⟨session, held⟩)

def trace (c : Watched) (lines : List String) (failure : Option Failure) : Trace :=
  { lines, frames := c.session.connection.written, failure }

end Watched

/-- The lines of events that are printed before watching ends. -/
def watchedLines (w : World) (seconds : Option Nat) (events : List PublicEvent) : List String :=
  let events := if seconds = some 0 then [] else match w.patience with
    | some n => events.take n
    | none => events
  events.map eventLine

/-- Subscribes to a pair, prints its events and takes the subscriptions back. -/
def watchPair (w : World) (s : Settings) (pair : String) (seconds : Option Nat) : Trace :=
  let opening : Outcome Unit := do
    let _ ← Channel.Handshake.forPublic s
    Outcome.during "public_ws_connect" w.attempt.outcome
  match opening with
  | .error e => { failure := some (.client e) }
  | .ok () =>
    let (depths, c) := (Watched.opened w.now).call w.peer (.subscribe .depths [pair])
    match depths with
    | .error e => c.trace [] (some (.client e))
    | .ok _ =>
      let (trades, c) := c.call w.peer (.subscribe .trades [pair])
      match trades with
      | .error e => c.trace [] (some (.client e))
      | .ok _ =>
        let lines := watchedLines w seconds c.session.drain.1
        let (_, c) := c.call w.peer (.unsubscribe .depths [])
        let (_, c) := c.call w.peer (.unsubscribe .trades [])
        c.trace lines none

def Command.run (w : World) (s : Settings) : Command → Trace
  | .prices => converse w [] (RestApi.Operation.call s w.now .marketPrices) priceLines
  | .ticker pair isOlder =>
    if isOlder then
      converse w (heading pair) (TradeApi.Operation.call s w.now (.marketTicker pair))
        olderTickerLines
    else
      converse w (heading pair) (RestApi.Operation.call s w.now (.marketTicker pair))
        (tickerLines pair)
  | .depth pair levels =>
    converse w [] (RestApi.Operation.call s w.now (.marketDepths pair)) (bookLines pair levels)
  | .summaries => converse w [] (RestApi.Operation.call s w.now .marketSummaries) summaryLines
  | .balances => converse w [] (RestApi.Operation.call s w.now .authenticate) balanceLines
  | .openOrders pair =>
    converse w [] (RestApi.Operation.call s w.now (.userOrdersOpen pair)) openOrderLines
  | .watch pair seconds => watchPair w s pair seconds
  | .sign payload =>
    if s.secret.isEmpty then { failure := some .noSecret }
    else { lines := [Digest.sign payload s.secret] }
  | .format value => { lines := [formatDouble value] }

/-- The name and version of the program. -/
def versionLine : String := "tokenomy 0.1.0"

def helpLines : List String :=
  ["Usage: tokenomy [--config PATH] [--verbose] COMMAND", "Commands:"]
    ++ Verb.all.map fun v => "  " ++ v.name

/-- Runs the program on its arguments: `file` finds the file of settings under a path. -/
def run (w : World) (file : String → Option Settings.File) (given : List (String × String))
    (args : List String) : Trace :=
  match Invocation.read args with
  | .error .version => { lines := [versionLine] }
  | .error .help => { lines := helpLines }
  | .error r => { failure := some (.refused r) }
  | .ok i =>
    match Settings.load (i.config.bind file) given with
    | .error e => { failure := some (.client e) }
    | .ok s => i.command.run w s

namespace Trace

/-- What is printed. -/
def output (t : Trace) : String := String.join (t.lines.map (· ++ "\n"))

/-- How the program ends: 0 if all is well, 2 if it was not understood. -/
def exitCode (t : Trace) : Nat :=
  match t.failure with
  | none => 0
  | some (.refused _) => 2
  | some _ => 1

/-- What is told of a failure, unless the program was not understood. -/
def complaint? (t : Trace) : Option String :=
  match t.failure with
  | some (.client e) => some ("Error: " ++ e.message)
  | some .noSecret => some "Error: TOKENOMY_SECRET is not set"
  | _ => none

end Trace
end ExchangeClient.CommandLine
