import ExchangeClient.Channel.Frame

/-!
# Pending requests

Every request has a number of its own and a mailbox in which its caller finds
the reply. A reply goes to whoever waits under its number and is otherwise
dropped. Nothing is put into a mailbox twice.
-/

namespace ExchangeClient.Channel

/-- What a caller finds when it looks for its reply. -/
inductive Mailbox where
  | waiting
  | answered (reply : ReplyFrame)
  /-- The connection was lost before a reply came. -/
  | failed
  /-- Nothing can come any more, though the caller is still there. -/
  | deserted
  /-- The caller went away. -/
  | discarded
  deriving DecidableEq

structure RequestTable where
  /-- The number to try next. -/
  counter : UInt64
  /-- The mailboxes of pending requests by number, each number once. -/
  pending : List (UInt64 × Nat)
  mailboxes : List Mailbox
  deriving DecidableEq

namespace RequestTable

def starting (counter : UInt64) : RequestTable := ⟨counter, [], []⟩

/-- Hands out a number; the number of broadcasts is passed over. -/
def takeId (t : RequestTable) : UInt64 × RequestTable :=
  let id := if t.counter = ReplyFrame.broadcastId then t.counter + 1 else t.counter
  (id, { t with counter := id + 1 })

def find? (t : RequestTable) (id : UInt64) : Option Nat := t.pending.lookup id

def remove (t : RequestTable) (id : UInt64) : RequestTable :=
  { t with pending := t.pending.filter fun e => e.1 != id }

/-- Puts something into a mailbox at which somebody waits. -/
def deliver (t : RequestTable) (mailbox : Nat) (m : Mailbox) : RequestTable :=
  match t.mailboxes[mailbox]? with
  | some .waiting => { t with mailboxes := t.mailboxes.set mailbox m }
  | _ => t

/-- Gives up on a number. -/
def cancel (t : RequestTable) (id : UInt64) : RequestTable :=
  match t.find? id with
  | some mailbox => (t.remove id).deliver mailbox .deserted
  | none => t

/-- The number under which a mailbox is registered. -/
def idOf? (t : RequestTable) (mailbox : Nat) : Option UInt64 :=
  (t.pending.find? fun e => e.2 == mailbox).map (·.1)

/-- The caller of a mailbox gives up and goes away. -/
def expire (t : RequestTable) (mailbox : Nat) : RequestTable :=
  match t.idOf? mailbox with
  | some id => (t.remove id).deliver mailbox .discarded
  | none => t

/-- Opens a mailbox for a number; an earlier one of that number is deserted. -/
def register (t : RequestTable) (id : UInt64) : Nat × RequestTable :=
  let t := t.cancel id
  (t.mailboxes.length,
    { t with
      pending := t.pending ++ [(id, t.mailboxes.length)]
      mailboxes := t.mailboxes ++ [.waiting] })

/-- Hands a reply to its caller, and whether there is one. -/
def resolve (t : RequestTable) (reply : ReplyFrame) : Bool × RequestTable :=
  match t.find? reply.id with
  | none => (false, t)
  | some mailbox =>
    (t.mailboxes[mailbox]? == some .waiting,
      (t.remove reply.id).deliver mailbox (.answered reply))

/-- Tells every pending caller that the connection was lost. -/
def failAll (t : RequestTable) : RequestTable :=
  t.pending.foldl (fun t e => t.deliver e.2 .failed) { t with pending := [] }

/-- The caller of a mailbox goes away. -/
def discard (t : RequestTable) (mailbox : Nat) : RequestTable :=
  { t with mailboxes := t.mailboxes.set mailbox .discarded }

/-- What is in a mailbox; a caller takes its reply out. -/
def poll (t : RequestTable) (mailbox : Nat) : Mailbox × RequestTable :=
  let m := (t.mailboxes[mailbox]?).getD .discarded
  (m, match m with
    | .answered _ | .failed => { t with mailboxes := t.mailboxes.set mailbox .deserted }
    | _ => t)

def size (t : RequestTable) : Nat := t.pending.length

end RequestTable
end ExchangeClient.Channel
