/-!
# Event feeds

Events wait in a queue of bounded length until they are read. An event that
comes while the queue is full is lost, and so is one that is no event at all.
-/

namespace ExchangeClient.Channel

structure Feed (α : Type) where
  /-- The events that were not read, the oldest first. -/
  queued : List α := []
  deriving DecidableEq

namespace Feed

variable {α : Type}

/-- How many events wait at most. -/
def capacity : Nat := 256

def offer (f : Feed α) (event : Option α) : Feed α :=
  match event with
  | some e => if f.queued.length < capacity then ⟨f.queued ++ [e]⟩ else f
  | none => f

/-- Reads the oldest event. -/
def next? (f : Feed α) : Option (α × Feed α) :=
  match f.queued with
  | [] => none
  | e :: rest => some (e, ⟨rest⟩)

/-- Reads all events. -/
def drain (f : Feed α) : List α × Feed α := (f.queued, {})

end Feed
end ExchangeClient.Channel
