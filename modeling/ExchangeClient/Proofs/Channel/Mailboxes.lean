import ExchangeClient.Proofs.Channel.Numbering

/-!
# Mailboxes along a run

A run of a table is a row of signals in any order. The invariant ties the
counter, the pending numbers and the mailboxes together: each pending number was
handed out before, and the pending mailboxes are exactly the waiting ones. From
it follows what any caller finds: the verdict of the first later signal that
concerns it.
-/

namespace ExchangeClient.Channel

/-- The frame that a text carries. -/
def ReplyFrame.ofText? (text : String) : Option ReplyFrame :=
  (ReplyFrame.codec.readText text).toOption

/-- What can happen to a table of pending requests. -/
inductive Signal where
  /-- A caller takes a number and waits under it. -/
  | request
  /-- A caller comes when the connection is closed. -/
  | refuse
  /-- A text comes from the exchange. -/
  | hear (text : String)
  /-- The caller of a mailbox gives up. -/
  | expire (mailbox : Nat)
  /-- The connection is lost or closed. -/
  | fail

namespace Signal

def isRequest : Signal → Bool
  | .request => true
  | _ => false

/-- What a signal tells the caller that waits under a number at a mailbox. -/
def verdict? (id : UInt64) (mailbox : Nat) : Signal → Option Mailbox
  | .request => none
  | .refuse => none
  | .hear text => ((ReplyFrame.ofText? text).filter (·.id == id)).map .answered
  | .expire m => if m = mailbox then some .discarded else none
  | .fail => some .failed

end Signal

namespace RequestTable

def step (t : RequestTable) : Signal → RequestTable
  | .request => (t.takeId.2.register t.takeId.1).2
  | .refuse => { t with mailboxes := t.mailboxes ++ [.failed] }
  | .hear text => match ReplyFrame.ofText? text with
    | some frame => if frame.isBroadcast then t else (t.resolve frame).2
    | none => t
  | .expire mailbox => t.expire mailbox
  | .fail => t.failAll

def run (t : RequestTable) (signals : List Signal) : RequestTable := signals.foldl step t

/-- How many callers take a number. -/
def requests (signals : List Signal) : Nat := signals.countP Signal.isRequest

/-- The numbers handed out along a run, the first one first. -/
def handedOut (t : RequestTable) : List Signal → List UInt64
  | [] => []
  | s :: rest => (if s.isRequest then [t.takeId.1] else []) ++ handedOut (t.step s) rest

@[simp] theorem run_nil (t : RequestTable) : t.run [] = t := rfl

@[simp] theorem run_cons (t : RequestTable) (s : Signal) (rest : List Signal) :
    t.run (s :: rest) = (t.step s).run rest := rfl

theorem run_append (t : RequestTable) (a b : List Signal) :
    t.run (a ++ b) = (t.run a).run b := List.foldl_append

theorem requests_cons (s : Signal) (rest : List Signal) :
    requests (s :: rest) = requests rest + if s.isRequest then 1 else 0 :=
  List.countP_cons

theorem requests_append (a b : List Signal) :
    requests (a ++ b) = requests a + requests b := List.countP_append

/-! ## Single operations -/

@[simp] theorem deliver_pending (t : RequestTable) (b : Nat) (x : Mailbox) :
    (t.deliver b x).pending = t.pending := by
  simp only [deliver]
  split <;> rfl

@[simp] theorem deliver_counter (t : RequestTable) (b : Nat) (x : Mailbox) :
    (t.deliver b x).counter = t.counter := by
  simp only [deliver]
  split <;> rfl

@[simp] theorem remove_mailboxes (t : RequestTable) (id : UInt64) :
    (t.remove id).mailboxes = t.mailboxes := rfl

theorem mem_remove {t : RequestTable} {id : UInt64} {e : UInt64 × Nat} :
    e ∈ (t.remove id).pending ↔ e ∈ t.pending ∧ e.1 ≠ id := by
  simp [remove]

theorem deliver_waiting {t : RequestTable} {b : Nat} (h : t.mailboxes[b]? = some .waiting)
    (x : Mailbox) : t.deliver b x = { t with mailboxes := t.mailboxes.set b x } := by
  simp only [deliver, h]

theorem deliver_not_waiting {t : RequestTable} {b : Nat} (h : t.mailboxes[b]? ≠ some .waiting)
    (x : Mailbox) : t.deliver b x = t := by
  unfold deliver
  split
  · rename_i hw
    exact absurd hw h
  · rfl

theorem deliver_mailbox (t : RequestTable) (b : Nat) (x : Mailbox) (m : Nat) :
    (t.deliver b x).mailboxes[m]? =
      if m = b ∧ t.mailboxes[m]? = some .waiting then some x else t.mailboxes[m]? := by
  by_cases hw : t.mailboxes[b]? = some .waiting
  · rw [deliver_waiting hw]
    by_cases hm : m = b
    · subst hm
      rw [if_pos ⟨rfl, hw⟩]
      exact List.getElem?_set_self (List.getElem?_eq_some_iff.mp hw).1
    · rw [if_neg fun h => hm h.1]
      exact List.getElem?_set_ne (Ne.symm hm)
  · rw [deliver_not_waiting hw, if_neg]
    rintro ⟨rfl, h⟩
    exact hw h

/-- What happens to a mailbox once it is no longer waited at: nothing. -/
theorem deliver_settled {t : RequestTable} {m : Nat} {found : Mailbox}
    (settled : t.mailboxes[m]? = some found) (still : found ≠ .waiting) (b : Nat) (x : Mailbox) :
    (t.deliver b x).mailboxes[m]? = some found := by
  rw [deliver_mailbox, settled, if_neg]
  intro h
  exact still (Option.some.inj h.2)

theorem deliverAll_pending (entries : List (UInt64 × Nat)) (t : RequestTable) :
    (entries.foldl (fun t e => t.deliver e.2 .failed) t).pending = t.pending := by
  induction entries generalizing t with
  | nil => rfl
  | cons e rest ih => exact (ih _).trans (deliver_pending t e.2 .failed)

theorem deliverAll_counter (entries : List (UInt64 × Nat)) (t : RequestTable) :
    (entries.foldl (fun t e => t.deliver e.2 .failed) t).counter = t.counter := by
  induction entries generalizing t with
  | nil => rfl
  | cons e rest ih => exact (ih _).trans (deliver_counter t e.2 .failed)

theorem deliverAll_mailbox (entries : List (UInt64 × Nat)) (t : RequestTable) (m : Nat) :
    (entries.foldl (fun t e => t.deliver e.2 .failed) t).mailboxes[m]? =
      if m ∈ entries.map (·.2) ∧ t.mailboxes[m]? = some .waiting then some .failed
      else t.mailboxes[m]? := by
  induction entries generalizing t with
  | nil => simp
  | cons e rest ih =>
    have first := deliver_mailbox t e.2 .failed m
    rw [List.foldl_cons, ih]
    by_cases he : m = e.2
    · subst he
      by_cases hw : t.mailboxes[e.2]? = some .waiting
      · simp [first, hw]
      · simp [first, hw]
    · rw [if_neg fun h => he h.1] at first
      have later : m ∈ (e :: rest).map (·.2) ↔ m ∈ rest.map (·.2) := by simp [he]
      simp only [first, later]

@[simp] theorem failAll_pending (t : RequestTable) : t.failAll.pending = [] :=
  deliverAll_pending t.pending { t with pending := [] }

@[simp] theorem failAll_counter (t : RequestTable) : t.failAll.counter = t.counter :=
  deliverAll_counter t.pending { t with pending := [] }

/-- Exactly the waiting callers among the pending ones are told of the failure. -/
theorem failAll_mailbox (t : RequestTable) (m : Nat) :
    t.failAll.mailboxes[m]? =
      if m ∈ t.pending.map (·.2) ∧ t.mailboxes[m]? = some .waiting then some .failed
      else t.mailboxes[m]? :=
  deliverAll_mailbox t.pending { t with pending := [] } m

theorem find?_none_iff (t : RequestTable) (id : UInt64) :
    t.find? id = none ↔ id ∉ t.pending.map (·.1) := by
  simp only [find?, List.lookup_eq_none_iff, bne_iff_ne, List.mem_map, not_exists, not_and]
  exact ⟨fun h e he heq => h e he heq.symm, fun h e he heq => h e he heq.symm⟩

theorem mem_of_find? {t : RequestTable} {id : UInt64} {m : Nat} (h : t.find? id = some m) :
    (id, m) ∈ t.pending := by
  obtain ⟨front, back, heq, _⟩ := List.lookup_eq_some_iff.mp h
  rw [heq]
  exact List.mem_append_right _ List.mem_cons_self

theorem mem_of_idOf? {t : RequestTable} {id : UInt64} {m : Nat} (h : t.idOf? m = some id) :
    (id, m) ∈ t.pending := by
  obtain ⟨⟨i, n⟩, hfind, hid⟩ := Option.map_eq_some_iff.mp h
  have hbox : n = m := by simpa using List.find?_some hfind
  have hnumber : i = id := hid
  rw [← hnumber, ← hbox]
  exact List.mem_of_find?_eq_some hfind

theorem idOf?_none_iff (t : RequestTable) (m : Nat) :
    t.idOf? m = none ↔ m ∉ t.pending.map (·.2) := by
  rw [idOf?, Option.map_eq_none_iff, List.find?_eq_none]
  simp only [beq_iff_eq, List.mem_map, not_exists, not_and]

end RequestTable
end ExchangeClient.Channel
