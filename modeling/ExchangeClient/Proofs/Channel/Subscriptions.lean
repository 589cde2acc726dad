import ExchangeClient.Channel.Public
import ExchangeClient.Proofs.Conversation

/-!
# The remembered subscription

A subscriber calls the public channel again and again, and what becomes of a
request may depend on all that came before. Here the requests and their replies
are recorded, so that what is remembered can be read off the record alone: it is
what the last reply about the subscription told, if its contents could be read.
-/

namespace ExchangeClient.Channel

/-- A request and what became of it. -/
structure Exchange where
  ask : Ask
  reply : Outcome ReplyFrame

namespace Exchange

/-- The subscription an exchange tells: the contents of a reply to a request about it. -/
def told? (x : Exchange) : Option Subscription :=
  if x.ask.target = PublicOperation.subscriptionTarget then
    (x.reply >>= fun f => f.decode Subscription.codec {}).toOption
  else none

/-- What was told last; the empty subscription if nothing was. -/
def lastTold (exchanges : List Exchange) : Subscription :=
  (exchanges.filterMap told?).getLast?.getD {}

theorem lastTold_append (exchanges : List Exchange) (x : Exchange) :
    lastTold (exchanges ++ [x]) = x.told?.getD (lastTold exchanges) := by
  rw [lastTold, List.filterMap_append]
  cases hx : x.told? with
  | none => simp [hx, lastTold]
  | some s => simp [hx]

end Exchange

/-- The parameter that names the pairs of a topic. -/
def Topic.name : Topic → String
  | .depths => "depths"
  | .trades => "trades"

/-- The parameters of a change name the pairs of its topic and nothing else. -/
theorem Topic.encode_params (topic : Topic) {pairs : List String} (given : pairs ≠ []) :
    Params.codec.encode (topic.params pairs) =
      .object [(topic.name, .array (pairs.map .string))] := by
  cases pairs with
  | nil => exact absurd rfl given
  | cons pair pairs =>
    cases topic with
    | depths => rfl
    | trades => rfl

/-! ## What one answer tells -/

namespace PublicOperation

variable {α : Type}

theorem change_eq_some {method : Http.Method} {topic : Topic} {pairs : List String} {a : Ask} :
    change method topic pairs = some a ↔
      pairs ≠ [] ∧ a = ⟨method, subscriptionTarget, some (topic.params pairs)⟩ := by
  rw [change]
  cases pairs with
  | nil => simp
  | cons pair pairs => simp [eq_comm]

theorem told?_of_target {a : Ask} (target : a.target = subscriptionTarget) (name : String)
    (reply : Outcome ReplyFrame) :
    (Outcome.during name (reply >>= fun f => f.decode Subscription.codec {})).toOption.bind some =
      Exchange.told? ⟨a, reply⟩ := by
  rw [Outcome.during_toOption, Option.bind_fun_some, Exchange.told?, if_pos target]

/-- An answer tells of the subscription exactly what its reply tells of it. -/
theorem conclude_told {held : Subscription} {op : PublicOperation α} {a : Ask}
    (planned : op.plan held = .ok (some a)) (reply : Outcome ReplyFrame) :
    (op.conclude reply).toOption.bind op.told? = Exchange.told? ⟨a, reply⟩ := by
  have hsilent : (∀ v, op.told? v = none) → a.target ≠ subscriptionTarget →
      (op.conclude reply).toOption.bind op.told? = Exchange.told? ⟨a, reply⟩ := by
    intro hnothing hother
    rw [Exchange.told?, if_neg hother, Option.bind_eq_none_iff]
    exact fun v _ => hnothing v
  cases op with
  | marketDepths pair | marketTicker pair | marketTrades pair =>
    obtain ⟨params, -, hplan⟩ := Except.bind_eq_ok.1 planned
    cases hplan
    exact hsilent (fun _ => rfl) (by simp [subscriptionTarget])
  | marketPrices =>
    cases planned
    exact hsilent (fun _ => rfl) (by simp [subscriptionTarget])
  | subscription =>
    cases planned
    exact told?_of_target rfl _ reply
  | subscribe topic pairs | unsubscribe topic pairs =>
    obtain ⟨-, rfl⟩ := change_eq_some.1 (Except.ok.inj planned)
    exact told?_of_target rfl _ reply

end PublicOperation

/-! ## Subscribers -/

section

variable {σ : Type}

/-- Sends a request and records it with what becomes of it. -/
def recording (send : σ → Ask → Outcome ReplyFrame × σ) (s : σ × List Exchange) (a : Ask) :
    Outcome ReplyFrame × σ × List Exchange :=
  let (reply, next) := send s.1 a
  (reply, next, s.2 ++ [⟨a, reply⟩])

structure Subscriber (σ : Type) where
  /-- The subscription that is remembered. -/
  held : Subscription := {}
  peer : σ
  /-- The record of all requests, the oldest first. -/
  exchanges : List Exchange := []

namespace Subscriber

variable {α : Type}

def call (send : σ → Ask → Outcome ReplyFrame × σ) (c : Subscriber σ) (op : PublicOperation α) :
    Outcome α × Subscriber σ :=
  let (outcome, held, peer, exchanges) := op.call (recording send) c.held (c.peer, c.exchanges)
  (outcome, ⟨held, peer, exchanges⟩)

/-- Makes calls of any kinds one after the other. -/
def calls (send : σ → Ask → Outcome ReplyFrame × σ) (c : Subscriber σ)
    (ops : List (Σ α, PublicOperation α)) : Subscriber σ :=
  ops.foldl (fun c op => (c.call send op.2).2) c

/-- Makes a request and remembers what is told. -/
def ask (send : σ → Ask → Outcome ReplyFrame × σ) (c : Subscriber σ) (a : Ask) :
    Outcome ReplyFrame × Subscriber σ :=
  let (reply, next) := send c.peer a
  (reply, ⟨(Exchange.told? ⟨a, reply⟩).getD c.held, next, c.exchanges ++ [⟨a, reply⟩]⟩)

variable {send : σ → Ask → Outcome ReplyFrame × σ} {c : Subscriber σ} {op : PublicOperation α}

theorem call_of_refused {e : RequestError} (refused : op.plan c.held = .error e) :
    c.call send op = (.error (.request e), c) := by
  simp only [call, PublicOperation.call, refused]

theorem call_of_remembered (remembered : op.plan c.held = .ok none) :
    c.call send op = (.ok (op.remembered c.held), c) := by
  simp only [call, PublicOperation.call, remembered]

theorem call_of_asked {a : Ask} (asked : op.plan c.held = .ok (some a)) :
    c.call send op = (op.conclude (c.ask send a).1, (c.ask send a).2) := by
  have htold := PublicOperation.conclude_told asked (send c.peer a).1
  simp only [call, PublicOperation.call, asked, recording, ask, ← htold]
  cases op.conclude (send c.peer a).1 with
  | error e => rfl
  | ok v => rfl

/-- A call changes nothing or comes to what its one request comes to. -/
theorem call_changes (send : σ → Ask → Outcome ReplyFrame × σ) (c : Subscriber σ)
    (op : PublicOperation α) :
    (c.call send op).2 = c ∨ ∃ a, op.plan c.held = .ok (some a) ∧
      c.call send op = (op.conclude (c.ask send a).1, (c.ask send a).2) := by
  cases hplan : op.plan c.held with
  | error e => exact Or.inl (by rw [call_of_refused hplan])
  | ok planned =>
    cases planned with
    | none => exact Or.inl (by rw [call_of_remembered hplan])
    | some a => exact Or.inr ⟨a, rfl, call_of_asked hplan⟩

/-- Keeping the record has no influence on a call. -/
theorem call_unrecorded (send : σ → Ask → Outcome ReplyFrame × σ) (c : Subscriber σ)
    (op : PublicOperation α) :
    op.call send c.held c.peer =
      ((c.call send op).1, (c.call send op).2.held, (c.call send op).2.peer) := by
  simp only [call, PublicOperation.call, recording]
  cases op.plan c.held with
  | error e => rfl
  | ok planned =>
    cases planned with
    | none => rfl
    | some a =>
      dsimp only
      cases op.conclude (send c.peer a).1 with
      | error e => rfl
      | ok v => rfl

/-! ## Histories -/

/-- What is remembered is what was told last. -/
def UpToDate (c : Subscriber σ) : Prop := c.held = Exchange.lastTold c.exchanges

theorem UpToDate.call (fresh : c.UpToDate) (send : σ → Ask → Outcome ReplyFrame × σ)
    (op : PublicOperation α) : (c.call send op).2.UpToDate := by
  rcases c.call_changes send op with hsame | ⟨a, -, hcall⟩
  · rw [hsame]
    exact fresh
  · rw [hcall]
    show _ = Exchange.lastTold _
    rw [ask, Exchange.lastTold_append, ← fresh]

theorem UpToDate.calls (fresh : c.UpToDate) (send : σ → Ask → Outcome ReplyFrame × σ)
    (ops : List (Σ α, PublicOperation α)) : (c.calls send ops).UpToDate := by
  induction ops generalizing c with
  | nil => exact fresh
  | cons op ops ih => exact ih (fresh.call send op.2)

/-- A call that fails leaves what is remembered. -/
theorem call_failed {e : ClientError} (failed : (c.call send op).1 = .error e) :
    (c.call send op).2.held = c.held := by
  rcases c.call_changes send op with hsame | ⟨a, hplan, hcall⟩
  · rw [hsame]
  · have htold := PublicOperation.conclude_told hplan (c.ask send a).1
    rw [hcall] at failed ⊢
    rw [show op.conclude (c.ask send a).1 = .error e from failed] at htold
    show (Exchange.told? ⟨a, (c.ask send a).1⟩).getD c.held = c.held
    rw [← htold]
    rfl

/-! ## Changes of the subscription -/

/-- One request was made since: a change of the subscription to pairs of one topic. -/
def Changed (c after : Subscriber σ) (method : Http.Method) (topic : Topic) (pairs : List String) :
    Prop :=
  ∃ a reply, after.exchanges = c.exchanges ++ [⟨a, reply⟩] ∧ a.method = method ∧
    a.target = PublicOperation.subscriptionTarget ∧
    a.params.map Params.codec.encode = some (.object [(topic.name, .array (pairs.map .string))])

theorem changed_of_plan {method : Http.Method} {topic : Topic} {pairs : List String}
    (given : pairs ≠ [])
    (planned : op.plan c.held = .ok (PublicOperation.change method topic pairs)) :
    c.Changed (c.call send op).2 method topic pairs := by
  rw [PublicOperation.change_eq_some.2 ⟨given, rfl⟩] at planned
  rw [call_of_asked planned]
  exact ⟨_, _, rfl, rfl, rfl, congrArg some (topic.encode_params given)⟩

end Subscriber
end

/-- After any calls the last reply about the subscription is what is remembered, and a call that
fails leaves it. Subscribing to nothing asks nothing; unsubscribing from nothing asks to take back
the remembered pairs of the topic, if there are any; any other change asks for the given pairs. -/
theorem subscription_remembered {σ : Type} (send : σ → Ask → Outcome ReplyFrame × σ) (peer : σ)
    (history : List (Σ α, PublicOperation α)) :
    let c := ({ peer } : Subscriber σ).calls send history
    c.held = Exchange.lastTold c.exchanges ∧
      (∀ {α : Type} (op : PublicOperation α),
        op.call send c.held c.peer =
            ((c.call send op).1, (c.call send op).2.held, (c.call send op).2.peer) ∧
          ∀ e : ClientError, (c.call send op).1 = .error e → (c.call send op).2.held = c.held) ∧
      ∀ topic : Topic,
        c.call send (.subscribe topic []) = (.ok c.held, c) ∧
        (topic.pairs c.held = [] → c.call send (.unsubscribe topic []) = (.ok c.held, c)) ∧
        (topic.pairs c.held ≠ [] →
          c.Changed (c.call send (.unsubscribe topic [])).2 .delete topic
            (topic.pairs c.held)) ∧
        ∀ pairs : List String, pairs ≠ [] →
          c.Changed (c.call send (.subscribe topic pairs)).2 .post topic pairs ∧
            c.Changed (c.call send (.unsubscribe topic pairs)).2 .delete topic pairs := by
  intro c
  have hfresh : ({ peer } : Subscriber σ).UpToDate := rfl
  refine ⟨hfresh.calls send history, ?_, ?_⟩
  · intro α op
    exact ⟨c.call_unrecorded send op, fun e failed => Subscriber.call_failed failed⟩
  · intro topic
    refine ⟨Subscriber.call_of_remembered rfl, ?_, ?_, ?_⟩
    · intro hnone
      apply Subscriber.call_of_remembered
      simp only [PublicOperation.plan, PublicOperation.change, List.isEmpty_nil, if_true, hnone]
    · intro hsome
      exact Subscriber.changed_of_plan hsome rfl
    · intro pairs hgiven
      have hpairs : (if pairs.isEmpty then topic.pairs c.held else pairs) = pairs :=
        if_neg (mt List.isEmpty_iff.1 hgiven)
      constructor
      · exact Subscriber.changed_of_plan hgiven rfl
      · apply Subscriber.changed_of_plan hgiven
        rw [PublicOperation.plan, hpairs]

/-- A query that fails and a subscription that does not: taking back all subscriptions of the topic
takes back just the pair that was subscribed. -/
theorem subscribed_pair_taken_back :
    let told : Subscription := { trades := ["ten_btc"] }
    let send : List (Outcome ReplyFrame) → Ask → Outcome ReplyFrame × List (Outcome ReplyFrame) :=
      fun replies _ => (replies.headD (.error .timeout), replies.tail)
    let replies := [.error .connectionClosed, .ok (.reply 2 (Subscription.codec.encode told))]
    let c := ({ peer := replies } : Subscriber _).calls send
      [⟨_, .marketTicker "ten_btc"⟩, ⟨_, .subscribe .trades ["ten_btc"]⟩]
    c.held = told ∧ c.call send (.unsubscribe .depths []) = (.ok c.held, c) ∧
      c.Changed (c.call send (.unsubscribe .trades [])).2 .delete .trades ["ten_btc"] ∧
      c.Changed (c.call send (.subscribe .depths ["ten_btc"])).2 .post .depths ["ten_btc"] := by
  intro told send replies c
  have hheld : c.held = told := by decide +kernel
  have hdepths : Topic.depths.pairs c.held = [] := congrArg Topic.depths.pairs hheld
  have htrades : Topic.trades.pairs c.held = ["ten_btc"] := congrArg Topic.trades.pairs hheld
  have hgiven : ["ten_btc"] ≠ [] := List.cons_ne_nil _ _
  obtain ⟨-, -, htopics⟩ := subscription_remembered send replies
    [⟨_, .marketTicker "ten_btc"⟩, ⟨_, .subscribe .trades ["ten_btc"]⟩]
  have hback := (htopics .trades).2.2.1 (by rw [htrades]; exact hgiven)
  rw [htrades] at hback
  exact ⟨hheld, (htopics .depths).2.1 hdepths, hback, ((htopics .depths).2.2.2 _ hgiven).1⟩

end ExchangeClient.Channel
