import ExchangeClient.Channel.Connection
import ExchangeClient.Proofs.Request.Fitness
import ExchangeClient.Signing

/-!
# Frames and forms that say the same

The parameters of a call are written as members of a frame or as a form. A frame
has values of different kinds and leaves out what has its default; a form has
texts only, and says some defaults. Laid side by side in rows, a parameter a row,
both say the same if they do so in each row.
-/

namespace ExchangeClient.Channel

open Json

/-- The members of the object that the frame of a request carries. -/
def Ask.members (a : Ask) : List (String × Value) :=
  (a.params.map (Record.members Params.fields)).getD []

/-- The name in a form of what is told in a frame under a name. -/
def formName : String → String
  | "method" => "trade_method"
  | name => name

/-- The text in a form for a value in a frame. -/
def formText : Value → String
  | .bool b => if b then "true" else "false"
  | v => v.asText

/-- The text in a form for what a frame leaves out, where a form does not leave it out as well. -/
def defaultText? : String → Option String
  | "offset" => some (intParam ({} : Params).offset)
  | "limit" => some (intParam ({} : Params).limit)
  | "post_only" => some (formText (.bool ({} : Params).postOnly))
  | _ => none

/-- What the frame tells stands in the form, but for the side, which is told by the target; what
stands in the form, but for the moment of signing, is told by the frame or left out of it as the
default. -/
structure SayTheSame (frame : List (String × Value)) (form : List (String × String)) : Prop where
  once : (form.map (·.1)).Nodup
  carried : ∀ m ∈ frame, m.1 ≠ "type" → (formName m.1, formText m.2) ∈ form
  meant : ∀ p ∈ form, p.1 ≠ Freshness.timestamp.param → ∃ name, formName name = p.1 ∧
    ((∃ v, (name, v) ∈ frame ∧ formText v = p.2) ∨
      name ∉ frame.map (·.1) ∧ defaultText? name = some p.2)

/-! ## Rows -/

/-- A parameter as it stands in a frame and in a form. -/
structure Row where
  name : String
  value? : Option Value
  text? : Option String

namespace Row

/-- The form has the text for the value in the frame, or for the default that is left out there. -/
def Agrees (row : Row) : Prop :=
  match row.value?, row.text? with
  | some v, some t => formText v = t
  | some _, none => row.name = "type"
  | none, some t => defaultText? row.name = some t
  | none, none => True

/-- A text that a frame leaves out where it is empty. -/
def label (name text : String) : Row :=
  ⟨name, if text.isEmpty then none else some (.string text), some text⟩

/-- A whole number that a frame leaves out where it is zero. -/
def count (name : String) (i : Int64) (text : String) : Row :=
  ⟨name, if i == 0 then none else some (.ofInt i.toInt), some text⟩

def frame (rows : List Row) : List (String × Value) :=
  rows.filterMap fun row => row.value?.map fun v => (row.name, v)

def form (rows : List Row) : Form.Params :=
  TradeRequest.rows (rows.map fun row => (formName row.name, row.text?))

theorem label_agrees (name : String) {text : String} (given : text ≠ "") :
    (label name text).Agrees := by
  have hgiven : text.isEmpty = false := isEmpty_eq_false_iff_ne.2 given
  simp [Agrees, label, hgiven, formText, Value.asText]

theorem count_agrees {name text : String} {i : Int64} (same : text = intParam i)
    (default : i = 0 → defaultText? name = some text) : (count name i text).Agrees := by
  by_cases hzero : i = 0
  · simpa [Agrees, count, hzero] using default hzero
  · rw [same]
    simp [Agrees, count, hzero]
    rfl

theorem mem_frame {rows : List Row} {m : String × Value} :
    m ∈ frame rows ↔ ∃ row ∈ rows, row.name = m.1 ∧ row.value? = some m.2 := by
  obtain ⟨name, v⟩ := m
  simp only [frame, List.mem_filterMap, Option.map_eq_some_iff, Prod.mk.injEq]
  constructor
  · rintro ⟨row, hrow, _, hvalue, hname, rfl⟩
    exact ⟨row, hrow, hname, hvalue⟩
  · rintro ⟨row, hrow, hname, hvalue⟩
    exact ⟨row, hrow, v, hvalue, hname, rfl⟩

theorem mem_form {rows : List Row} (distinct : (rows.map fun row => formName row.name).Nodup)
    {p : String × String} :
    p ∈ (form rows).entries ↔ ∃ row ∈ rows, formName row.name = p.1 ∧ row.text? = some p.2 := by
  obtain ⟨name, text⟩ := p
  have hnames : ((rows.map fun row => (formName row.name, row.text?)).map (·.1)).Nodup := by
    rw [List.map_map]
    exact distinct
  rw [form, (TradeRequest.rows_perm hnames).mem_iff, List.mem_filterMap]
  simp only [List.mem_map, Option.map_eq_some_iff, Prod.mk.injEq]
  constructor
  · rintro ⟨_, ⟨row, hrow, rfl⟩, _, htext, hname, rfl⟩
    exact ⟨row, hrow, hname, htext⟩
  · rintro ⟨row, hrow, hname, htext⟩
    exact ⟨_, ⟨row, hrow, rfl⟩, text, htext, hname, rfl⟩

/-- Rows of different names, none of them that of the moment, that agree each. -/
structure Matching (rows : List Row) : Prop where
  distinct : (Freshness.timestamp.param :: rows.map fun row => formName row.name).Nodup
  agree : ∀ row ∈ rows, row.Agrees

/-- Rows that match make a frame and a form that say the same. -/
theorem Matching.say_the_same {rows : List Row} {payload : List (String × String)}
    (matching : Matching rows) (once : (payload.map (·.1)).Nodup)
    (stamped : (payload.filter fun p => p.1 != Freshness.timestamp.param) =
      (form rows).entries.filter fun p => p.1 != Freshness.timestamp.param) :
    SayTheSame (frame rows) payload := by
  obtain ⟨hmoment, hnames⟩ := List.nodup_cons.1 matching.distinct
  have hmem : ∀ p : String × String, p.1 ≠ Freshness.timestamp.param →
      (p ∈ payload ↔ p ∈ (form rows).entries) := by
    intro p hother
    have hboth := congrArg (p ∈ ·) stamped
    simpa [hother] using hboth
  refine ⟨once, ?_, ?_⟩
  · intro m hm hside
    obtain ⟨row, hrow, hname, hvalue⟩ := mem_frame.1 hm
    have hother : formName m.1 ≠ Freshness.timestamp.param := by
      intro hsame
      exact hmoment (List.mem_map.2 ⟨row, hrow, hname ▸ hsame⟩)
    have hagrees := matching.agree row hrow
    rw [hmem _ hother, mem_form hnames]
    refine ⟨row, hrow, congrArg formName hname, ?_⟩
    rw [← hname] at hside
    cases htext : row.text? with
    | none => exact absurd (by simpa [Agrees, hvalue, htext] using hagrees) hside
    | some text => simpa [Agrees, hvalue, htext, eq_comm] using hagrees
  · intro p hp hother
    obtain ⟨row, hrow, hname, htext⟩ := (mem_form hnames).1 ((hmem p hother).1 hp)
    have hagrees := matching.agree row hrow
    refine ⟨row.name, hname, ?_⟩
    cases hvalue : row.value? with
    | some v =>
      exact Or.inl ⟨v, mem_frame.2 ⟨row, hrow, rfl, hvalue⟩,
        by simpa [Agrees, hvalue, htext] using hagrees⟩
    | none =>
      refine Or.inr ⟨?_, by simpa [Agrees, hvalue, htext] using hagrees⟩
      intro hframe
      obtain ⟨m, hm, hsame⟩ := List.mem_map.1 hframe
      obtain ⟨row', hrow', hname', hvalue'⟩ := mem_frame.1 hm
      -- no two rows have one name
      have hone : row' = row := List.inj_on_of_nodup_map hnames hrow' hrow
        (congrArg formName (hname'.trans hsame))
      rw [hone, hvalue] at hvalue'
      cases hvalue'

end Row

/-! ## The rows of calls -/

section

variable {pair : String} {tradeId : Int64}

/-- A call about a pair. -/
def pairRows (pair : String) : List Row := [.label "pair" pair]

theorem pairRows_matching (given : pair ≠ "") : Row.Matching (pairRows pair) where
  distinct := show ["timestamp", "pair"].Nodup by decide
  agree := by simpa [pairRows] using Row.label_agrees "pair" given

/-- A call about one trade. -/
def tradeRows (pair : String) (tradeId : Int64) : List Row :=
  [.label "pair" pair, .count "trade_id" tradeId (intParam tradeId)]

theorem tradeRows_matching (given : pair ≠ "") (positive : 0 < tradeId) :
    Row.Matching (tradeRows pair tradeId) where
  distinct := show ["timestamp", "pair", "trade_id"].Nodup by decide
  agree := by
    have hnumber : (Row.count "trade_id" tradeId (intParam tradeId)).Agrees :=
      Row.count_agrees rfl fun hzero => absurd (hzero ▸ positive) (by decide)
    simpa [tradeRows] using ⟨Row.label_agrees "pair" given, hnumber⟩

theorem intParam_zero : intParam 0 = "0" := by decide +kernel

theorem max_zero_of_neg {i : Int64} (negative : i < 0) : max i 0 = 0 := by
  show (if i ≤ 0 then 0 else i) = 0
  rw [if_pos (Int64.le_of_lt negative)]

theorem max_zero_of_nonneg {i : Int64} (nonneg : 0 ≤ i) : max i 0 = i := by
  show (if i ≤ 0 then 0 else i) = i
  split
  · rename_i hlow
    exact Int64.le_antisymm nonneg hlow
  · rfl

theorem intParam_ne_zero {i : Int64} (negative : i < 0) : intParam i ≠ intParam 0 := by
  intro hzero
  rw [intParam_zero] at hzero
  have hchars := congrArg String.toList hzero
  have hnegative : i.toInt < 0 := Int64.lt_iff_toInt_lt.1 negative
  rw [intParam, Digits.intText, String.toList_ofList, Digits.ofInt, if_pos hnegative] at hchars
  exact absurd (List.cons.inj hchars).1 (by decide)

/-- A call for the trades of a pair; a form does not go before the first. -/
def listingRows (pair : String) (offset limit : Int64) : List Row :=
  [.label "pair" pair, .count "limit" limit (intParam limit),
    .count "offset" offset (intParam (max offset 0))]

theorem listingRows_form (pair : String) (offset limit : Int64) :
    ((Dictionary.ofList [("pair", pair)]).insert "offset" (intParam (max offset 0))).insert "limit"
      (intParam limit) = Row.form (listingRows pair offset limit) := by
  let first := ("offset", intParam (max offset 0))
  let second := ("limit", intParam limit)
  have hnames : ([("pair", pair), first, second].map (·.1)).Nodup :=
    show ["pair", "offset", "limit"].Nodup by decide
  -- the form has the offset first, the rows have it last
  have hperm : [("pair", pair), first, second].Perm [("pair", pair), second, first] :=
    .cons _ (.swap _ _ _)
  exact (Dictionary.ofList_of_perm
    ((Dictionary.entries_ofList_perm_iff.2 hnames).trans hperm)).symm

theorem listingRows_distinct (pair : String) (offset limit : Int64) :
    (Freshness.timestamp.param ::
      (listingRows pair offset limit).map fun row => formName row.name).Nodup :=
  show ["timestamp", "pair", "limit", "offset"].Nodup by decide

theorem listingRows_matching {offset : Int64} (given : pair ≠ "") (nonneg : 0 ≤ offset)
    (limit : Int64) : Row.Matching (listingRows pair offset limit) where
  distinct := listingRows_distinct pair offset limit
  agree := by
    have hlimit : (Row.count "limit" limit (intParam limit)).Agrees :=
      Row.count_agrees rfl fun hzero => by rw [hzero]; rfl
    have hoffset : (Row.count "offset" offset (intParam offset)).Agrees :=
      Row.count_agrees rfl fun hzero => by rw [hzero]; rfl
    simpa [listingRows, max_zero_of_nonneg nonneg] using
      ⟨Row.label_agrees "pair" given, hlimit, hoffset⟩

/-- The form does not have an offset below zero, but the frame does. -/
theorem negative_offset_said_differently {offset limit : Int64} (negative : offset < 0) :
    ¬SayTheSame (Row.frame (listingRows pair offset limit))
      (Row.form (listingRows pair offset limit)).entries := by
  intro same
  have hnonzero : offset ≠ 0 := by
    rintro rfl
    exact Int64.lt_irrefl negative
  have hmember : ("offset", Value.ofInt offset.toInt) ∈
      Row.frame (listingRows pair offset limit) := by
    rw [Row.mem_frame]
    refine ⟨.count "offset" offset (intParam (max offset 0)), by simp [listingRows], rfl, ?_⟩
    simp [Row.count, hnonzero]
  have hcarried := same.carried _ hmember (show "offset" ≠ "type" by decide)
  rw [Row.mem_form (List.nodup_cons.1 (listingRows_distinct pair offset limit)).2] at hcarried
  obtain ⟨row, hrow, hname, htext⟩ := hcarried
  simp only [listingRows, List.mem_cons, List.not_mem_nil, or_false] at hrow
  rcases hrow with rfl | rfl | rfl
  · exact absurd (show "pair" = "offset" from hname) (by decide)
  · exact absurd (show "limit" = "offset" from hname) (by decide)
  · rw [max_zero_of_neg negative] at htext
    exact intParam_ne_zero negative (Option.some.inj htext).symm

/-- A call to place an order. -/
def orderRows (r : TradeRequest) : List Row :=
  [⟨"type", r.side.map fun side => .string side.name, none⟩,
    ⟨"method", some (.string r.method.name), some r.method.name⟩,
    .label "pair" r.pair,
    ⟨"amount", if r.amount.isZero then none else some (.string r.amount.text), some r.amount.text⟩,
    ⟨"price", if r.channel.price.isZero then none else some (.string r.channel.price.text),
      r.limitPrice?.map Decimal.text⟩,
    ⟨"post_only", if r.postOnly then some (.bool true) else none,
      some (if r.postOnly then "true" else "false")⟩,
    ⟨"time_in_force", r.timeInForce.map fun t => .string t.name,
      r.timeInForce.map TimeInForce.name⟩]

theorem orderRows_frame (r : TradeRequest) :
    Record.members Params.fields r.channel = Row.frame (orderRows r) := by
  obtain ⟨side, method, pair, amount, price, postOnly, timeInForce⟩ := r
  cases side <;> cases postOnly <;> cases timeInForce <;> rfl

theorem orderRows_matching {r : TradeRequest} (accepted : r.check = .ok ()) :
    Row.Matching (orderRows r) where
  distinct := show ["timestamp", "type", "trade_method", "pair", "amount", "price", "post_only",
    "time_in_force"].Nodup by decide
  agree := by
    obtain ⟨hpair, hamount, hprice⟩ := TradeRequest.check_iff.1 accepted
    simp only [orderRows, List.forall_mem_cons, List.not_mem_nil, false_imp_iff, implies_true,
      and_true]
    refine ⟨?_, rfl, Row.label_agrees _ (isEmpty_eq_false_iff_ne.1 hpair), ?_, ?_, ?_, ?_⟩
    · cases r.side with
      | none => trivial
      | some side => rfl
    · simp only [Decimal.isZero_of_isPositive hamount]
      rfl
    · cases hmethod : r.method with
      | limit =>
        have hnonzero := Decimal.isZero_of_isPositive (hprice hmethod)
        simp [TradeRequest.channel, TradeRequest.limitPrice?, hmethod, hnonzero, Row.Agrees,
          formText, Value.asText]
      | market =>
        simp [TradeRequest.channel, TradeRequest.limitPrice?, hmethod, Row.Agrees, Decimal.isZero,
          Decimal.zero]
    · cases r.postOnly with
      | false => rfl
      | true => rfl
    · cases r.timeInForce with
      | none => trivial
      | some t => rfl

end

end ExchangeClient.Channel
