import ExchangeClient.Proofs.Channel.Frames
import ExchangeClient.Proofs.Channel.Wording

/-!
# One order, written twice

An accepted order is written as a form and as the parameters of a channel. Two
orders of one side are the same form exactly if they are the same text over the
channel, and exactly if they agree on all that is said of an order, where amounts
count as they are rounded. What stands in both has the same text in both.
-/

namespace ExchangeClient

/-- What an object has under a name. -/
def Json.Value.member? : Json.Value → String → Option Json.Value
  | .object members, name => members.lookup name
  | _, _ => none

/-- Amounts have the same text exactly if they are rounded to the same number. -/
theorem Decimal.text_eq_iff {a b : Decimal} :
    a.text = b.text ↔ roundedAway 8 a.toRat = roundedAway 8 b.toRat := by
  obtain ⟨hfirst, ha⟩ := a.text_denotes
  obtain ⟨hsecond, hb⟩ := b.text_denotes
  constructor
  · intro same
    exact Option.some.inj (ha.symm.trans ((congrArg denoted? same).trans hb))
  · intro same
    exact hfirst.eq_of_denoted hsecond (ha.trans ((congrArg some same).trans hb.symm))

theorem Decimal.text_eq_of_reread {a b : Decimal} (same : a.reread = b.reread) :
    a.text = b.text := by
  have hround : a.round.toRat = b.round.toRat := by
    rw [← same_iff.1 a.reread_same_round, same, same_iff.1 b.reread_same_round]
  rw [text_eq_iff, ← round_toRat, ← round_toRat, hround]

theorem Method.name_inj {m m' : Method} (same : m.name = m'.name) : m = m' := by
  cases m with
  | limit => cases m' with
    | limit => rfl
    | market => exact absurd same (by decide)
  | market => cases m' with
    | limit => exact absurd same (by decide)
    | market => rfl

theorem TimeInForce.name_injective : Function.Injective TimeInForce.name := by
  intro t t' _
  cases t
  cases t'
  rfl

theorem flag_inj : ∀ b b' : Bool,
    (if b then "true" else "false") = (if b' then "true" else "false") → b = b' := by decide

namespace TradeRequest

/-- Two requests for the same order: they agree on all that is said of it, with amounts as they are
rounded. -/
structure SameOrder (r q : TradeRequest) : Prop where
  method : r.method = q.method
  pair : r.pair = q.pair
  amount : roundedAway 8 r.amount.toRat = roundedAway 8 q.amount.toRat
  postOnly : r.postOnly = q.postOnly
  timeInForce : r.timeInForce = q.timeInForce
  price : r.method = .limit → roundedAway 8 r.price.toRat = roundedAway 8 q.price.toRat

/-- What both ways of writing say of an order, under the names of the channel. -/
def sharedRows (r : TradeRequest) : List (String × Option String) :=
  [("method", some r.method.name),
    ("pair", some r.pair),
    ("amount", some r.amount.text),
    ("price", if r.method = .limit then some r.price.text else none),
    ("time_in_force", r.timeInForce.map TimeInForce.name)]

/-- What a form says, of which some may be left out. -/
def formRows (r : TradeRequest) : List (String × Option String) :=
  [("trade_method", some r.method.name),
    ("pair", some r.pair),
    ("amount", some r.amount.text),
    ("price", r.limitPrice?.map Decimal.text),
    ("post_only", some (if r.postOnly then "true" else "false")),
    ("time_in_force", r.timeInForce.map TimeInForce.name)]

variable {r q : TradeRequest}

theorem form_eq_rows (r : TradeRequest) : r.form = rows r.formRows := rfl

theorem formRows_distinct (r : TradeRequest) : (r.formRows.map (·.1)).Nodup :=
  show ["trade_method", "pair", "amount", "price", "post_only", "time_in_force"].Nodup by decide

theorem limitPrice?_text (r : TradeRequest) :
    r.limitPrice?.map Decimal.text = if r.method = .limit then some r.price.text else none := by
  rw [limitPrice?]
  split
  · rfl
  · rfl

/-! ## Forms -/

theorem SameOrder.price_text (same : SameOrder r q) :
    r.limitPrice?.map Decimal.text = q.limitPrice?.map Decimal.text := by
  rw [limitPrice?_text, limitPrice?_text, ← same.method]
  by_cases hlimit : r.method = .limit
  · rw [if_pos hlimit, if_pos hlimit, Decimal.text_eq_iff.2 (same.price hlimit)]
  · rw [if_neg hlimit, if_neg hlimit]

theorem form_eq_iff : r.form = q.form ↔ SameOrder r q := by
  constructor
  · intro same
    -- rows of one place have one name and are found under it
    have hrow : ∀ (i : ℕ) (k : String) (t t' : Option String), r.formRows[i]? = some (k, t) →
        q.formRows[i]? = some (k, t') → t = t' := by
      intro i k t t' ht ht'
      rw [form_eq_rows, form_eq_rows] at same
      have hfound := rows_find? r.formRows_distinct (List.mem_of_getElem? ht)
      rw [same, rows_find? q.formRows_distinct (List.mem_of_getElem? ht')] at hfound
      exact hfound.symm
    have hmethod := Method.name_inj (Option.some.inj (hrow 0 _ _ _ rfl rfl))
    refine ⟨hmethod, Option.some.inj (hrow 1 _ _ _ rfl rfl),
      Decimal.text_eq_iff.1 (Option.some.inj (hrow 2 _ _ _ rfl rfl)), ?_, ?_, ?_⟩
    · exact flag_inj _ _ (Option.some.inj (hrow 4 _ _ _ rfl rfl))
    · exact Option.map_injective TimeInForce.name_injective (hrow 5 _ _ _ rfl rfl)
    · intro hlimit
      have htext := hrow 3 _ _ _ rfl rfl
      rw [limitPrice?_text, limitPrice?_text, if_pos hlimit, if_pos (hmethod ▸ hlimit)] at htext
      exact Decimal.text_eq_iff.1 (Option.some.inj htext)
  · intro same
    have hrows : r.formRows = q.formRows := by
      rw [formRows, formRows, same.method, same.pair, Decimal.text_eq_iff.2 same.amount,
        same.price_text, same.postOnly, same.timeInForce]
    rw [form_eq_rows, form_eq_rows, hrows]

/-! ## The channel -/

theorem channel_price (r : TradeRequest) :
    r.channel.price = if r.method = .limit then r.price else .zero := by
  rw [channel, limitPrice?]
  split
  · rfl
  · rfl

/-- What is written over the channel is read as the order it was made of, but for the rounding. -/
theorem sameOrder_of_write
    (same : Channel.Params.codec.write r.channel = Channel.Params.codec.write q.channel) :
    SameOrder r q := by
  have hr := Channel.Params.codec_restores.readText_text
    (.refl (Channel.Params.codec.encode r.channel))
  have hq := Channel.Params.codec_restores.readText_text
    (.refl (Channel.Params.codec.encode q.channel))
  have hread : r.channel.mapDecimals .reread = q.channel.mapDecimals .reread :=
    Except.ok.inj (hr.symm.trans ((congrArg Channel.Params.codec.readText same).trans hq))
  have hmethod : r.method = q.method := Option.some.inj (congrArg Channel.Params.method hread)
  refine ⟨hmethod, congrArg Channel.Params.pair hread, ?_, congrArg Channel.Params.postOnly hread,
    congrArg Channel.Params.timeInForce hread, ?_⟩
  · have hamount := congrArg Channel.Params.amount hread
    rw [Channel.Params.mapDecimals_amount, Channel.Params.mapDecimals_amount] at hamount
    exact Decimal.text_eq_iff.1 (Decimal.text_eq_of_reread hamount)
  · intro hlimit
    have hprice := congrArg Channel.Params.price hread
    rw [Channel.Params.mapDecimals_price, Channel.Params.mapDecimals_price, channel_price,
      channel_price, if_pos hlimit, if_pos (hmethod ▸ hlimit)] at hprice
    exact Decimal.text_eq_iff.1 (Decimal.text_eq_of_reread hprice)

/-- An accepted price is positive, and one that is not sent is zero. -/
theorem channel_price_isZero (accepted : r.check = .ok ()) :
    r.channel.price.isZero = decide (r.method = .market) := by
  obtain ⟨-, -, hprice⟩ := check_iff.1 accepted
  rw [channel_price]
  cases hmethod : r.method with
  | limit => exact Decimal.isZero_of_isPositive (hprice hmethod)
  | market => rfl

theorem channel_price_text (same : SameOrder r q) :
    r.channel.price.text = q.channel.price.text := by
  rw [channel_price, channel_price, ← same.method]
  by_cases hlimit : r.method = .limit
  · rw [if_pos hlimit, if_pos hlimit, Decimal.text_eq_iff.2 (same.price hlimit)]
  · rw [if_neg hlimit, if_neg hlimit]

theorem orderRows_eq (accepted : r.check = .ok ()) (accepted' : q.check = .ok ())
    (side : r.side = q.side) (same : SameOrder r q) :
    Channel.orderRows r = Channel.orderRows q := by
  obtain ⟨-, hamount, -⟩ := check_iff.1 accepted
  obtain ⟨-, hamount', -⟩ := check_iff.1 accepted'
  simp only [Channel.orderRows, side, same.method, same.pair, same.postOnly, same.timeInForce,
    same.price_text, channel_price_text same, Decimal.text_eq_iff.2 same.amount,
    channel_price_isZero accepted, channel_price_isZero accepted',
    Decimal.isZero_of_isPositive hamount, Decimal.isZero_of_isPositive hamount']

theorem write_eq_iff (accepted : r.check = .ok ()) (accepted' : q.check = .ok ())
    (side : r.side = q.side) :
    Channel.Params.codec.write r.channel = Channel.Params.codec.write q.channel ↔
      SameOrder r q := by
  refine ⟨sameOrder_of_write, fun same => ?_⟩
  have hmembers : Json.Record.members Channel.Params.fields r.channel =
      Json.Record.members Channel.Params.fields q.channel := by
    rw [Channel.orderRows_frame, Channel.orderRows_frame,
      orderRows_eq accepted accepted' side same]
  exact congrArg (fun members => (Json.Value.object members).text) hmembers

/-! ## What stands in both -/

theorem shared_in_form (r : TradeRequest) {row : String × Option String}
    (mem : row ∈ r.sharedRows) : r.form.find? (Channel.formName row.1) = row.2 := by
  have hrows : ∀ row ∈ r.sharedRows, (Channel.formName row.1, row.2) ∈ r.formRows := by
    simp only [sharedRows, formRows, List.forall_mem_cons, limitPrice?_text, Channel.formName]
    simp
  exact rows_find? r.formRows_distinct (hrows row mem)

/-- A parameter of the channel is found under its name, if it is not left out. -/
theorem member?_encode {field : Json.RecordField Channel.Params}
    (mem : field ∈ Channel.Params.fields) (p : Channel.Params) :
    (Channel.Params.codec.encode p).member? field.name = field.write p :=
  Json.Record.lookup_members Channel.Params.fields_distinct mem p

/-- The price stands in the parameters exactly if the order has one. -/
theorem write_price {field : Json.RecordField Channel.Params}
    (hfield : Channel.Params.fields[4]? = some field)
    (zero : r.channel.price.isZero = decide (r.method = .market)) :
    field.write r.channel =
      (if r.method = .limit then some r.price.text else none).map .string := by
  obtain rfl := Option.some.inj hfield
  cases hmethod : r.method with
  | limit =>
    rw [hmethod] at zero
    refine (Json.RecordField.amount_write _ _ _ zero).trans ?_
    rw [channel_price, if_pos hmethod]
    rfl
  | market =>
    rw [hmethod] at zero
    exact if_pos zero

theorem shared_in_channel (accepted : r.check = .ok ()) {row : String × Option String}
    (mem : row ∈ r.sharedRows) :
    (Channel.Params.codec.encode r.channel).member? row.1 = row.2.map .string := by
  obtain ⟨hpair, hamount, -⟩ := check_iff.1 accepted
  revert row
  simp only [sharedRows, List.forall_mem_cons, List.not_mem_nil, false_imp_iff, implies_true,
    and_true]
  refine ⟨?_, ?_, ?_, ?_, ?_⟩
  · exact member?_encode (List.mem_of_getElem? (i := 1) rfl) r.channel
  · have hwritten := member?_encode (List.mem_of_getElem? (i := 2) rfl) r.channel
    exact hwritten.trans (if_neg (Bool.not_eq_true _ ▸ hpair))
  · have hwritten := member?_encode (List.mem_of_getElem? (i := 3) rfl) r.channel
    exact hwritten.trans
      (Json.RecordField.amount_write _ _ _ (Decimal.isZero_of_isPositive hamount))
  · have hwritten := member?_encode (List.mem_of_getElem? (i := 4) rfl) r.channel
    exact hwritten.trans (write_price rfl (channel_price_isZero accepted))
  · refine (member?_encode (List.mem_of_getElem? (i := 6) rfl) r.channel).trans ?_
    obtain ⟨side, method, pair, amount, price, postOnly, timeInForce⟩ := r
    cases timeInForce with
    | none => rfl
    | some t => rfl

end TradeRequest

/-- An accepted order is told alike by its form and over the channel: what stands in both has one
text, and the price stands in neither where there is none. Two accepted orders of one side have one
form exactly if they have one text over the channel, and exactly if they are the same order. -/
theorem orders_told_alike :
    (∀ (r : TradeRequest) (form : Form.Params) (params : Channel.Params),
      r.pack = .ok (form, params) → ∀ row ∈ r.sharedRows,
        form.find? (Channel.formName row.1) = row.2 ∧
          (Channel.Params.codec.encode params).member? row.1 = row.2.map .string) ∧
    ∀ (r q : TradeRequest) (form form' : Form.Params) (params params' : Channel.Params),
      r.pack = .ok (form, params) → q.pack = .ok (form', params') → r.side = q.side →
        (form = form' ↔
          Channel.Params.codec.write params = Channel.Params.codec.write params') ∧
        (form = form' ↔ r.SameOrder q) := by
  constructor
  · intro r form params packed row mem
    obtain ⟨hcheck, rfl, rfl⟩ := TradeRequest.pack_ok packed
    exact ⟨r.shared_in_form mem, TradeRequest.shared_in_channel hcheck mem⟩
  · intro r q form form' params params' packed packed' side
    obtain ⟨hcheck, rfl, rfl⟩ := TradeRequest.pack_ok packed
    obtain ⟨hcheck', rfl, rfl⟩ := TradeRequest.pack_ok packed'
    have hform : r.form = q.form ↔ r.SameOrder q := TradeRequest.form_eq_iff
    exact ⟨hform.trans (TradeRequest.write_eq_iff hcheck hcheck' side).symm, hform⟩

/-- Two amounts that are rounded alike make one order, and a market order has no price in either
form. -/
theorem rounded_alike_told_alike :
    let first : Decimal := ⟨false, 5, 9, by decide, by decide⟩
    let second : Decimal := ⟨false, 1, 8, by decide, by decide⟩
    let r : TradeRequest := { method := .market, pair := "ten_btc", amount := first }
    let q : TradeRequest :=
      { method := .market, pair := "ten_btc", amount := second, price := first }
    r.pack = .ok (r.form, r.channel) ∧ q.pack = .ok (q.form, q.channel) ∧
      r.form.find? "price" = none ∧
      (Channel.Params.codec.encode r.channel).member? "price" = none ∧
      r.form = q.form ∧
      Channel.Params.codec.write r.channel = Channel.Params.codec.write q.channel := by
  intro first second r q
  have hr : r.pack = .ok (r.form, r.channel) := rfl
  have hq : q.pack = .ok (q.form, q.channel) := rfl
  obtain ⟨hshared, hequal⟩ := orders_told_alike
  obtain ⟨hform, hchannel⟩ := hshared r _ _ hr ("price", none) (List.mem_of_getElem? (i := 3) rfl)
  obtain ⟨hwritten, hsame⟩ := hequal r q _ _ _ _ hr hq rfl
  have htext : first.text = second.text := by decide +kernel
  have horder : r.SameOrder q :=
    ⟨rfl, rfl, Decimal.text_eq_iff.1 htext, rfl, rfl, fun hlimit => nomatch hlimit⟩
  exact ⟨hr, hq, hform, hchannel, hsame.2 horder, hwritten.1 (hsame.2 horder)⟩

end ExchangeClient
