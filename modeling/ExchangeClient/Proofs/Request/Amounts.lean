import ExchangeClient.Proofs.Conversation
import ExchangeClient.Proofs.Decimal.Rendering
import ExchangeClient.Proofs.Dictionary
import ExchangeClient.Proofs.Json.Records
import ExchangeClient.Request.Trade
import ExchangeClient.Request.Withdrawal

/-!
# Amounts of accepted requests

A request is accepted for its exact amounts and sends them rounded to eight
places. So an accepted amount is never sent as a negative one, but an amount
below half of the last place is sent as zero.
-/

namespace ExchangeClient

/-- Whether a text denotes a number above zero. -/
def DenotesPositive (text : String) : Prop := ∃ x, denoted? text = some x ∧ 0 < x

namespace Decimal

theorem isPositive_iff {a : Decimal} : a.isPositive = true ↔ 0 < a.toRat := by
  rw [isPositive, decide_eq_true_eq, toRat, div_pos_iff_of_pos_right (by positivity),
    Int.cast_pos]

theorem isZero_of_isPositive {a : Decimal} (positive : a.isPositive = true) :
    a.isZero = false := by
  rw [isZero, beq_eq_false_iff_ne]
  intro hzero
  rw [isPositive_iff, toRat_eq, hzero, Nat.cast_zero, zero_div, signed, neg_zero, ite_self]
    at positive
  exact lt_irrefl _ positive

/-- A text for a positive amount: it denotes the amount as it is rounded, which is never negative
and is positive exactly from half of the last place on. -/
structure RenderedAs (a : Decimal) (text : String) : Prop where
  denoted : denoted? text = some (roundedAway 8 a.toRat)
  nonneg : 0 ≤ roundedAway 8 a.toRat
  positive_iff : DenotesPositive text ↔ 1 / (2 * 10 ^ 8) ≤ a.toRat

theorem renderedAs_text {a : Decimal} (positive : a.isPositive = true) : a.RenderedAs a.text := by
  have hnonneg : 0 ≤ a.toRat := (isPositive_iff.1 positive).le
  have hdenoted := a.text_denotes.2
  have hpositive : DenotesPositive a.text ↔ 0 < roundedAway 8 a.toRat := by
    simp only [DenotesPositive, hdenoted, Option.some.injEq, exists_eq_left']
  refine ⟨hdenoted, roundedAway_nonneg hnonneg, ?_⟩
  rw [hpositive, roundedAway_pos_iff hnonneg, div_le_iff₀ (by positivity)]
  constructor <;> intro h <;> linarith

end Decimal

/-! ## Orders -/

/-- An amount that is not left out is written as its text. -/
theorem Json.RecordField.amount_write {σ : Type} (name : String) (get : σ → Decimal)
    (set : σ → Decimal → σ) {s : σ} (nonzero : (get s).isZero = false) :
    (amount name get set).write s = some (.string (get s).text) := by
  have hwrite : (amount name get set).write s =
      if (get s).isZero then none else some (.string (get s).text) := rfl
  rw [hwrite, nonzero, if_neg Bool.false_ne_true]

namespace Channel.Params

theorem fields_distinct : (fields.map (·.name)).Nodup := by decide

/-- An amount is found in the parameters of a channel under the name of its field. -/
theorem find_amount {name : String} {get : Params → Decimal} {set : Params → Decimal → Params}
    (mem : Json.RecordField.amount name get set ∈ fields) {p : Params}
    (nonzero : (get p).isZero = false) : (codec.encode p).find name = .string (get p).text := by
  have hfind := Json.Record.find_encode fields_distinct mem p
  rw [Json.RecordField.amount_write _ _ _ nonzero, Option.getD_some] at hfind
  exact hfind

end Channel.Params

namespace TradeRequest

theorem check_iff {r : TradeRequest} : r.check = .ok () ↔ r.pair.isEmpty = false ∧
    r.amount.isPositive = true ∧ (r.method = .limit → r.price.isPositive = true) := by
  simp only [check, Except.ite_error_eq_ok, Bool.not_eq_true, Bool.not_eq_true',
    Bool.not_eq_false, not_and, and_true]

theorem pack_ok {r : TradeRequest} {form : Form.Params} {params : Channel.Params}
    (accepted : r.pack = .ok (form, params)) :
    r.check = .ok () ∧ form = r.form ∧ params = r.channel := by
  obtain ⟨⟨⟩, hcheck, hbuilt⟩ := Except.bind_eq_ok.1 accepted
  cases hbuilt
  exact ⟨hcheck, rfl, rfl⟩

theorem kept_rows_distinct {entries : List (String × Option String)}
    (distinct : (entries.map (·.1)).Nodup) :
    ((entries.filterMap fun e => e.2.map fun v => (e.1, v)).map (·.1)).Nodup := by
  have hkept : ((entries.filterMap fun e => e.2.map fun v => (e.1, v)).map (·.1)).Sublist
      (entries.map (·.1)) := by
    clear distinct
    induction entries with
    | nil => exact List.Sublist.refl _
    | cons e entries ih =>
      obtain ⟨name, value⟩ := e
      cases value with
      | none => exact ih.cons name
      | some v => exact ih.cons_cons name
  exact distinct.sublist hkept

/-- The parameters are the rows that are not left out, but for their order. -/
theorem rows_perm {entries : List (String × Option String)}
    (distinct : (entries.map (·.1)).Nodup) :
    (rows entries).entries.Perm (entries.filterMap fun e => e.2.map fun v => (e.1, v)) :=
  Dictionary.entries_ofList_perm_iff.2 (kept_rows_distinct distinct)

/-- A parameter is found under its name, and nothing is where it is left out. -/
theorem rows_find? {entries : List (String × Option String)}
    (distinct : (entries.map (·.1)).Nodup) {k : String} {text? : Option String}
    (mem : (k, text?) ∈ entries) : (rows entries).find? k = text? := by
  cases text? with
  | some text =>
    apply Dictionary.find?_ofList_of_mem (kept_rows_distinct distinct)
    exact List.mem_filterMap.2 ⟨_, mem, rfl⟩
  | none =>
    rw [rows, Dictionary.find?_ofList, Entries.find?, Option.map_eq_none_iff, List.find?_eq_none]
    intro e he hkey
    obtain ⟨⟨name, text?⟩, hmem, hrow⟩ := List.mem_filterMap.1 (List.mem_reverse.1 he)
    obtain ⟨text, rfl, rfl⟩ := Option.map_eq_some_iff.1 hrow
    have hsame := List.inj_on_of_nodup_map distinct hmem mem (beq_iff_eq.1 hkey)
    cases hsame

theorem form_amount (r : TradeRequest) : r.form.find? "amount" = some r.amount.text :=
  rows_find? (by simp) (List.mem_of_getElem? (i := 2) rfl)

theorem form_price {r : TradeRequest} (limit : r.method = .limit) :
    r.form.find? "price" = some r.price.text := by
  have hprice : r.limitPrice?.map Decimal.text = some r.price.text := by
    rw [limitPrice?, if_pos limit, Option.map_some]
  apply rows_find? (by simp)
  rw [hprice]
  exact List.mem_of_getElem? (i := 3) rfl

end TradeRequest

/-! ## Withdrawals -/

namespace WithdrawRequest

theorem pack_ok {r : WithdrawRequest} {form : Form.Params} (accepted : r.pack = .ok form) :
    r.check = .ok () ∧ form = r.form := by
  obtain ⟨⟨⟩, hcheck, hbuilt⟩ := Except.bind_eq_ok.1 accepted
  cases hbuilt
  exact ⟨hcheck, rfl⟩

theorem check_iff {r : WithdrawRequest} : r.check = .ok () ↔ r.requestId.isEmpty = false ∧
    r.asset.isEmpty = false ∧ r.address.isEmpty = false ∧ r.amount.isPositive = true := by
  simp only [check, Except.ite_error_eq_ok, Bool.not_eq_true, Bool.not_eq_true',
    Bool.not_eq_false, and_true]

theorem form_amount (r : WithdrawRequest) : r.form.find? "amount" = some r.amount.text :=
  Dictionary.find?_ofList_of_mem (by simp) (List.mem_of_getElem? (i := 5) rfl)

end WithdrawRequest

/-- The amounts of accepted requests are sent as they are rounded: the same text stands in the form
and in the parameters of a channel, and it is zero exactly for amounts below half of the last
place. -/
theorem accepted_amounts_rendered (r : TradeRequest) (q : WithdrawRequest) :
    (∀ (form : Form.Params) (params : Channel.Params), r.pack = .ok (form, params) →
      (∃ text, form.find? "amount" = some text ∧
        (Channel.Params.codec.encode params).find "amount" = .string text ∧
        r.amount.RenderedAs text) ∧
      (r.method = .limit → ∃ text, form.find? "price" = some text ∧
        (Channel.Params.codec.encode params).find "price" = .string text ∧
        r.price.RenderedAs text)) ∧
    ∀ form : Form.Params, q.pack = .ok form →
      ∃ text, form.find? "amount" = some text ∧ q.amount.RenderedAs text := by
  constructor
  · intro form params accepted
    obtain ⟨hcheck, rfl, rfl⟩ := TradeRequest.pack_ok accepted
    obtain ⟨-, hamount, hprice⟩ := TradeRequest.check_iff.1 hcheck
    constructor
    · refine ⟨r.amount.text, r.form_amount, ?_, Decimal.renderedAs_text hamount⟩
      exact Channel.Params.find_amount (p := r.channel) (List.mem_of_getElem? (i := 3) rfl)
        (Decimal.isZero_of_isPositive hamount)
    · intro hlimit
      have hcarried : r.channel.price = r.price := by
        simp only [TradeRequest.channel, TradeRequest.limitPrice?, if_pos hlimit,
          Option.getD_some]
      -- a price of zero would be left out of the parameters of the channel
      have hnonzero : r.channel.price.isZero = false := by
        rw [hcarried]
        exact Decimal.isZero_of_isPositive (hprice hlimit)
      refine ⟨r.price.text, TradeRequest.form_price hlimit, ?_,
        Decimal.renderedAs_text (hprice hlimit)⟩
      rw [← hcarried]
      exact Channel.Params.find_amount (List.mem_of_getElem? (i := 4) rfl) hnonzero
  · intro form accepted
    obtain ⟨hcheck, rfl⟩ := WithdrawRequest.pack_ok accepted
    obtain ⟨-, -, -, hamount⟩ := WithdrawRequest.check_iff.1 hcheck
    exact ⟨q.amount.text, q.form_amount, Decimal.renderedAs_text hamount⟩

/-- Half of the last place is sent as the last place. -/
theorem half_of_last_place_sent :
    let half : Decimal := ⟨false, 5, 9, by decide, by decide⟩
    let order : TradeRequest := { pair := "ten_btc", amount := half, price := half }
    let payout : WithdrawRequest :=
      { requestId := "1", asset := "ten", address := "a", amount := half }
    half.text = "0.00000001" ∧ order.pack = .ok (order.form, order.channel) ∧
      payout.pack = .ok payout.form ∧
      (∃ text, order.form.find? "amount" = some text ∧ half.RenderedAs text) ∧
      (∃ text, order.form.find? "price" = some text ∧ half.RenderedAs text) ∧
      ∃ text, payout.form.find? "amount" = some text ∧ half.RenderedAs text := by
  intro half order payout
  have hplaced : order.pack = .ok (order.form, order.channel) := rfl
  have hpaid : payout.pack = .ok payout.form := rfl
  obtain ⟨horder, hpayout⟩ := accepted_amounts_rendered order payout
  obtain ⟨⟨text, hamount, -, hrendered⟩, hprice⟩ := horder _ _ hplaced
  obtain ⟨text', hlimit, -, hrendered'⟩ := hprice rfl
  exact ⟨by decide +kernel, hplaced, hpaid, ⟨text, hamount, hrendered⟩, ⟨text', hlimit, hrendered'⟩,
    hpayout _ hpaid⟩

/-- A tenth of the last place is accepted and sent as zero. -/
theorem tenth_of_last_place_sent_as_zero :
    ¬((∀ (r : TradeRequest) (form : Form.Params) (params : Channel.Params),
        r.pack = .ok (form, params) →
          (∃ text, form.find? "amount" = some text ∧
            (Channel.Params.codec.encode params).find "amount" = .string text ∧
            DenotesPositive text) ∧
          (r.method = .limit → ∃ text, form.find? "price" = some text ∧ DenotesPositive text)) ∧
      ∀ (r : WithdrawRequest) (form : Form.Params), r.pack = .ok form →
        ∃ text, form.find? "amount" = some text ∧ DenotesPositive text) := by
  rintro ⟨orders, -⟩
  let tenth : Decimal := ⟨false, 1, 9, by decide, by decide⟩
  let order : TradeRequest := { pair := "ten_btc", amount := tenth, price := tenth }
  have hplaced : order.pack = .ok (order.form, order.channel) := rfl
  obtain ⟨⟨text, hamount, -, x, hdenoted, hpositive⟩, -⟩ := orders _ _ _ hplaced
  have hzero : tenth.text = "0" := by decide +kernel
  rw [order.form_amount, Option.some.injEq] at hamount
  have htext : text = "0" := hamount.symm.trans hzero
  rw [htext, denoted?_zero, Option.some.injEq] at hdenoted
  exact hpositive.ne hdenoted

end ExchangeClient
