import ExchangeClient.Channel.Frame
import ExchangeClient.Proofs.Base64
import ExchangeClient.Proofs.Models

/-!
# What a frame carries

A frame holds its contents as JSON in base64 and is JSON itself. Contents are
never without a character, so they are never taken for the contents that are not
there, and what is taken out of a frame is what was put into it.
-/

namespace ExchangeClient

open Json

variable {d : ℕ}

theorem Json.Value.Fits.chars_ne_nil {v : Value} (fits : v.Fits d) : v.chars ≠ [] := by
  cases fits with
  | null => simp [Value.chars]
  | bool b => cases b <;> simp [Value.chars]
  | string s => simp [Value.chars, Value.quoteChars]
  | int word =>
    obtain ⟨c, cs, hdigits, -⟩ := scanToken_int word closing_nil
    simp [Value.chars, Value.ofInt, Number.text, Digits.intText, hdigits]
  | array fit => simp [Value.chars]
  | object fit => simp [Value.chars]

namespace Channel

/-- Contents that were put into a frame are taken out of it, in whatever order their members were
written. -/
theorem unpack_packed {α : Type} {c : Codec α} {r : α → α} (restores : c.Restores maxDepth r)
    (empty : α) {v : α} {w : Value} (reordered : (c.encode v).Reordered w) :
    unpack c empty (packed w) = .ok (r v) := by
  have hfits : w.Fits maxDepth := (restores.fits v).reordered reordered
  have hbytes : Text.utf8 w.text ≠ [] := by
    obtain ⟨c, hc⟩ := List.exists_mem_of_ne_nil _ hfits.chars_ne_nil
    rw [Text.utf8, Value.text, String.toList_ofList]
    intro hnone
    exact String.utf8EncodeChar_ne_nil (List.flatMap_eq_nil_iff.1 hnone c hc)
  have hcontents : (packed w).isEmpty = false := Base64.encode_isEmpty hbytes
  rw [unpack, hcontents, packed, Base64.decode_encode]
  simp [Except.mapError, bind, Except.bind, restores.readBytes_text reordered]

namespace Params

/-- Changes the amounts and nothing else. -/
def mapDecimals (f : Decimal → Decimal) (p : Params) : Params :=
  { p with amount := f p.amount, price := f p.price }

theorem mapDecimals_amount (f : Decimal → Decimal) (p : Params) :
    (p.mapDecimals f).amount = f p.amount := rfl

theorem mapDecimals_price (f : Decimal → Decimal) (p : Params) :
    (p.mapDecimals f).price = f p.price := rfl

theorem codec_restores : codec.Restores (d + 2) (mapDecimals .reread) := by
  refine .record ⟨by decide, ?_, .cons (.optional .side .enumeration .refl) <|
    .cons (.optional .method .enumeration .refl) <| .cons (.label .refl) <| .cons (.amount .refl) <|
    .cons (.amount .refl) <| .cons (.sparse .bool .refl) <|
    .cons (.optional .timeInForce .enumeration .refl) <| .cons (.label .refl) <|
    .cons (.label .refl) <| .cons (.count .refl) <| .cons (.count .refl) <|
    .cons (.optional .sortOrder .enumeration .refl) <| .cons (.count .refl) <|
    .cons (.label .refl) <| .cons (.count .refl) <| .cons (.label .refl) <| .cons (.count .refl) <|
    .cons (.count .refl) <| .cons (.count .refl) <| .cons (.sparse (.list .string) .refl) <|
    .cons (.sparse (.list .string) .refl) <| .cons (.sparse (.list .string) .refl) .nil⟩ ?_
  -- with this many pairs of fields only what takes them apart is tried
  · simp only [Record.commuting_cons, Record.commuting_nil, List.forall_mem_cons,
      List.not_mem_nil, false_imp_iff, implies_true, and_true]
  · intro p
    simp [mapDecimals]

end Params

theorem RequestFrame.codec_restores : codec.Restores (d + 1) fun f => f := by
  refine .record ⟨by decide, ?_, .cons (.needed .uint64) <| .cons (.needed .string) <|
    .cons (.needed .string) <| .cons (.of .string) .nil⟩ ?_
  · simp
  · intro f
    simp

theorem ReplyFrame.codec_restores : codec.Restores (d + 1) fun f => f := by
  refine .record ⟨by decide, ?_, .cons (.of .uint64) <| .cons (.of .int64) <| .cons (.of .string) <|
    .cons (.of .string) .nil⟩ ?_
  · simp
  · intro f
    simp

/-- A request carries its parameters and a reply its value, in whatever order the members of the
value are written. Each frame comes back from its own JSON as it was, and its contents come back
from the frame with their amounts rounded, whatever the empty contents would have stood for. -/
theorem frames_carry_contents :
    (∀ a : Decimal, a.reread.same a.round = true) ∧
      (∀ (id : UInt64) (method : Http.Method) (target : String) (p : Params),
        let f := RequestFrame.carrying id method target (some p)
        RequestFrame.codec.readText (RequestFrame.codec.write f) = .ok f ∧
          f.params = .ok (p.mapDecimals .reread)) ∧
      ∀ {α : Type} (m : Model α) (id : UInt64) (v : α) (w : Value),
        (m.codec.encode v).Reordered w →
        let f := ReplyFrame.reply id w
        ReplyFrame.codec.readText (ReplyFrame.codec.write f) = .ok f ∧
          ∀ empty, f.decode m.codec empty = .ok (m.mapDecimals .reread v) := by
  refine ⟨Decimal.reread_same_round, ?_, ?_⟩
  · intro id method target p
    constructor
    · exact RequestFrame.codec_restores.readText_text (.refl _)
    · exact unpack_packed Params.codec_restores {} (.refl _)
  · intro α m id v w reordered
    constructor
    · exact ReplyFrame.codec_restores.readText_text (.refl _)
    · intro empty
      exact unpack_packed m.codec_restores empty reordered

/-- Two prices in the order that their dictionary does not have, and no empty contents. -/
theorem prices_carried_in_either_order :
    let prices : MarketPrices := ⟨[("btcidr", .zero), ("ethidr", .zero)], by decide⟩
    let w : Value := .object [("ethidr", .string "0"), ("btcidr", .string "0")]
    (Model.marketPrices.codec.encode prices).Reordered w ∧
      (ReplyFrame.reply 7 w).decode MarketPrices.codec .empty =
        .ok (prices.mapValues .reread) := by
  intro prices w
  have hencoded : Model.marketPrices.codec.encode prices =
      .object [("btcidr", .string "0"), ("ethidr", .string "0")] := by rfl
  have hreordered : (Model.marketPrices.codec.encode prices).Reordered w := by
    rw [hencoded]
    exact .of_perm (.swap _ _ _)
  exact ⟨hreordered, (frames_carry_contents.2.2 .marketPrices 7 prices w hreordered).2 .empty⟩

end Channel
end ExchangeClient
