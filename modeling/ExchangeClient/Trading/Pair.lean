import ExchangeClient.Json.Codec
import ExchangeClient.RequestError
import ExchangeClient.Text.Blank
import ExchangeClient.Text.Lowercase
import ExchangeClient.Trading.Assets

/-!
# Pairs

A pair such as `ten_btc` names the coin that is traded and the base it is priced
in. Texts are trimmed and lower-cased before they are taken apart.
-/

namespace ExchangeClient

structure Pair where
  coin : String
  base : String
  coin_ne : coin ≠ ""
  base_ne : base ≠ ""
  coin_plain : '_' ∉ coin.toList
  base_plain : '_' ∉ base.toList
  deriving DecidableEq

namespace Pair

/-- Two non-empty names without an underscore, as a pair. -/
def ofParts? (coin base : String) : Option Pair :=
  if h : coin ≠ "" ∧ base ≠ "" ∧ '_' ∉ coin.toList ∧ '_' ∉ base.toList then
    some ⟨coin, base, h.1, h.2.1, h.2.2.1, h.2.2.2⟩
  else none

/-- The pair that a trimmed and lower-cased text names. -/
def ofNormal? (cs : List Char) : Option Pair :=
  match cs.dropWhile (· ≠ '_') with
  | [] => none
  | _ :: base => ofParts? (String.ofList (cs.takeWhile (· ≠ '_'))) (String.ofList base)

def parse (text : String) : Except RequestError Pair :=
  match ofNormal? (Text.lowerChars (Text.trimChars text.toList)) with
  | some p => .ok p
  | none => .error .invalidPair

/-- The pair of a coin and a base, each as a text. -/
def named (coin base : String) : Except RequestError Pair := parse (coin ++ "_" ++ base)

def name (p : Pair) : String := p.coin ++ "_" ++ p.base

def isKnown (p : Pair) : Bool := isKnownPair p.name

def codec : Json.Codec Pair :=
  ⟨fun d => do
    let text ← Json.Codec.string.decode d
    match parse text with
    | .ok p => pure p
    | .error _ => .error (.content .invalidPair),
   fun p => .string p.name⟩

end Pair
end ExchangeClient
