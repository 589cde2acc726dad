import ExchangeClient.Text.CaseTable
import ExchangeClient.Text.Range

/-!
# Lower case

Every character goes to its lower case by the Unicode standard. A capital sigma
at the end of a word becomes a final sigma: a cased character stands before it
and none after it, passing over the characters that case ignores. The dotted
capital I becomes two characters.
-/

namespace ExchangeClient.Text

/-- Whether a row lower-cases a code point. -/
def CaseRow.covers (r : CaseRow) (n : Nat) : Bool :=
  r.first ≤ n && n ≤ r.last && (n - r.first) % r.step == 0

/-- The lower-case letter of a character on its own. -/
def lowerChar (c : Char) : Char :=
  match lowerRows.find? (CaseRow.covers · c.toNat) with
  | some r => Char.ofNat (Int.ofNat c.toNat + r.shift).toNat
  | none => c

def isCased (c : Char) : Bool := inRanges casedRanges c.toNat

def isCaseIgnorable (c : Char) : Bool := inRanges caseIgnorableRanges c.toNat

/-- Whether the first character that case does not ignore has a case. -/
def meetsCased (cs : List Char) : Bool :=
  match cs.dropWhile isCaseIgnorable with
  | [] => false
  | c :: _ => isCased c

/-- Lower case of the characters after those in `before`, the last of these first. -/
def lowerFrom (before : List Char) : List Char → List Char
  | [] => []
  | c :: rest =>
    let here :=
      if c = 'Σ' then (if meetsCased before && !meetsCased rest then ['ς'] else ['σ'])
      else if c = 'İ' then ['i', '\u0307']
      else if c.toNat < 128 then [c.toLower]
      else [lowerChar c]
    here ++ lowerFrom (c :: before) rest

def lowerChars (cs : List Char) : List Char := lowerFrom [] cs

def lower (s : String) : String := String.ofList (lowerChars s.toList)

end ExchangeClient.Text
