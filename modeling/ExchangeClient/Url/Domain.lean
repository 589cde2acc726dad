import ExchangeClient.Text.Lowercase
import ExchangeClient.Text.Quoted
import ExchangeClient.Url.Percent
import ExchangeClient.Url.Punycode

/-!
# Domain names

A domain name is compared in lower case and in ASCII: wide forms are read as the
narrow ones, some characters are passed over, and a label with characters beyond
ASCII is written in Punycode behind `xn--`. A label that comes in Punycode has
to spell such a label.
-/

namespace ExchangeClient.Url

/-- Characters that a domain name is read without. -/
def isPassedOver (c : Char) : Bool :=
  Text.inRanges
    [(0xad, 0xad), (0x34f, 0x34f), (0x180b, 0x180d), (0x180f, 0x180f), (0x200b, 0x200b),
      (0x2060, 0x2060), (0x2064, 0x2064), (0xfe00, 0xfe0f), (0xfeff, 0xfeff),
      (0xe0100, 0xe01ef)] c.toNat

/-- What a character of a domain name is read as. -/
def domainChar (c : Char) : List Char :=
  if c.toNat < 128 then [c.toLower]
  else if isPassedOver c then []
  else if c = '。' ∨ c = '｡' then ['.']
  else if '！' ≤ c ∧ c ≤ '～' then [(Char.ofNat (c.toNat - 0xfee0)).toLower]
  else if c = 'İ' then ['i', '\u0307']
  else [Text.lowerChar c]

/-- Characters that no domain name contains. -/
def isForbiddenInDomain (c : Char) : Bool :=
  !Text.isPrinted c || " %#/:<>?@[\\]^|".toList.contains c

def punycodeMark : List Char := ['x', 'n', '-', '-']

/-- Whether a row is a label beyond ASCII that is read as itself. -/
def isWideLabel (label : List Char) : Bool :=
  !label.all Punycode.isAscii && !label.any isForbiddenInDomain && !label.contains '.'
    && label.flatMap domainChar == label

/-- A label in ASCII. -/
def asciiLabel? (label : List Char) : Option (List Char) :=
  if punycodeMark.isPrefixOf label then
    match Punycode.decode? (label.drop 4) with
    | some wide => if isWideLabel wide && label.all Punycode.isAscii then some label else none
    | none => none
  else if label.all Punycode.isAscii then some label
  else some (punycodeMark ++ Punycode.encode label)

/-- A domain name in lower case and in ASCII. -/
def asciiDomain? (cs : List Char) : Option (List Char) :=
  let read := cs.flatMap domainChar
  if read.any isForbiddenInDomain then none
  else ((Form.splitAll '.' read).mapM asciiLabel?).map (List.intercalate ['.'])

end ExchangeClient.Url
