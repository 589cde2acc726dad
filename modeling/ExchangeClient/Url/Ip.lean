import ExchangeClient.Digits
import ExchangeClient.Form
import ExchangeClient.Text.Quoted

/-!
# Numeric hosts

A domain name whose last label is a number is an IPv4 address, and has to be a
valid one: up to four numbers, each but the last one byte, in octal after `0`
and in hexadecimal after `0x`. What stands between brackets is an IPv6 address:
eight groups, of which one row of zeros may be left out and the last two may be
written as an IPv4 address.
-/

namespace ExchangeClient.Url

/-- A number in some base. -/
def readBase? (base : Nat) (ds : List Char) : Option Nat :=
  ds.foldlM (fun n c => match Form.hexValue? c with
    | some d => if d < base then some (base * n + d) else none
    | none => none) 0

/-- A number of an IPv4 address: decimal, octal or hexadecimal. -/
def readIpv4Number? : List Char → Option Nat
  | [] => none
  | '0' :: 'x' :: ds => readBase? 16 ds
  | '0' :: 'X' :: ds => readBase? 16 ds
  | '0' :: ds => readBase? 8 ds
  | ds => readBase? 10 ds

/-- The labels of a domain name without an empty one at the end. -/
def labels (domain : List Char) : List (List Char) :=
  let all := Form.splitAll '.' domain
  if all.getLast? = some [] then all.dropLast else all

/-- Whether a domain name has to be an IPv4 address. -/
def endsInNumber (domain : List Char) : Bool :=
  match (labels domain).getLast? with
  | some label => (!label.isEmpty && label.all Char.isDigit) || (readIpv4Number? label).isSome
  | none => false

/-- The address that numbers denote; the last one fills what the others leave. -/
def joinIpv4? (numbers : List Nat) : Option Nat :=
  match numbers.getLast? with
  | none => none
  | some last =>
    let bytes := numbers.dropLast
    if 4 < numbers.length ∨ bytes.any (255 < ·) ∨ Nat.pow 256 (4 - bytes.length) ≤ last then none
    else some (bytes.foldl (fun n b => 256 * n + b) 0 * Nat.pow 256 (4 - bytes.length) + last)

def readIpv4? (domain : List Char) : Option Nat :=
  (labels domain).mapM readIpv4Number? >>= joinIpv4?

def ipv4Chars (address : Nat) : List Char :=
  List.intercalate ['.']
    ([address / 0x1000000, address / 0x10000 % 256, address / 256 % 256, address % 256].map
      Digits.ofNat)

/-- One byte in decimal, without zeros in front. -/
def readByte? (ds : List Char) : Option Nat :=
  match Digits.readNat? ds with
  | some n => if n < 256 ∧ Digits.ofNat n = ds then some n else none
  | none => none

/-- The two groups that four bytes make. -/
def readQuad? (cs : List Char) : Option (List Nat) :=
  match (Form.splitAll '.' cs).mapM readByte? with
  | some [a, b, c, d] => some [256 * a + b, 256 * c + d]
  | _ => none

/-- One to four hexadecimal digits. -/
def readGroup? (ds : List Char) : Option Nat :=
  if ds.isEmpty ∨ 4 < ds.length then none else readBase? 16 ds

/-- The groups of a row of pieces, of which the last may be an IPv4 address. -/
def readGroups? : List (List Char) → Option (List Nat)
  | [] => some []
  | [last] => match readGroup? last with
    | some g => some [g]
    | none => readQuad? last
  | piece :: rest => do pure ((← readGroup? piece) :: (← readGroups? rest))

/-- The pieces of one side of the gap. -/
def sidePieces (cs : List Char) : List (List Char) :=
  if cs.isEmpty then [] else Form.splitAll ':' cs

/-- What stands before and after the first double colon. -/
def splitGap? : List Char → Option (List Char × List Char)
  | [] => none
  | ':' :: ':' :: rest => some ([], rest)
  | c :: rest => (splitGap? rest).map fun s => (c :: s.1, s.2)

/-- The eight groups of an IPv6 address. -/
def readIpv6? (cs : List Char) : Option (List Nat) :=
  match splitGap? cs with
  | none => do
    let groups ← readGroups? (sidePieces cs)
    if groups.length = 8 then some groups else none
  | some (before, after) => do
    let left ← (sidePieces before).mapM readGroup?
    let right ← readGroups? (sidePieces after)
    if left.length + right.length ≤ 7 then
      some (left ++ List.replicate (8 - left.length - right.length) 0 ++ right)
    else none

/-- How many zeros a row starts with. -/
def leadingZeros (groups : List Nat) : Nat := (groups.takeWhile (· == 0)).length

/-- Where the longest row of zeros starts and how long it is; of equal ones the first. -/
def longestZeros (groups : List Nat) : Nat × Nat :=
  (List.range groups.length).foldl (fun best i =>
    let n := leadingZeros (groups.drop i)
    if best.2 < n then (i, n) else best) (0, 0)

def joinGroups (groups : List Nat) : List Char :=
  List.intercalate [':'] (groups.map Text.hexDigits)

/-- An IPv6 address with its longest row of at least two zeros left out. -/
def ipv6Chars (groups : List Nat) : List Char :=
  let (start, n) := longestZeros groups
  if 2 ≤ n then joinGroups (groups.take start) ++ [':', ':'] ++ joinGroups (groups.drop (start + n))
  else joinGroups groups

end ExchangeClient.Url
