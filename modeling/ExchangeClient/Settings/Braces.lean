import ExchangeClient.Form
import ExchangeClient.Settings.Error
import ExchangeClient.Text.Blank

/-!
# Settings in braces

Two notations for settings by name. In the loose one names need no quotes and
texts may have single ones; in the other settings may stand in parentheses, with
bare names there and quoted ones in braces. Both have comments, and a comma may
stand after the last item.
-/

namespace ExchangeClient.Settings.Braces

inductive Dialect where
  | loose
  | records
  deriving DecidableEq

/-- The words that stand for infinity and for what is no number. -/
def Dialect.numberWords : Dialect → List (List Char)
  | .loose => ["Infinity".toList, "NaN".toList]
  | .records => ["inf".toList, "NaN".toList]

/-- Takes something off the front of a text, if it is there. -/
abbrev Reader (α : Type) := List Char → Option (α × List Char)

/-- Passes over a comment up to its closing mark. -/
def skipBlock : List Char → List Char
  | [] => []
  | '*' :: '/' :: rest => rest
  | _ :: rest => skipBlock rest

/-- Passes over blanks and comments. -/
def skip : Nat → List Char → List Char
  | 0, cs => cs
  | fuel + 1, cs =>
    match cs with
    | '/' :: '/' :: rest => skip fuel (rest.dropWhile (· ≠ '\n'))
    | '/' :: '*' :: rest => skip fuel (skipBlock rest)
    | c :: rest => if Text.isBlank c ∨ c = '\ufeff' then skip fuel rest else cs
    | [] => []

def skipAll (cs : List Char) : List Char := skip cs.length cs

/-- The character that hexadecimal digits number. -/
def numbered? (ds : List Char) : Option Char :=
  match ds.foldlM (fun n c => (Form.hexValue? c).map (16 * n + ·)) 0 with
  | some n => if n.isValidChar && !ds.isEmpty then some (Char.ofNat n) else none
  | none => none

/-- The characters of an escape, after its backslash. -/
def readEscape? : Reader (List Char)
  | 'b' :: rest => some (['\x08'], rest)
  | 'f' :: rest => some (['\x0c'], rest)
  | 'n' :: rest => some (['\n'], rest)
  | 'r' :: rest => some (['\r'], rest)
  | 't' :: rest => some (['\t'], rest)
  | 'v' :: rest => some (['\x0b'], rest)
  | '0' :: rest => some (['\x00'], rest)
  | '\n' :: rest => some ([], rest)
  | 'x' :: rest => (numbered? (rest.take 2)).map fun c => ([c], rest.drop 2)
  | 'u' :: '\x7b' :: rest =>
    (numbered? (rest.takeWhile (· ≠ '\x7d'))).map fun c =>
      ([c], (rest.dropWhile (· ≠ '\x7d')).drop 1)
  | 'u' :: rest => (numbered? (rest.take 4)).map fun c => ([c], rest.drop 4)
  | c :: rest => some ([c], rest)
  | [] => none

/-- A text up to its closing quote. -/
def readText? (d : Dialect) (quote : Char) : Nat → Reader (List Char)
  | 0, _ => none
  | fuel + 1, cs =>
    match cs with
    | [] => none
    | '\\' :: rest => do
      let (cs, rest) ← readEscape? rest
      (readText? d quote fuel rest).map fun r => (cs ++ r.1, r.2)
    | c :: rest =>
      if c = quote then some ([], rest)
      else if c = '\n' ∧ d = .loose then none
      else (readText? d quote fuel rest).map fun r => (c :: r.1, r.2)

def readQuoted? (d : Dialect) : Reader String
  | '"' :: rest => (readText? d '"' (rest.length + 1) rest).map fun r => (String.ofList r.1, r.2)
  | '\'' :: rest => (readText? d '\'' (rest.length + 1) rest).map fun r => (String.ofList r.1, r.2)
  | _ => none

def isWordChar (c : Char) : Bool :=
  c.isAlphanum || c == '_' || c == '$' || c == '+' || c == '-' || c == '.' || 127 < c.toNat

def isNameStart (c : Char) : Bool := c.isAlpha || c == '_' || c == '$' || 127 < c.toNat

/-- A number, in decimal or in hexadecimal. -/
def readNumber? (d : Dialect) (word : List Char) : Option Found :=
  let (isNegative, ds) := match word with
    | '+' :: ds => (false, ds)
    | '-' :: ds => (true, ds)
    | ds => (false, ds)
  let ds := if d = .records then ds.filter (· ≠ '_') else ds
  let whole? := match ds with
    | '0' :: 'x' :: hex => if hex.isEmpty then none
      else hex.foldlM (fun n c => (Form.hexValue? c).map (16 * n + ·)) 0
    | ds => Digits.readNat? ds
  match whole?.map fun n => if isNegative then -Int.ofNat n else Int.ofNat n with
  | some i =>
    some (if Digits.fitsInt64 i then .whole i else .real (Binary64.ofRatio (i < 0) i.natAbs 1))
  | none =>
    if (ds.head?.map fun c => c.isDigit || c == '.').getD false || d.numberWords.contains ds then
      (Binary64.ofText? (String.ofList ((if isNegative then ['-'] else []) ++ ds))).map .real
    else none

/-- A word that is a value. -/
def readWord? (d : Dialect) (word : List Char) : Option Found :=
  if word = "true".toList then some (.flag true)
  else if word = "false".toList then some (.flag false)
  else if word = (if d = .loose then "null" else "None").toList then some .nothing
  else readNumber? d word

/-- The name of a setting. -/
def readName? (d : Dialect) (closing : Char) (cs : List Char) : Option (String × List Char) :=
  if (cs.head?.map isNameStart).getD false && (d == .loose || closing == ')') then
    some (String.ofList (cs.takeWhile isWordChar), cs.dropWhile isWordChar)
  else if closing = ')' then none
  else readQuoted? d cs

/-- Reads settings and what closes them. -/
def readPairs? (d : Dialect) (value : Reader Found) (closing : Char) :
    Nat → Reader (List (String × Found))
  | 0, _ => none
  | fuel + 1, cs => do
    match skipAll cs with
    | [] => none
    | c :: rest =>
      if c = closing then some ([], rest)
      else
        let (name, rest) ← readName? d closing (c :: rest)
        match skipAll rest with
        | ':' :: rest =>
          let (found, rest) ← value (skipAll rest)
          match skipAll rest with
          | ',' :: rest =>
            let (pairs, rest) ← readPairs? d value closing fuel rest
            some ((name, found) :: pairs, rest)
          | c :: rest => if c = closing then some ([(name, found)], rest) else none
          | [] => none
        | _ => none

/-- Reads the items of a list and what closes it. -/
def readItems? (value : Reader Found) (closing : Char) : Nat → Reader Found
  | 0, _ => none
  | fuel + 1, cs => do
    match skipAll cs with
    | [] => none
    | c :: rest =>
      if c = closing then some (.list, rest)
      else
        let (_, rest) ← value (c :: rest)
        match skipAll rest with
        | ',' :: rest => readItems? value closing fuel rest
        | c :: rest => if c = closing then some (.list, rest) else none
        | [] => none

/-- Reads what stands in parentheses: settings, items, or nothing. -/
def readParens? (d : Dialect) (value : Reader Found) (cs : List Char) :
    Option (Found × List Char) :=
  match skipAll cs with
  | ')' :: rest => some (.nothing, rest)
  | _ => match readPairs? d value ')' (cs.length + 1) cs with
    | some (_, rest) => some (.table, rest)
    | none => readItems? value ')' (cs.length + 1) cs

/-- Reads a value in which others nest less deep than a bound. -/
def readValue? (d : Dialect) : Nat → Reader Found
  | 0, _ => none
  | depth + 1, cs =>
    let value := readValue? d depth
    match cs with
    | '[' :: rest => readItems? value ']' (rest.length + 1) rest
    | '\x7b' :: rest =>
      (readPairs? d value '\x7d' (rest.length + 1) rest).map fun r => (.table, r.2)
    | '(' :: rest => if d = .records then readParens? d value rest else none
    | c :: _ =>
      if c = '"' ∨ c = '\'' then (readQuoted? d cs).map fun r => (.text r.1, r.2)
      else
        let word := cs.takeWhile isWordChar
        match d, skipAll (cs.dropWhile isWordChar) with
        | .records, '(' :: rest =>
          if word = "Some".toList then do
            let (found, rest) ← value (skipAll rest)
            match skipAll rest with
            | ')' :: rest => some (found, rest)
            | _ => none
          else readParens? d value rest
        | _, _ => (readWord? d word).map (·, cs.dropWhile isWordChar)
    | [] => none

def maxDepth : Nat := 128

/-- Reads the settings of a text. -/
def read? (d : Dialect) (text : String) : Option (List (String × Found)) :=
  let cs := skipAll text.toList
  let cs := if d = .records ∧ (cs.head?.map isNameStart).getD false then
      skipAll (cs.dropWhile isWordChar)
    else cs
  let read := match d, cs with
    | _, '\x7b' :: rest => readPairs? d (readValue? d maxDepth) '\x7d' (rest.length + 1) rest
    | .records, '(' :: rest => readPairs? d (readValue? d maxDepth) ')' (rest.length + 1) rest
    | _, _ => none
  match read with
  | some (pairs, rest) => if (skipAll rest).isEmpty then some pairs else none
  | none => none

end ExchangeClient.Settings.Braces
