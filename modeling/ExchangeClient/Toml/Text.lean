import ExchangeClient.Form

/-!
# Texts and keys in TOML

A text stands between double quotes, where a backslash starts an escape, or
between single quotes, where it does not. Three quotes open a text that may run
over several lines; a line end right after them does not belong to it, and a
backslash at the end of a line joins it to the next word.
-/

namespace ExchangeClient.Toml

/-- Takes something off the front of a text, if it is there. -/
abbrev Reader (α : Type) := List Char → Option (α × List Char)

def isBlank (c : Char) : Bool := c == ' ' || c == '\t'

def skipBlanks (cs : List Char) : List Char := cs.dropWhile isBlank

/-- Characters that can stand in a line. -/
def isLineChar (c : Char) : Bool := c == '\t' || (32 ≤ c.toNat && c.toNat ≠ 127)

/-- Takes a line end off. -/
def skipLineEnd? : List Char → Option (List Char)
  | '\n' :: rest => some rest
  | '\r' :: '\n' :: rest => some rest
  | _ => none

/-- The character that a row of hexadecimal digits numbers. -/
def readCodePoint? (digits : Nat) : Reader Char := fun cs =>
  let number := (cs.take digits).foldlM (fun n c => (Form.hexValue? c).map (16 * n + ·)) 0
  match number with
  | some n =>
    if (cs.take digits).length = digits ∧ n.isValidChar then some (Char.ofNat n, cs.drop digits)
    else none
  | none => none

/-- The character of an escape, after its backslash. -/
def readEscape? : Reader Char
  | 'b' :: rest => some ('\x08', rest)
  | 't' :: rest => some ('\t', rest)
  | 'n' :: rest => some ('\n', rest)
  | 'f' :: rest => some ('\x0c', rest)
  | 'r' :: rest => some ('\r', rest)
  | '"' :: rest => some ('"', rest)
  | '\\' :: rest => some ('\\', rest)
  | 'u' :: rest => readCodePoint? 4 rest
  | 'U' :: rest => readCodePoint? 8 rest
  | _ => none

/-- Puts characters in front of what a reader found. -/
def withFront (front : List Char) (found : Option (List Char × List Char)) :
    Option (List Char × List Char) :=
  found.map fun r => (front ++ r.1, r.2)

/-- A text on one line up to its closing quote. -/
def readLine? (quote : Char) : Nat → Reader (List Char)
  | 0, _ => none
  | fuel + 1, cs =>
    match cs with
    | [] => none
    | c :: rest =>
      if c = quote then some ([], rest)
      else if c = '\\' ∧ quote = '"' then do
        let (c, rest) ← readEscape? rest
        withFront [c] (readLine? quote fuel rest)
      else if isLineChar c then withFront [c] (readLine? quote fuel rest)
      else none

/-- Passes over blanks and line ends. -/
def skipBlankLines : Nat → List Char → List Char
  | 0, cs => cs
  | fuel + 1, cs =>
    match skipLineEnd? (skipBlanks cs) with
    | some rest => skipBlankLines fuel rest
    | none => skipBlanks cs

/-- A text on several lines up to its three closing quotes, of which it may end in two more. -/
def readLines? (quote : Char) : Nat → Reader (List Char)
  | 0, _ => none
  | fuel + 1, cs =>
    match cs with
    | [] => none
    | c :: rest =>
      if c = quote then
        let run := min (cs.takeWhile (· == quote)).length 5
        if 3 ≤ run then some (List.replicate (run - 3) quote, cs.drop run)
        else withFront (List.replicate run quote) (readLines? quote fuel (cs.drop run))
      else if c = '\\' ∧ quote = '"' then
        match skipLineEnd? (skipBlanks rest) with
        | some next => readLines? quote fuel (skipBlankLines next.length next)
        | none => do
          let (c, rest) ← readEscape? rest
          withFront [c] (readLines? quote fuel rest)
      else match skipLineEnd? cs with
        | some rest => withFront ['\n'] (readLines? quote fuel rest)
        | none => if isLineChar c then withFront [c] (readLines? quote fuel rest) else none

/-- A text, from its opening quote. -/
def readText? (cs : List Char) : Option (List Char × List Char) :=
  match cs with
  | '"' :: '"' :: '"' :: rest => readLines? '"' (cs.length + 1) ((skipLineEnd? rest).getD rest)
  | '\'' :: '\'' :: '\'' :: rest => readLines? '\'' (cs.length + 1) ((skipLineEnd? rest).getD rest)
  | '"' :: rest => readLine? '"' cs.length rest
  | '\'' :: rest => readLine? '\'' cs.length rest
  | _ => none

def isKeyChar (c : Char) : Bool := c.isAlphanum || c == '-' || c == '_'

/-- One part of a key: bare, or a text on one line. -/
def readKeyPart? : Reader String
  | '"' :: rest => (readLine? '"' (rest.length + 1) rest).map fun r => (String.ofList r.1, r.2)
  | '\'' :: rest => (readLine? '\'' (rest.length + 1) rest).map fun r => (String.ofList r.1, r.2)
  | cs =>
    let name := cs.takeWhile isKeyChar
    if name.isEmpty then none else some (String.ofList name, cs.dropWhile isKeyChar)

/-- A key: parts with points between them. -/
def readKey? : Nat → Reader (List String)
  | 0, _ => none
  | fuel + 1, cs => do
    let (part, rest) ← readKeyPart? (skipBlanks cs)
    match skipBlanks rest with
    | '.' :: rest =>
      let (parts, rest) ← readKey? fuel rest
      pure (part :: parts, rest)
    | rest => pure ([part], rest)

end ExchangeClient.Toml
