import ExchangeClient.Settings.Braces

/-!
# Settings in YAML

Settings by name, one on each line that is not indented; what is indented below
a name belongs to its value, which is then a list or a table. A value without
quotes is a text unless it spells a number or one of a few words.
-/

namespace ExchangeClient.Settings.Yaml

/-- A line without the blanks and the comment at its end. -/
def withoutComment (cs : List Char) : List Char :=
  let rec cut (previous : Char) : List Char → List Char
    | [] => []
    | '#' :: rest => if Text.isBlank previous then [] else '#' :: cut '#' rest
    | c :: rest => c :: cut c rest
  ((cut ' ' cs).reverse.dropWhile Text.isBlank).reverse

/-- A text in double quotes, which end the value. -/
def readDouble? (cs : List Char) : Option String :=
  match Braces.readText? .records '"' (cs.length + 1) cs with
  | some (text, rest) => if (withoutComment rest).isEmpty then some (String.ofList text) else none
  | none => none

/-- A text in single quotes, in which a quote is written twice. -/
def readSingle? : List Char → Option (List Char)
  | [] => none
  | '\'' :: '\'' :: rest => (readSingle? rest).map ('\'' :: ·)
  | '\'' :: rest => if (withoutComment rest).isEmpty then some [] else none
  | c :: rest => (readSingle? rest).map (c :: ·)

/-- A whole number, in decimal or after `0x` and `0o` in other bases. -/
def readWhole? (cs : List Char) : Option Int :=
  let inBase (base : Nat) (ds : List Char) : Option Int :=
    if ds.isEmpty then none
    else ds.foldlM (fun (n : Int) c => match Form.hexValue? c with
      | some d => if d < base then some (base * n + d) else none
      | none => none) 0
  (match cs with
    | '0' :: 'x' :: ds => inBase 16 ds
    | '0' :: 'o' :: ds => inBase 8 ds
    | cs => Digits.readInt? cs).filter Digits.fitsInt64

/-- What a value without quotes spells; words for what is no finite number spell nothing. -/
def readPlain? (cs : List Char) : Option Found :=
  let word := String.ofList cs
  if word = "" ∨ word = "~" ∨ word = "null" then some .nothing
  else if word = "true" then some (.flag true)
  else if word = "false" then some (.flag false)
  else if [".inf", ".Inf", ".INF", "+.inf", "+.Inf", "+.INF", "-.inf", "-.Inf", "-.INF", ".nan",
      ".NAN"].contains word then none
  else match readWhole? cs with
    | some i => some (.whole i)
    | none => match Binary64.ofText? word with
      | some v => some (.real v)
      | none => some (.text word)

/-- A value on the line of its name. -/
def readValue? (cs : List Char) : Option Found :=
  match cs with
  | '"' :: rest => (readDouble? rest).map .text
  | '\'' :: rest => (readSingle? rest).map fun t => .text (String.ofList t)
  | '[' :: _ => if (withoutComment cs).getLast? = some ']' then some .list else none
  | '\x7b' :: _ => if (withoutComment cs).getLast? = some '\x7d' then some .table else none
  | c :: _ =>
    if "&*!|>%@\x60".toList.contains c then none
    else
      let plain := withoutComment cs
      if ((String.ofList plain).splitOn ": ").length ≠ 1 ∨ plain.getLast? = some ':' then none
      else readPlain? plain
  | [] => some .nothing

/-- Splits a line at the colon behind a name. -/
def splitName? : List Char → Option (List Char × List Char)
  | [] => none
  | [':'] => some ([], [])
  | ':' :: c :: rest =>
    if Text.isBlank c then some ([], rest.dropWhile Text.isBlank)
    else (splitName? (c :: rest)).map fun s => (':' :: s.1, s.2)
  | c :: rest => (splitName? rest).map fun s => (c :: s.1, s.2)

/-- A name without the quotes it may have. -/
def nameOf (cs : List Char) : String :=
  match cs, cs.getLast? with
  | '"' :: rest, some '"' => String.ofList rest.dropLast
  | '\'' :: rest, some '\'' => String.ofList rest.dropLast
  | cs, _ => String.ofList (Text.trimChars cs)

/-- Whether a line says nothing. -/
def isEmptyLine (cs : List Char) : Bool := (withoutComment cs).all Text.isBlank

/-- Whether a line belongs to the value above it. -/
def isInside (cs : List Char) : Bool :=
  isEmptyLine cs || cs.head? == some ' ' || (cs.take 2 == ['-', ' ']) || cs == ['-']

/-- What the lines below a name come to. -/
def blockFound (block : List (List Char)) : Option Found :=
  match block.find? fun line => !isEmptyLine line with
  | none => none
  | some line => match line.dropWhile (· == ' ') with
    | '-' :: _ => some .list
    | body => if (splitName? (withoutComment body)).isSome then some .table else none

/-- Reads the lines of a document. -/
def readLines? : Nat → List (List Char) → Option (List (String × Found))
  | 0, _ => none
  | _, [] => some []
  | fuel + 1, line :: rest =>
    if isEmptyLine line then readLines? fuel rest
    else if line.head? = some ' ' ∨ line.head? = some '-' then none
    else do
      let (name, value) ← splitName? line
      if (withoutComment value).isEmpty then
        let block := rest.takeWhile isInside
        let found := if block.all isEmptyLine then some .nothing else blockFound block
        let pairs ← readLines? fuel (rest.dropWhile isInside)
        pure ((nameOf name, ← found) :: pairs)
      else
        let found ← readValue? value
        let pairs ← readLines? fuel rest
        pure ((nameOf name, found) :: pairs)

def read? (text : String) : Option (List (String × Found)) :=
  match Braces.skipAll text.toList with
  | '\x7b' :: _ => Braces.read? .loose text
  | _ =>
    let lines := (Form.splitAll '\n' (text.toList.filter (· ≠ '\r')))
    let body := match lines.dropWhile isEmptyLine with
      | ['-', '-', '-'] :: rest => rest
      | lines => lines
    readLines? (body.length + 1) body

end ExchangeClient.Settings.Yaml
