import ExchangeClient.Settings.Error
import ExchangeClient.Text.Blank

/-!
# Lines of keys and values

Keys end at an equals sign or a colon, values at the end of their line. Quotes
keep blanks in a value, and a backslash takes the next character as it is or
stands for a control character. What follows a name in brackets belongs to the
section of that name, which counts as a table. A key without a value is an error.
-/

namespace ExchangeClient.Settings.Ini

/-- The character that a letter stands for after a backslash; a line end vanishes. -/
def escaped (c : Char) : List Char :=
  match c with
  | '0' => ['\x00']
  | 'a' => ['\x07']
  | 'b' => ['\x08']
  | 't' => ['\t']
  | 'r' => ['\r']
  | 'n' => ['\n']
  | '\n' => []
  | c => [c]

/-- Takes characters up to one that ends them, with escapes undone. -/
def takeUntil (isEnd : Char → Bool) : List Char → List Char × List Char
  | [] => ([], [])
  | '\\' :: c :: rest =>
    if isEnd '\\' then ([], '\\' :: c :: rest)
    else
      let (taken, rest) := takeUntil isEnd rest
      (escaped c ++ taken, rest)
  | c :: rest =>
    if isEnd c then ([], c :: rest)
    else
      let (taken, rest) := takeUntil isEnd rest
      (c :: taken, rest)

def isLineEnd (c : Char) : Bool := c == '\n' || c == '\r'

def skipBlanks (cs : List Char) : List Char := cs.dropWhile fun c => c == ' ' || c == '\t'

/-- Reads a value up to the end of its line; quoted pieces come first. -/
def readValue? : Nat → List Char → Option (List Char × List Char)
  | 0, _ => none
  | fuel + 1, cs =>
    match cs with
    | [] => some ([], [])
    | c :: rest =>
      if c = '"' ∨ c = '\'' then
        match takeUntil (· == c) rest with
        | (_, []) => none
        | (piece, _ :: rest) => (readValue? fuel rest).map fun r => (piece ++ r.1, r.2)
      else
        let (line, rest) := takeUntil isLineEnd cs
        some (Text.trimChars line, rest)

/-- Reads the pairs outside any section, and the names of the sections. -/
def readPairs? (isSection : Bool) : Nat → List Char → Option (List (String × Found))
  | 0, _ => none
  | fuel + 1, cs =>
    match cs.dropWhile Text.isBlank with
    | [] => some []
    | c :: rest =>
      if c = ';' ∨ c = '#' then readPairs? isSection fuel (rest.dropWhile fun c => !isLineEnd c)
      else if c = '[' then
        match takeUntil (· == ']') rest with
        | (_, []) => none
        | (name, _ :: rest) => (readPairs? true fuel rest).map fun pairs =>
          pairs ++ [(String.ofList (Text.trimChars name), .table)]
      else
        match takeUntil (fun c => c == '=' || c == ':') (c :: rest) with
        | (_, []) => none
        | (key, _ :: rest) =>
          if (Text.trimChars key).isEmpty then none
          else do
            let (value, rest) ← readValue? (rest.length + 1) (skipBlanks rest)
            let pairs ← readPairs? isSection fuel rest
            if isSection then pure pairs
            else pure ((String.ofList (Text.trimChars key), .text (String.ofList value)) :: pairs)

def read? (text : String) : Option (List (String × Found)) :=
  readPairs? false (text.length + 1) text.toList

end ExchangeClient.Settings.Ini
