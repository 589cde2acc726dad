import ExchangeClient.Toml.Scalar
import ExchangeClient.Toml.Tables

/-!
# TOML documents

A document is a row of lines, each a definition, a header, or nothing, with a
comment behind it. A list may run over several lines; a table in braces may not.
-/

namespace ExchangeClient.Toml

open Settings (Found)

/-- Passes over a comment; one with a control character in it is none. -/
def skipComment? (cs : List Char) : Option (List Char) :=
  match cs with
  | '#' :: rest =>
    let after := rest.dropWhile isLineChar
    if after.isEmpty || (skipLineEnd? after).isSome then some after else none
  | _ => some cs

/-- Passes over blanks, comments and line ends. -/
def skipLines : Nat → List Char → Option (List Char)
  | 0, cs => some cs
  | fuel + 1, cs => do
    let rest ← skipComment? (skipBlanks cs)
    match skipLineEnd? rest with
    | some rest => skipLines fuel rest
    | none => some rest

/-- Reads the items of a list and its closing bracket. -/
def readItems? (value : Reader Found) : Nat → Reader Found
  | 0, _ => none
  | fuel + 1, cs => do
    let cs ← skipLines cs.length cs
    match cs with
    | ']' :: rest => some (.list, rest)
    | _ =>
      let (_, rest) ← value cs
      match ← skipLines rest.length rest with
      | ',' :: rest => readItems? value fuel rest
      | ']' :: rest => some (.list, rest)
      | _ => none

/-- Reads a key and its value. -/
def readPair? (value : Reader Found) (cs : List Char) : Option ((Path × Found) × List Char) := do
  let (key, rest) ← readKey? (cs.length + 1) cs
  match rest with
  | '=' :: rest =>
    let (found, rest) ← value (skipBlanks rest)
    pure ((key, found), rest)
  | _ => none

/-- Reads the pairs of a table in braces and its closing brace. -/
def readPairs? (value : Reader Found) (t : Tables) : Nat → Reader Found
  | 0, _ => none
  | fuel + 1, cs => do
    let ((key, found), rest) ← readPair? value cs
    let t ← t.define key found
    match skipBlanks rest with
    | ',' :: rest => readPairs? value t fuel rest
    | '\x7d' :: rest => some (.table, rest)
    | _ => none

/-- Reads a table after its opening brace. -/
def readBraces? (value : Reader Found) (cs : List Char) : Option (Found × List Char) :=
  match skipBlanks cs with
  | '\x7d' :: rest => some (.table, rest)
  | cs => readPairs? value {} (cs.length + 1) cs

/-- Reads a value in which lists and tables nest less deep than a bound. -/
def readValue? : Nat → Reader Found
  | 0, _ => none
  | depth + 1, cs =>
    match cs with
    | '[' :: rest =>
      if depth = 0 then none else readItems? (readValue? depth) (rest.length + 1) rest
    | '\x7b' :: rest => if depth = 0 then none else readBraces? (readValue? depth) rest
    | c :: _ =>
      if c = '"' ∨ c = '\'' then
        (readText? cs).map fun r => (.text (String.ofList r.1), r.2)
      else
        let (scalar, rest) := cutScalar cs
        (readScalar? scalar).map (·, rest)
    | [] => none

/-- How deep values nest at most. -/
def maxDepth : Nat := 80

/-- Reads the line of a header or a definition, up to what may follow it. -/
def readEntry? (t : Tables) (cs : List Char) : Option (Tables × List Char) :=
  match cs with
  | '[' :: '[' :: rest => do
    let (key, rest) ← readKey? (rest.length + 1) rest
    match rest with
    | ']' :: ']' :: rest => pure (← t.openNext key, rest)
    | _ => none
  | '[' :: rest => do
    let (key, rest) ← readKey? (rest.length + 1) rest
    match rest with
    | ']' :: rest => pure (← t.openTable key, rest)
    | _ => none
  | _ => do
    let ((key, found), rest) ← readPair? (readValue? maxDepth) cs
    pure (← t.define key found, rest)

/-- Reads the lines of a document. -/
def readEntries? (t : Tables) : Nat → List Char → Option Tables
  | 0, _ => none
  | fuel + 1, cs => do
    match ← skipLines cs.length cs with
    | [] => some t
    | cs =>
      let (t, rest) ← readEntry? t cs
      match ← skipComment? (skipBlanks rest) with
      | [] => some t
      | rest => match skipLineEnd? rest with
        | some rest => readEntries? t fuel rest
        | none => none

/-- Reads a document: what it says under each key of its outermost table. -/
def read? (text : String) : Option (List (String × Found)) :=
  let cs := match text.toList with
    | '\ufeff' :: rest => rest
    | cs => cs
  (readEntries? {} (cs.length + 1) cs).map Tables.outermost

end ExchangeClient.Toml
