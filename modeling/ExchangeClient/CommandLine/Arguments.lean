/-!
# Options and words

Arguments are options and words. An option starts with two hyphens, or with one
if it is a single letter; several letters may share a hyphen. The value of an
option follows an equals sign or is the next argument, which then starts with no
hyphen. After two hyphens alone everything is a word.
-/

namespace ExchangeClient.CommandLine

structure Opt where
  name : String
  short : Option Char := none
  takesValue : Bool := false
  deriving DecidableEq

/-- What an argument, or a part of one, says. -/
inductive Piece where
  | flag (name : String)
  | setting (name value : String)
  | word (text : String)
  /-- No option that is known here, or one without its value. -/
  | fault
  deriving DecidableEq

/-- Whether an argument is an option rather than a word. -/
def isOption (arg : String) : Bool :=
  match arg.toList with
  | '-' :: _ :: _ => true
  | _ => false

/-- What options say that are complete in themselves, and the last one if its value is to follow. -/
structure Reading where
  pieces : List Piece
  awaiting : Option String := none

/-- Reads the letters behind a hyphen. -/
def readLetters (opts : List Opt) : List Char → Reading
  | [] => ⟨[], none⟩
  | c :: rest =>
    match opts.find? fun o => o.short = some c with
    | none => ⟨[.fault], none⟩
    | some o =>
      if o.takesValue then
        match rest with
        | [] => ⟨[], some o.name⟩
        | '=' :: value => ⟨[.setting o.name (String.ofList value)], none⟩
        | value => ⟨[.setting o.name (String.ofList value)], none⟩
      else
        let read := readLetters opts rest
        { read with pieces := .flag o.name :: read.pieces }

/-- Reads what stands behind two hyphens. -/
def readName (opts : List Opt) (cs : List Char) : Reading :=
  let name := String.ofList (cs.takeWhile (· ≠ '='))
  match opts.find? (·.name = name), cs.dropWhile (· ≠ '=') with
  | some o, [] => if o.takesValue then ⟨[], some o.name⟩ else ⟨[.flag o.name], none⟩
  | some o, _ :: value =>
    if o.takesValue then ⟨[.setting o.name (String.ofList value)], none⟩ else ⟨[.fault], none⟩
  | none, _ => ⟨[.fault], none⟩

def readOption (opts : List Opt) (arg : String) : Reading :=
  match arg.toList with
  | '-' :: '-' :: cs => readName opts cs
  | cs => readLetters opts (cs.drop 1)

/-- Reads arguments, of which the first is the value of an option that awaits one; with `stops` only
up to the first word, which is left with what follows it. -/
def scan (opts : List Opt) (stops : Bool) (awaiting : Option String) :
    List String → List Piece × List String
  | [] => (if awaiting.isSome then [.fault] else [], [])
  | arg :: rest =>
    match awaiting with
    | some name =>
      if isOption arg then ([.fault], [])
      else
        let (pieces, left) := scan opts stops none rest
        (.setting name arg :: pieces, left)
    | none =>
      if arg = "--" then (if stops && !rest.isEmpty then [.fault] else rest.map .word, [])
      else if isOption arg then
        let read := readOption opts arg
        let (pieces, left) := scan opts stops read.awaiting rest
        (read.pieces ++ pieces, left)
      else if stops then ([], arg :: rest)
      else
        let (pieces, left) := scan opts stops none rest
        (.word arg :: pieces, left)

end ExchangeClient.CommandLine
