import ExchangeClient.Binary64.Text
import ExchangeClient.CommandLine.Arguments

/-!
# Commands

The options that hold for every command stand before its name, its own options
and its word behind it. No option is given twice. What cannot be understood, and
what asks for help or for the version, ends the reading where it stands.
-/

namespace ExchangeClient.CommandLine

inductive Command where
  | prices
  | ticker (pair : String) (isOlder : Bool)
  | depth (pair : String) (levels : Nat)
  | summaries
  | balances
  | openOrders (pair : String)
  | watch (pair : String) (seconds : Option Nat)
  | sign (payload : String)
  | format (value : Binary64)
  deriving DecidableEq

/-- Why no command is run. -/
inductive Refusal where
  | misuse
  | help
  | version
  deriving DecidableEq

structure Invocation where
  config : Option String
  isVerbose : Bool
  command : Command
  deriving DecidableEq

/-- The names of the commands. -/
inductive Verb where
  | prices
  | ticker
  | depth
  | summaries
  | balances
  | openOrders
  | watch
  | sign
  | format
  deriving DecidableEq

namespace Verb

def all : List Verb :=
  [.prices, .ticker, .depth, .summaries, .balances, .openOrders, .watch, .sign, .format]

def name : Verb → String
  | .prices => "prices"
  | .ticker => "ticker"
  | .depth => "depth"
  | .summaries => "summaries"
  | .balances => "balances"
  | .openOrders => "open-orders"
  | .watch => "watch"
  | .sign => "sign"
  | .format => "format"

def ofName? (name : String) : Option Verb := all.find? fun v => v.name = name

def takesWord : Verb → Bool
  | .prices => false
  | .summaries => false
  | .balances => false
  | _ => true

def helpOption : Opt := ⟨"help", some 'h', false⟩

def options : Verb → List Opt
  | .ticker => [⟨"legacy", none, false⟩, helpOption]
  | .depth => [⟨"levels", some 'l', true⟩, helpOption]
  | .watch => [⟨"seconds", some 's', true⟩, helpOption]
  | _ => [helpOption]

end Verb

/-- What the arguments of a command have said so far. -/
structure Draft where
  word : Option String := none
  value : Option Binary64 := none
  isOlder : Bool := false
  number : Option Nat := none

namespace Draft

/-- Takes one more piece of the arguments of a command. -/
def take (v : Verb) (d : Draft) : Piece → Except Refusal Draft
  | .fault => .error .misuse
  | .flag name =>
    if name = "help" then .error .help
    else if d.isOlder then .error .misuse
    else .ok { d with isOlder := true }
  | .setting _ value =>
    match Digits.readUInt64? value.toList with
    | some n => if d.number.isSome then .error .misuse else .ok { d with number := some n }
    | none => .error .misuse
  | .word text =>
    if !v.takesWord || d.word.isSome then .error .misuse
    else if v = .format then
      match Binary64.ofText? text with
      | some x => .ok { d with word := some text, value := some x }
      | none => .error .misuse
    else .ok { d with word := some text }

/-- How many levels are shown unless said otherwise. -/
def usualLevels : Nat := 10

def command? (v : Verb) (d : Draft) : Option Command :=
  match v with
  | .prices => some .prices
  | .summaries => some .summaries
  | .balances => some .balances
  | .ticker => d.word.map fun pair => .ticker pair d.isOlder
  | .depth => d.word.map fun pair => .depth pair (d.number.getD usualLevels)
  | .openOrders => d.word.map .openOrders
  | .watch => d.word.map fun pair => .watch pair d.number
  | .sign => d.word.map .sign
  | .format => d.value.map .format

end Draft

/-- Reads the arguments behind the name of a command. -/
def readCommand (v : Verb) (args : List String) : Except Refusal Command := do
  let d ← (scan v.options false none args).1.foldlM (Draft.take v) {}
  match d.command? v with
  | some c => .ok c
  | none => .error .misuse

def commonOptions : List Opt :=
  [⟨"config", some 'c', true⟩, ⟨"verbose", some 'v', false⟩, Verb.helpOption,
    ⟨"version", some 'V', false⟩]

/-- The options that hold for every command. -/
structure Common where
  config : Option String := none
  isVerbose : Bool := false

def Common.take (c : Common) : Piece → Except Refusal Common
  | .setting _ value =>
    if c.config.isSome then .error .misuse else .ok { c with config := some value }
  | .flag name =>
    if name = "help" then .error .help
    else if name = "version" then .error .version
    else if c.isVerbose then .error .misuse
    else .ok { c with isVerbose := true }
  | _ => .error .misuse

/-- What asking for help comes to: it is given for a command that there is. -/
def readHelp (args : List String) : Refusal :=
  match args with
  | [] => .help
  | [name] => if name = "help" ∨ (Verb.ofName? name).isSome then .help else .misuse
  | _ => .misuse

def Invocation.read (args : List String) : Except Refusal Invocation := do
  let (pieces, rest) := scan commonOptions true none args
  let c ← pieces.foldlM Common.take {}
  match rest with
  | [] => .error .misuse
  | name :: args =>
    if name = "help" then .error (readHelp args)
    else match Verb.ofName? name with
      | none => .error .misuse
      | some v => (readCommand v args).map fun command => ⟨c.config, c.isVerbose, command⟩

end ExchangeClient.CommandLine
