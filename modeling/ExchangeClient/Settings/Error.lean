import ExchangeClient.Text.Quoted
import ExchangeClient.Binary64.Text

/-!
# Why settings cannot be loaded
-/

namespace ExchangeClient.Settings

/-- Where a setting comes from. -/
inductive Origin where
  | file (path : String)
  | environment
  deriving DecidableEq

def Origin.text : Origin → String
  | .file path => path
  | .environment => "the environment"

/-- What was found in place of a setting. -/
inductive Found where
  | nothing
  | flag (b : Bool)
  | whole (i : Int)
  | real (v : Binary64)
  | text (s : String)
  | list
  | table
  deriving DecidableEq

def Found.shown : Found → String
  | .nothing => "unit value"
  | .flag b => "boolean `" ++ (if b then "true" else "false") ++ "`"
  | .whole i => "64-bit integer `" ++ Digits.intText i ++ "`"
  | .real v => "floating point `" ++ v.plainText ++ "`"
  | .text s => "string " ++ Text.quote s
  | .list => "sequence"
  | .table => "map"

inductive Error where
  /-- The file is not in its format. -/
  | malformed
  | mismatch (found : Found) (expected key : String) (origin : Origin)
  deriving DecidableEq

def Error.message : Error → String
  | .malformed => "the file is malformed"
  | .mismatch found expected key origin =>
    "invalid type: " ++ found.shown ++ ", expected " ++ expected ++ " for key `" ++ key ++ "` in "
      ++ origin.text

end ExchangeClient.Settings
