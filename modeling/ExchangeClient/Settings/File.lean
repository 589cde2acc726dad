import ExchangeClient.Json.Codec
import ExchangeClient.Settings.Found
import ExchangeClient.Settings.Ini
import ExchangeClient.Settings.Yaml
import ExchangeClient.Toml.Document

/-!
# Files of settings

The ending of a file's name tells its format; a file whose ending tells none is
passed over.
-/

namespace ExchangeClient.Settings

inductive Format where
  | toml
  | json
  | yaml
  | lines
  | braces (dialect : Braces.Dialect)
  deriving DecidableEq

def Format.ofEnding? (ending : String) : Option Format :=
  match ending with
  | "toml" => some .toml
  | "json" => some .json
  | "yaml" => some .yaml
  | "yml" => some .yaml
  | "ini" => some .lines
  | "json5" => some (.braces .loose)
  | "ron" => some (.braces .records)
  | _ => none

structure File where
  /-- The name under which errors tell of the file. -/
  path : String
  format : Format
  text : String
  deriving DecidableEq

def Found.ofJson : Json.Value → Found
  | .null => .nothing
  | .bool b => .flag b
  | .number (.int i) =>
    if Digits.fitsInt64 i then .whole i else .real (Binary64.ofRatio (i < 0) i.natAbs 1)
  | .number (.real v) => .real v
  | .string s => .text s
  | .array _ => .list
  | .object _ => .table

/-- The text of a file without the byte order mark it may start with. -/
def File.body (f : File) : String :=
  match f.text.toList with
  | '\ufeff' :: rest => String.ofList rest
  | _ => f.text

/-- What a file says under its outermost keys, unless it is not in its format. -/
def File.entries? (f : File) : Option (List (String × Found)) :=
  match f.format with
  | .toml => Toml.read? f.body
  | .json =>
    match Json.Codec.value.readText f.body with
    | .ok (.object members) => some (members.map fun m => (m.1, Found.ofJson m.2))
    | _ => none
  | .yaml => Yaml.read? f.body
  | .braces dialect => Braces.read? dialect f.body
  | .lines => Ini.read? f.body

/-- The ending of a file's name. -/
def endingOf (path : String) : String :=
  let name := (path.toList.reverse.takeWhile (· ≠ '/'))
  let ending := name.takeWhile (· ≠ '.')
  if ending.length + 1 < name.length then String.ofList ending.reverse else ""

/-- Where the settings of a path are looked for, the first file that exists being taken. -/
def candidates (path : String) : List (String × Option Format) :=
  (path, Format.ofEnding? (endingOf path))
    :: ["toml", "json", "yaml", "yml", "ini", "json5", "ron"].map fun ending =>
      (path ++ "." ++ ending, Format.ofEnding? ending)

end ExchangeClient.Settings
