import ExchangeClient.Settings.Error

/-!
# What a TOML document defines

Every key path is defined once. A table is opened by a header, implied by a
longer header, or made by a key with points; only the last kind grows by keys
with points, and only an implied one can still be opened. A list of tables grows
by its header, and each of its tables starts afresh.
-/

namespace ExchangeClient.Toml

open Settings (Found)

inductive Definition where
  | value (found : Found)
  | opened
  | implied
  | pointed
  | tables
  deriving DecidableEq

abbrev Path := List String

/-- The definitions so far, and the table that keys go into. -/
structure Tables where
  defined : List (Path × Definition) := []
  current : Path := []
  deriving DecidableEq

namespace Tables

def find? (t : Tables) (p : Path) : Option Definition := t.defined.lookup p

def set (t : Tables) (p : Path) (d : Definition) : Tables :=
  { t with defined := (t.defined.filter fun e => e.1 != p) ++ [(p, d)] }

/-- Forgets what is below a path. -/
def clear (t : Tables) (p : Path) : Tables :=
  { t with defined := t.defined.filter fun e => !(p.isPrefixOf e.1 && p.length < e.1.length) }

/-- Steps from a table down to another one; the tables on the way are made as needed. -/
def descend (t : Tables) (isPointed : Bool) (base : Path) : Path → Option Tables
  | [] => some t
  | part :: rest =>
    let here := base ++ [part]
    match t.find? here with
    | none => (t.set here (if isPointed then .pointed else .implied)).descend isPointed here rest
    | some (.value _) => none
    | some .opened => if isPointed then none else t.descend isPointed here rest
    | some _ => t.descend isPointed here rest

/-- Defines a value under a key of the current table. -/
def define (t : Tables) (key : Path) (found : Found) : Option Tables := do
  let above := key.dropLast
  let t ← t.descend true t.current above
  let holder := t.current ++ above
  if above ≠ [] ∧ t.find? holder ≠ some .pointed then none
  else if (t.find? (t.current ++ key)).isSome then none
  else some (t.set (t.current ++ key) (.value found))

/-- Opens a table. -/
def openTable (t : Tables) (p : Path) : Option Tables := do
  let t ← t.descend false [] p.dropLast
  match t.find? p with
  | none => some { t.set p .opened with current := p }
  | some .implied => some { t.set p .opened with current := p }
  | _ => none

/-- Opens the next table of a list. -/
def openNext (t : Tables) (p : Path) : Option Tables := do
  let t ← t.descend false [] p.dropLast
  match t.find? p with
  | none => some { t.set p .tables with current := p }
  | some .tables => some { t.clear p with current := p }
  | _ => none

def Definition.found : Definition → Found
  | .value f => f
  | .tables => .list
  | _ => .table

/-- What the document says under each key of its outermost table. -/
def outermost (t : Tables) : List (String × Found) :=
  t.defined.filterMap fun e => match e.1 with
    | [key] => some (key, Definition.found e.2)
    | _ => none

end Tables
end ExchangeClient.Toml
