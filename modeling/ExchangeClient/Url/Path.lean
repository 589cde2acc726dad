import ExchangeClient.Url.Percent

/-!
# Paths and queries

A path is resolved segment by segment, with either kind of slash between them.
Tabs and line ends are passed over in paths and queries alike.
-/

namespace ExchangeClient.Url

def isPassed (c : Char) : Bool := c == '\t' || c == '\n' || c == '\r'

def isHere (segment : List Char) : Bool :=
  [".", "%2e"].contains (String.ofList (segment.map Char.toLower))

def isParent (segment : List Char) : Bool :=
  ["..", ".%2e", "%2e.", "%2e%2e"].contains (String.ofList (segment.map Char.toLower))

/-- Follows the segments of a path; steps up and to the place itself leave no segment. -/
def resolve (done : List (List Char)) : List (List Char) → List (List Char)
  | [] => done
  | [last] =>
    if isParent last then done.dropLast ++ [[]]
    else if isHere last then done ++ [[]]
    else done ++ [last]
  | segment :: rest =>
    if isParent segment then resolve done.dropLast rest
    else if isHere segment then resolve done rest
    else resolve (done ++ [segment]) rest

/-- A path from the root, resolved and escaped. -/
def pathChars (path : List Char) : List Char :=
  let cs := (path.filter fun c => !isPassed c).map fun c => if c = '\\' then '/' else c
  let segments := Form.splitAll '/' (match cs with
    | '/' :: rest => rest
    | _ => cs)
  (resolve [] (segments.map (escape escapedInPath))).flatMap ('/' :: ·)

/-- A query, escaped. -/
def queryChars (query : List Char) : List Char :=
  escape escapedInQuery (query.filter fun c => !isPassed c)

end ExchangeClient.Url
