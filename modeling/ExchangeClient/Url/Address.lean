import ExchangeClient.Url.Host
import ExchangeClient.Url.Path

/-!
# Addresses

An address is a scheme and, after two slashes, an authority: who asks, a host
and a port. The schemes known here need an authority, take any number of slashes
of either kind before it, and leave out their usual port. A path, a query and a
fragment follow; those of a scheme that is not known here are not looked at.
Tabs and line ends are passed over, and blanks around an address.
-/

namespace ExchangeClient.Url

structure Authority where
  /-- The user and the password, escaped; empty if there is none. -/
  userInfo : List Char := []
  host : Host
  /-- A port that is not the usual one of the scheme. -/
  port : Option Nat := none
  deriving DecidableEq

namespace Authority

def hostChars (a : Authority) : List Char :=
  a.host.chars ++ (match a.port with
    | some p => ':' :: Digits.ofNat p
    | none => [])

def chars (a : Authority) : List Char :=
  (if a.userInfo.isEmpty then [] else a.userInfo ++ ['@']) ++ a.hostChars

end Authority

structure Address where
  scheme : String
  authority : Option Authority
  /-- The path, escaped; it starts with a slash. -/
  path : List Char := ['/']
  query : Option (List Char) := none
  fragment : Option (List Char) := none
  deriving DecidableEq

/-- How the schemes treat their authorities. -/
inductive SchemeKind where
  /-- A network scheme that is known here. -/
  | network
  | file
  | other
  deriving DecidableEq

namespace SchemeKind

def ofScheme (scheme : String) : SchemeKind :=
  if ["http", "https", "ws", "wss", "ftp"].contains scheme then .network
  else if scheme = "file" then .file
  else .other

/-- Whether a backslash counts as a slash. -/
def isKnown (k : SchemeKind) : Bool := k != .other

end SchemeKind

def usualPort? (scheme : String) : Option Nat :=
  match scheme with
  | "http" | "ws" => some 80
  | "https" | "wss" => some 443
  | "ftp" => some 21
  | _ => none

def isSchemeChar (c : Char) : Bool := c.isAlphanum || c == '+' || c == '-' || c == '.'

/-- Splits a scheme off, in lower case. -/
def splitScheme? (cs : List Char) : Option (String × List Char) :=
  let name := cs.takeWhile isSchemeChar
  match name, cs.dropWhile isSchemeChar with
  | first :: _, ':' :: rest =>
    if first.isAlpha then some (String.ofList (name.map Char.toLower), rest) else none
  | _, _ => none

/-- What ends an authority. -/
def endsAuthority (k : SchemeKind) (c : Char) : Bool :=
  c == '/' || c == '?' || c == '#' || (k.isKnown && c == '\\')

/-- Splits at the last `@`. -/
def splitUserInfo? (cs : List Char) : Option (List Char × List Char) :=
  if cs.contains '@' then
    let host := (cs.reverse.takeWhile (· ≠ '@')).reverse
    some (cs.take (cs.length - host.length - 1), host)
  else none

/-- A user and a password in their escaped form; an empty password leaves no colon. -/
def userInfoChars (cs : List Char) : List Char :=
  let user := cs.takeWhile (· ≠ ':')
  let password := (cs.dropWhile (· ≠ ':')).drop 1
  escape escapedInUserInfo user
    ++ (if password.isEmpty then [] else ':' :: escape escapedInUserInfo password)

/-- Splits a host from what follows it; a colon between brackets belongs to the host. -/
def splitHost (k : SchemeKind) (isBracketed : Bool) : List Char → List Char × List Char
  | [] => ([], [])
  | c :: rest =>
    if endsAuthority k c || (c == ':' && !isBracketed) then ([], c :: rest)
    else
      let isBracketed := if c = '[' then true else if c = ']' then false else isBracketed
      let (host, after) := splitHost k isBracketed rest
      (c :: host, after)

/-- Reads a port; one without digits is none. -/
def readPort (cs : List Char) : Except Error (Option Nat) :=
  let ds := cs.takeWhile Char.isDigit
  match cs.dropWhile Char.isDigit with
  | c :: _ => if endsAuthority .network c then number ds else .error .invalidPort
  | [] => number ds
where
  number (ds : List Char) : Except Error (Option Nat) :=
    if ds.isEmpty then .ok none
    else if Digits.value ds < 65536 then .ok (some (Digits.value ds))
    else .error .invalidPort

def readHost (k : SchemeKind) (cs : List Char) : Except Error Host :=
  if k.isKnown then if cs.isEmpty then .error .emptyHost else Host.read cs
  else Host.readOpaque cs

/-- Reads a host with its port. -/
def readHostPort (scheme : String) (userInfo cs : List Char) : Except Error Authority := do
  let k := SchemeKind.ofScheme scheme
  let (name, after) := splitHost k false cs
  let host ← readHost k name
  let isEmpty := host == .domain []
  match after with
  | ':' :: port =>
    if isEmpty then throw .emptyHost
    let port ← readPort port
    pure { userInfo, host, port := if port = usualPort? scheme then none else port }
  | _ =>
    if isEmpty && !userInfo.isEmpty then throw .emptyHost
    pure { userInfo, host }

/-- Reads an authority; what follows it comes behind it. -/
def readAuthority (scheme : String) (cs : List Char) : Except Error Authority :=
  let k := SchemeKind.ofScheme scheme
  let inside := cs.takeWhile fun c => !endsAuthority k c
  let after := cs.dropWhile fun c => !endsAuthority k c
  match splitUserInfo? inside with
  | none => readHostPort scheme [] cs
  | some ([], []) => if after.isEmpty then readHostPort scheme [] [] else .error .emptyHost
  | some (userInfo, host) => readHostPort scheme (userInfoChars userInfo) (host ++ after)

def isDriveLetter : List Char → Bool
  | [a, b] => a.isAlpha && (b == ':' || b == '|')
  | _ => false

/-- Reads the authority of a file, which is a host at most. -/
def readFileAuthority (cs : List Char) : Except Error (Option Authority) :=
  let name := cs.takeWhile fun c => !endsAuthority .file c
  if name.isEmpty || isDriveLetter name then .ok none
  else (Host.read name).map fun host =>
    if host = .domain "localhost".toList then none else some { host }

def isSlash (c : Char) : Bool := c == '/' || c == '\\'

def readSchemeAuthority (scheme : String) (cs : List Char) : Except Error (Option Authority) :=
  match SchemeKind.ofScheme scheme, cs with
  | .network, _ => (readAuthority scheme (cs.dropWhile isSlash)).map some
  | .file, a :: b :: rest => if isSlash a && isSlash b then readFileAuthority rest else .ok none
  | .other, '/' :: '/' :: rest => (readAuthority scheme rest).map some
  | _, _ => .ok none

def isAround (c : Char) : Bool := c.toNat ≤ 32

/-- The characters of an address that count. -/
def significant (s : String) : List Char :=
  let trimmed := ((s.toList.dropWhile isAround).reverse.dropWhile isAround).reverse
  trimmed.filter fun c => !isPassed c

/-- What follows a separator, if there is one. -/
def after? (separator : Char) (cs : List Char) : Option (List Char) :=
  match cs.dropWhile (· ≠ separator) with
  | [] => none
  | _ :: rest => some rest

/-- Reads what follows the authority of a network scheme. -/
def Address.withRest (a : Address) (cs : List Char) : Address :=
  let main := cs.takeWhile (· ≠ '#')
  { a with
    path := pathChars (main.takeWhile (· ≠ '?'))
    query := (after? '?' main).map queryChars
    fragment := (after? '#' cs).map (escape escapedInFragment) }

def Address.read (s : String) : Except Error Address :=
  match splitScheme? (significant s) with
  | none => .error .noScheme
  | some (scheme, rest) =>
    (readSchemeAuthority scheme rest).map fun authority =>
      let a : Address := { scheme, authority }
      if SchemeKind.ofScheme scheme = .network then
        a.withRest ((rest.dropWhile isSlash).dropWhile fun c => !endsAuthority .network c)
      else a

end ExchangeClient.Url
