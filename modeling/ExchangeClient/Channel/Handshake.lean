import ExchangeClient.Http.Wire
import ExchangeClient.Settings.Basic

/-!
# Opening a channel

A channel is at the host of the exchange, under a path of its own. The private
channel is opened by a signed request whose whole query is the signed payload;
it is signed anew whenever a socket is made.
-/

namespace ExchangeClient.Channel

/-- Where a channel is. -/
structure Endpoint where
  isSecure : Bool
  authority : Url.Authority
  path : List Char
  fragment : Option (List Char) := none
  deriving DecidableEq

namespace Endpoint

/-- Whether a scheme is a secure one, for those under which the exchange can be reached. -/
def isSecure? (scheme : String) : Option Bool :=
  match scheme with
  | "https" | "wss" => some true
  | "http" | "ws" => some false
  | _ => none

/-- The channel of a path at the exchange of an address. -/
def read (address path : String) : Outcome Endpoint :=
  match Url.Address.read address with
  | .error e =>
    .error (.invalidResponse ("invalid address " ++ Text.quote address ++ ": " ++ e.message))
  | .ok a =>
    match isSecure? a.scheme, a.authority with
    | some isSecure, some authority =>
      .ok { isSecure, authority, path := Url.pathChars path.toList, fragment := a.fragment }
    | _, _ =>
      .error (.invalidResponse
        ("unsupported scheme " ++ Text.quote a.scheme ++ " in " ++ Text.quote address))

/-- The address without its fragment. -/
def baseChars (e : Endpoint) : List Char :=
  (if e.isSecure then "wss://" else "ws://").toList ++ e.authority.chars ++ e.path

def text (e : Endpoint) : String :=
  String.ofList (e.baseChars ++ (match e.fragment with
    | some f => '#' :: f
    | none => []))

def host (e : Endpoint) : String := String.ofList e.authority.hostChars

/-- Characters that a host can have and a request cannot carry. -/
def isUnsendable (c : Char) : Bool := c == '"' || c == '\x60' || c == '\x7b' || c == '\x7d'

def isSendable (e : Endpoint) : Bool := !e.authority.hostChars.any isUnsendable

end Endpoint

/-- The request that opens a socket. -/
structure Handshake where
  endpoint : Endpoint
  /-- The query, escaped. -/
  query : Option String := none
  headers : List (String × String) := []
  deriving DecidableEq

namespace Handshake

def uri (h : Handshake) : String :=
  String.ofList h.endpoint.baseChars ++ (match h.query with
    | some q => "?" ++ q
    | none => "")

def header? (h : Handshake) (name : String) : Option String := h.headers.lookup name

/-- A handshake that tells nothing about its sender. -/
def plain (e : Endpoint) : Outcome Handshake :=
  if e.isSendable then .ok { endpoint := e }
  else .error (.webSocket "HTTP format error: invalid uri character")

/-- A handshake with a signed query. -/
def signed (e : Endpoint) (s : SignedPayload) : Outcome Handshake := do
  let h ← plain e
  if s.headers.all fun header => Http.isHeaderValue header.2 then
    let query := String.ofList (Url.queryChars s.payload.toList)
    pure { h with query := some query, headers := s.headers }
  else throw (.webSocket "failed to parse header value")

def publicPath : String := "/v2/ws"

def privatePath : String := "/v2/user/ws"

/-- Opens the public channel. -/
def forPublic (s : Settings) : Outcome Handshake := do
  Outcome.during "public_ws_connect" (plain (← Endpoint.read s.address publicPath))

/-- Opens the private channel at a moment. -/
def forPrivate (s : Settings) (now : Instant) : Outcome Handshake :=
  if s.isAuthenticated then do
    let e ← Endpoint.read s.address privatePath
    Outcome.during "private_ws_connect" (s.credentials.sign .empty .timestamp now >>= signed e)
  else Outcome.during "private_ws_connect" (.error .unauthenticated)

end Handshake

/-- What becomes of an attempt to make a socket. -/
inductive Attempt where
  | made
  | refused
  | unreachable
  deriving DecidableEq, Repr

def Attempt.outcome : Attempt → Outcome Unit
  | .made => .ok ()
  | .refused => .error (.webSocket "HTTP error: 401 Unauthorized")
  | .unreachable => .error (.webSocket "IO error: Network is unreachable (os error 101)")

end ExchangeClient.Channel
