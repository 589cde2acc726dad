import ExchangeClient.ClientError
import ExchangeClient.Http
import ExchangeClient.Url.Address

/-!
# Requests on the wire

A request goes to the host of its address, which is asked for the path and the
query of that address. A body comes with the type of a form. What cannot be
written into a request is not sent at all.
-/

namespace ExchangeClient.Http

def isHeaderNameChar (c : Char) : Bool :=
  c.isAlphanum || "!#$%&'*+-.^_\x60|~".toList.contains c

/-- Whether a text can be the name of a header. -/
def isHeaderName (s : String) : Bool := !s.isEmpty && s.toList.all isHeaderNameChar

/-- Whether a text can be the value of a header. -/
def isHeaderValue (s : String) : Bool :=
  s.toList.all fun c => c == '\t' || (32 ≤ c.toNat && c.toNat ≠ 127)

def formType : String := "application/x-www-form-urlencoded"

/-- A request as the host gets it. -/
structure Sent where
  method : Method
  /-- The path and the query that are asked for. -/
  target : String
  headers : List (String × String)
  body : String
  deriving DecidableEq

namespace Sent

def header? (s : Sent) (name : String) : Option String :=
  (s.headers.find? fun h => Request.sameName h.1 name).map (·.2)

/-- The payload, wherever it travels. -/
def payload (s : Sent) : String := if s.method.hasBody then s.body else Request.query s.target

end Sent

def targetText (a : Url.Address) : String :=
  String.ofList (a.path ++ (match a.query with
    | some q => '?' :: q
    | none => []))

/-- The form in which a request travels. -/
def Request.send (r : Request) : Outcome Sent :=
  match Url.Address.read r.url with
  | .error e => .error (.http e.message)
  | .ok a =>
    if a.scheme ≠ "http" ∧ a.scheme ≠ "https" then .error (.http "scheme is not allowed")
    else if r.headers.all fun h => isHeaderName h.1 && isHeaderValue h.2 then
      .ok
        { method := r.method
          target := targetText a
          headers := r.headers ++ (if r.body.isSome then [("Content-Type", formType)] else [])
          body := r.body.getD "" }
    else .error (.http "invalid header")

/-- What is read of a response: two statuses have no body, and a byte order mark is left out. -/
def Response.received (r : Response) : Response :=
  if r.status = 204 ∨ r.status = 304 then { r with body := "" }
  else match r.body.toList with
    | '\ufeff' :: rest => { r with body := String.ofList rest }
    | _ => r

end ExchangeClient.Http
