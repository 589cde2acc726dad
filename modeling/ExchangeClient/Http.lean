/-!
# HTTP requests and responses

A payload of parameters travels in the body of a POST and in the query of any
other request. Nothing here looks at the parameters themselves.
-/

namespace ExchangeClient.Http

inductive Method where
  | get
  | post
  | delete
  deriving DecidableEq, Repr

namespace Method

def name : Method → String
  | .get => "GET"
  | .post => "POST"
  | .delete => "DELETE"

def hasBody (m : Method) : Bool := m == .post

end Method

structure Request where
  method : Method
  url : String
  headers : List (String × String) := []
  body : Option String := none
  deriving DecidableEq

namespace Request

/-- A request with its payload where the method wants it. -/
def carrying (method : Method) (base path payload : String) : Request :=
  if method.hasBody then { method, url := base ++ path, body := some payload }
  else if payload.isEmpty then { method, url := base ++ path }
  else { method, url := base ++ path ++ "?" ++ payload }

def withHeaders (r : Request) (headers : List (String × String)) : Request :=
  { r with headers := r.headers ++ headers }

/-- Header names do not depend on the case of ASCII letters. -/
def sameName (a b : String) : Bool := a.toList.map Char.toLower == b.toList.map Char.toLower

/-- The first header of a name. -/
def header? (r : Request) (name : String) : Option String :=
  (r.headers.find? fun h => sameName h.1 name).map (·.2)

/-- What follows the first question mark of an address. -/
def query (url : String) : String := String.ofList ((url.toList.dropWhile (· ≠ '?')).drop 1)

/-- The payload, wherever it travels. -/
def payload (r : Request) : String := r.body.getD (query r.url)

end Request

structure Response where
  status : Nat
  body : String
  deriving DecidableEq

def Response.isError (r : Response) : Bool := 400 ≤ r.status

end ExchangeClient.Http
