import ExchangeClient.Url.Domain
import ExchangeClient.Url.Ip

/-!
# Hosts

The host of a scheme that is known here is a domain name or an address. The host
of another scheme is taken as it is, unless it is an address between brackets.
-/

namespace ExchangeClient.Url

/-- Why an address cannot be used. -/
inductive Error where
  | noScheme
  | emptyHost
  | invalidPort
  | invalidIpv4
  | invalidIpv6
  | invalidDomain
  | invalidCharacter
  deriving DecidableEq, Repr

def Error.message : Error → String
  | .noScheme => "relative URL without a base"
  | .emptyHost => "empty host"
  | .invalidPort => "invalid port number"
  | .invalidIpv4 => "invalid IPv4 address"
  | .invalidIpv6 => "invalid IPv6 address"
  | .invalidDomain => "invalid international domain name"
  | .invalidCharacter => "invalid domain character"

inductive Host where
  | domain (name : List Char)
  | ipv4 (address : Nat)
  | ipv6 (groups : List Nat)
  deriving DecidableEq

namespace Host

def chars : Host → List Char
  | .domain name => name
  | .ipv4 address => ipv4Chars address
  | .ipv6 groups => '[' :: ipv6Chars groups ++ [']']

/-- Reads an address after its opening bracket. -/
def readBracketed (cs : List Char) : Except Error Host :=
  match cs.getLast?, readIpv6? cs.dropLast with
  | some ']', some groups => .ok (.ipv6 groups)
  | _, _ => .error .invalidIpv6

/-- Reads a domain name that may turn out to be an address. -/
def readName (cs : List Char) : Except Error Host :=
  match (Text.ofUtf8? (unescape cs)).bind fun s => asciiDomain? s.toList with
  | none => .error .invalidDomain
  | some [] => .error .emptyHost
  | some name =>
    if endsInNumber name then
      match readIpv4? name with
      | some address => .ok (.ipv4 address)
      | none => .error .invalidIpv4
    else .ok (.domain name)

/-- Reads a host. -/
def read : List Char → Except Error Host
  | '[' :: cs => readBracketed cs
  | cs => readName cs

def isForbidden (c : Char) : Bool :=
  c.toNat = 0 || "\t\n\r #/:<>?@[\\]^|".toList.contains c

/-- Reads the host of a scheme that is not known here. -/
def readOpaque : List Char → Except Error Host
  | '[' :: cs => readBracketed cs
  | cs =>
    if cs.any isForbidden then .error .invalidCharacter else .ok (.domain (escape isControl cs))

end Host
end ExchangeClient.Url
