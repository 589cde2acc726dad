import ExchangeClient.Text.PrintTable
import ExchangeClient.Text.Range

/-!
# Quoted texts in messages

Messages show foreign texts between double quotes. A backslash stands before a
quote and before itself, the common controls have letters, and a character that
would not be seen is spelled by its number.
-/

namespace ExchangeClient.Text

def isPrinted (c : Char) : Bool :=
  if c.toNat < 0x7f then 0x20 ≤ c.toNat else !inRanges unprintedRanges c.toNat

/-- The hexadecimal digits of a number, in lower case. -/
def hexDigits (n : Nat) : List Char :=
  if n < 16 then [Nat.digitChar n] else hexDigits (n / 16) ++ [Nat.digitChar (n % 16)]

def quoteChar (c : Char) : List Char :=
  if c = '"' then ['\\', '"']
  else if c = '\\' then ['\\', '\\']
  else if c = '\n' then ['\\', 'n']
  else if c = '\r' then ['\\', 'r']
  else if c = '\t' then ['\\', 't']
  else if c.toNat = 0 then ['\\', '0']
  else if isPrinted c then [c]
  else ['\\', 'u', '\x7b'] ++ hexDigits c.toNat ++ ['\x7d']

/-- A text between double quotes, fit for a message. -/
def quote (s : String) : String :=
  String.ofList (['"'] ++ s.toList.flatMap quoteChar ++ ['"'])

end ExchangeClient.Text
