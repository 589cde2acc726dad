import ExchangeClient.Digest.Sha512
import ExchangeClient.Text.Utf8

/-!
# Keyed hashes

HMAC over SHA-512, and the signature of a text under a secret, which is written
in lower-case hexadecimal digits.
-/

namespace ExchangeClient.Digest

/-- Keys are brought to this many bytes. -/
def blockSize : Nat := 128

/-- A key brought to the length of a block; a longer one is hashed first. -/
def blockKey (key : List UInt8) : List UInt8 :=
  let short := if blockSize < key.length then Sha512.hash key else key
  short ++ List.replicate (blockSize - short.length) 0

def hmac (key message : List UInt8) : List UInt8 :=
  let k := blockKey key
  Sha512.hash (k.map (· ^^^ 0x5c) ++ Sha512.hash (k.map (· ^^^ 0x36) ++ message))

def hexChars (bytes : List UInt8) : List Char :=
  bytes.flatMap fun b => [Nat.digitChar (b.toNat / 16), Nat.digitChar (b.toNat % 16)]

/-- The signature of a text under a secret. -/
def sign (payload secret : String) : String :=
  String.ofList (hexChars (hmac (Text.utf8 secret) (Text.utf8 payload)))

end ExchangeClient.Digest
