import ExchangeClient.Channel.Params
import ExchangeClient.ClientError
import ExchangeClient.Http

/-!
# Frames of a channel

A request and its reply carry the same number. What the exchange sends of its
own accord, a broadcast, carries the number zero and its topic in place of a
message. Contents are JSON in base64; no contents stand for the empty value.
-/

namespace ExchangeClient.Channel

open Json

/-- The base64 of a value's JSON. -/
def packed (v : Value) : String := Base64.encode (Text.utf8 v.text)

/-- Reads contents back; none stand for `empty`. -/
def unpack {α : Type} (c : Codec α) (empty : α) (body : String) : Outcome α :=
  if body.isEmpty then .ok empty
  else do
    let bytes ← (Base64.decode body).mapError .base64
    (c.readBytes bytes).mapError .serialization

structure RequestFrame where
  id : UInt64 := 0
  method : String := ""
  target : String := ""
  body : String := ""
  deriving DecidableEq

namespace RequestFrame

def fields : List (RecordField RequestFrame) :=
  [(RecordField.of "id" .uint64 (·.id) fun f x => { f with id := x }).needed,
    (RecordField.of "method" .string (·.method) fun f x => { f with method := x }).needed,
    (RecordField.of "target" .string (·.target) fun f x => { f with target := x }).needed,
    .of "body" .string (·.body) fun f x => { f with body := x }]

def codec : Codec RequestFrame := .record "WsRequest" fields {}

def carrying (id : UInt64) (method : Http.Method) (target : String) (params : Option Params) :
    RequestFrame :=
  ⟨id, method.name, target, (params.map fun p => packed (Params.codec.encode p)).getD ""⟩

def params (f : RequestFrame) : Outcome Params := unpack Params.codec {} f.body

end RequestFrame

structure ReplyFrame where
  id : UInt64 := 0
  code : Int64 := 0
  message : String := ""
  body : String := ""
  deriving DecidableEq

namespace ReplyFrame

def fields : List (RecordField ReplyFrame) :=
  [.of "id" .uint64 (·.id) fun f x => { f with id := x },
    .of "code" .int64 (·.code) fun f x => { f with code := x },
    .of "message" .string (·.message) fun f x => { f with message := x },
    .of "body" .string (·.body) fun f x => { f with body := x }]

def codec : Codec ReplyFrame := .record "WsResponse" fields {}

/-- The number of a broadcast. -/
def broadcastId : UInt64 := 0

/-- The code of success. -/
def okCode : Int64 := 200

def reply (id : UInt64) (v : Value) : ReplyFrame := ⟨id, okCode, "", packed v⟩

def broadcast (topic : String) (v : Value) : ReplyFrame := ⟨broadcastId, okCode, topic, packed v⟩

def isBroadcast (f : ReplyFrame) : Bool := f.id == broadcastId

def topic (f : ReplyFrame) : String := f.message

/-- The frame itself, unless its code reports an error. -/
def accept (f : ReplyFrame) : Outcome ReplyFrame :=
  if f.code = okCode then .ok f else .error (.api ⟨f.code.toInt, f.message, ""⟩)

def decode {α : Type} (f : ReplyFrame) (c : Codec α) (empty : α) : Outcome α :=
  unpack c empty f.body

end ReplyFrame
end ExchangeClient.Channel
