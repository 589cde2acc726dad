import ExchangeClient.Json.Record

/-!
# Account owners and their holdings

The holdings of a user are members of the user's own object. They are looked at
only after the whole object was read, so a fault anywhere in it comes first.
-/

namespace ExchangeClient

open Json

/-- Free and locked balances by asset. -/
structure Holdings where
  balances : Dictionary Decimal := .empty
  frozen : Dictionary Decimal := .empty
  deriving DecidableEq

namespace Holdings

def balance (h : Holdings) (asset : String) : Decimal := (h.balances.find? asset).getD .zero

def frozenBalance (h : Holdings) (asset : String) : Decimal := (h.frozen.find? asset).getD .zero

/-- The free balance and what open orders lock. -/
def total (h : Holdings) (asset : String) : Decimal :=
  (h.balance asset).add (h.frozenBalance asset)

def fields : List (RecordField Holdings) :=
  [.sparse "balances" (.dictionary .decimal) (·.balances) (fun h x => { h with balances := x })
      Dictionary.isEmpty,
    .sparse "frozen_balances" (.dictionary .decimal) (·.frozen) (fun h x => { h with frozen := x })
      Dictionary.isEmpty]

def codec : Codec Holdings := .record "UserAssets" fields {}

end Holdings

/-- Which events the user is notified of. -/
structure Notifications where
  deposit : Bool := false
  login : Bool := false
  trade : Bool := false
  withdraw : Bool := false
  deriving DecidableEq

namespace Notifications

def fields : List (RecordField Notifications) :=
  [.of "deposit" .bool (·.deposit) fun n x => { n with deposit := x },
    .of "login" .bool (·.login) fun n x => { n with login := x },
    .of "trade" .bool (·.trade) fun n x => { n with trade := x },
    .of "withdraw" .bool (·.withdraw) fun n x => { n with withdraw := x }]

def codec : Codec Notifications := .record "UserNotifications" fields {}

end Notifications

structure User where
  holdings : Holdings := {}
  notifications : Option Notifications := none
  /-- Deposit addresses by asset. -/
  wallets : Dictionary String := .empty
  email : String := ""
  fullName : String := ""
  id : Int64 := 0
  deriving DecidableEq

namespace User

/-- The fields besides the holdings. -/
def fields : List (RecordField User) :=
  [.optional "notifications" Notifications.codec (·.notifications)
      fun u x => { u with notifications := x },
    .sparse "wallets" (.dictionary .string) (·.wallets) (fun u x => { u with wallets := x })
      Dictionary.isEmpty,
    .of "email" .string (·.email) fun u x => { u with email := x },
    .of "full_name" .string (·.fullName) fun u x => { u with fullName := x },
    .of "id" .int64 (·.id) fun u x => { u with id := x }]

/-- A user in the middle of being read, with the members that are no fields, the last one first. -/
structure Draft where
  user : User
  others : List (Key × Document)

/-- A field of the user as one of the draft. -/
def draftField (f : RecordField User) : RecordField Draft :=
  ⟨f.name, f.otherNames, f.presence,
    fun d => (f.read d).map fun update s => { s with user := update s.user },
    fun s => f.write s.user⟩

/-- Keeps a member that is no field, once it could be read. -/
def keep (name : String) (d : Document) : Except Error (Draft → Draft) :=
  match Value.ofDocument d with
  | .error f => .error (.fault f)
  | .ok _ => .ok fun s => { s with others := (.quoted (.string name), d) :: s.others }

def decode : Document → Except Error User
  | .object members ending => do
    let draft ← Record.readMembers (fields.map draftField) keep ending [] ⟨{}, []⟩ members
    let holdings ← Holdings.codec.decode (.object draft.others.reverse none)
    pure { draft.user with holdings := holdings }
  | .deep (.object _ _) => .error (.fault .malformed)
  | d => .error (d.mismatch "struct User")

def encode (u : User) : Value :=
  match Record.encode Holdings.fields u.holdings, Record.encode fields u with
  | .object held, .object own => .object (held ++ own)
  | v, _ => v

def codec : Codec User := ⟨decode, encode⟩

end User
end ExchangeClient
