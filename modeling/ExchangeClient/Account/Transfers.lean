import ExchangeClient.Json.Record

/-!
# Deposits and withdrawals
-/

namespace ExchangeClient

open Json

structure Withdrawal where
  amount : Decimal := .zero
  fee : Decimal := .zero
  finalAmount : Decimal := .zero
  requestId : String := ""
  requesterAddress : String := ""
  asset : String := ""
  network : String := ""
  status : String := ""
  address : String := ""
  addressType : String := ""
  memo : String := ""
  id : Int64 := 0
  submitTime : Int64 := 0
  successTime : Int64 := 0
  deriving DecidableEq

namespace Withdrawal

def fields : List (RecordField Withdrawal) :=
  [.amount "amount" (·.amount) fun w x => { w with amount := x },
    .amount "fee" (·.fee) fun w x => { w with fee := x },
    .amount "final_amount" (·.finalAmount) fun w x => { w with finalAmount := x },
    .label "request_id" (·.requestId) fun w x => { w with requestId := x },
    .label "requester_ip" (·.requesterAddress) fun w x => { w with requesterAddress := x },
    .label "asset" (·.asset) fun w x => { w with asset := x },
    .label "network" (·.network) fun w x => { w with network := x },
    .label "status" (·.status) fun w x => { w with status := x },
    .label "address" (·.address) fun w x => { w with address := x },
    .label "address_type" (·.addressType) fun w x => { w with addressType := x },
    .label "memo" (·.memo) fun w x => { w with memo := x },
    .of "id" .int64 (·.id) fun w x => { w with id := x },
    .of "submit_time" .int64 (·.submitTime) fun w x => { w with submitTime := x },
    .of "success_time" .int64 (·.successTime) fun w x => { w with successTime := x }]

def codec : Codec Withdrawal := .record "WithdrawItem" fields {}

end Withdrawal

structure Deposit where
  amount : Decimal := .zero
  finalAmount : Decimal := .zero
  asset : String := ""
  status : String := ""
  id : Int64 := 0
  successTime : Int64 := 0
  deriving DecidableEq

namespace Deposit

def fields : List (RecordField Deposit) :=
  [.of "amount" .decimal (·.amount) fun d x => { d with amount := x },
    .of "final_amount" .decimal (·.finalAmount) fun d x => { d with finalAmount := x },
    .label "asset" (·.asset) fun d x => { d with asset := x },
    .of "status" .string (·.status) fun d x => { d with status := x },
    .of "id" .int64 (·.id) fun d x => { d with id := x },
    .of "success_time" .int64 (·.successTime) fun d x => { d with successTime := x }]

def codec : Codec Deposit := .record "DepositItem" fields {}

end Deposit

/-- Deposits and withdrawals by asset. -/
structure Transfers where
  deposits : Dictionary (List Deposit) := .empty
  withdrawals : Dictionary (List Withdrawal) := .empty
  deriving DecidableEq

namespace Transfers

def fields : List (RecordField Transfers) :=
  [.of "deposit" (.dictionary (.list Deposit.codec)) (·.deposits)
      fun t x => { t with deposits := x },
    .of "withdraw" (.dictionary (.list Withdrawal.codec)) (·.withdrawals)
      fun t x => { t with withdrawals := x }]

def codec : Codec Transfers := .record "AssetTransactions" fields {}

end Transfers
end ExchangeClient
