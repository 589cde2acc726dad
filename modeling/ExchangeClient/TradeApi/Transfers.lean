import ExchangeClient.TradeApi.Lenient

/-!
# Deposits and withdrawals of the trade API

All contents are kept as the texts they come as.
-/

namespace ExchangeClient.TradeApi

open Json

/-- A member that is kept as a text. -/
def textField {σ : Type} (name : String) (get : σ → String) (set : σ → String → σ) :
    RecordField σ :=
  .of name textCodec get set

structure Deposit where
  depositId : String := ""
  status : String := ""
  asset : String := ""
  amount : String := ""
  finalAmount : String := ""
  successTime : String := ""
  deriving DecidableEq

namespace Deposit

def fields : List (RecordField Deposit) :=
  [textField "deposit_id" (·.depositId) fun d x => { d with depositId := x },
    textField "status" (·.status) fun d x => { d with status := x },
    textField "asset" (·.asset) fun d x => { d with asset := x },
    textField "amount" (·.amount) fun d x => { d with amount := x },
    textField "final_amount" (·.finalAmount) fun d x => { d with finalAmount := x },
    textField "success_time" (·.successTime) fun d x => { d with successTime := x }]

def codec : Codec Deposit := .record "LegacyDeposit" fields {}

end Deposit

structure Withdrawal where
  withdrawId : String := ""
  status : String := ""
  asset : String := ""
  amount : String := ""
  fee : String := ""
  finalAmount : String := ""
  submitTime : String := ""
  successTime : String := ""
  deriving DecidableEq

namespace Withdrawal

def fields : List (RecordField Withdrawal) :=
  [textField "withdraw_id" (·.withdrawId) fun w x => { w with withdrawId := x },
    textField "status" (·.status) fun w x => { w with status := x },
    textField "asset" (·.asset) fun w x => { w with asset := x },
    textField "amount" (·.amount) fun w x => { w with amount := x },
    textField "fee" (·.fee) fun w x => { w with fee := x },
    textField "final_amount" (·.finalAmount) fun w x => { w with finalAmount := x },
    textField "submit_time" (·.submitTime) fun w x => { w with submitTime := x },
    textField "success_time" (·.successTime) fun w x => { w with successTime := x }]

def codec : Codec Withdrawal := .record "LegacyWithdraw" fields {}

end Withdrawal

/-- Deposits and withdrawals by asset. -/
structure Transfers where
  deposits : Dictionary (List Deposit) := .empty
  withdrawals : Dictionary (List Withdrawal) := .empty
  deriving DecidableEq

namespace Transfers

def fields : List (RecordField Transfers) :=
  [.of "deposit" (.dictionary (.list Deposit.codec)) (·.deposits)
      fun t x => { t with deposits := x },
    .of "withdraw" (.dictionary (.list Withdrawal.codec)) (·.withdrawals)
      fun t x => { t with withdrawals := x }]

def codec : Codec Transfers := .record "LegacyTransactionHistory" fields {}

end Transfers

/-- The answer to a withdrawal; it is its own envelope. -/
structure WithdrawReply where
  success : Int64 := 0
  error : String := ""
  errorCode : String := ""
  id : String := ""
  txid : String := ""
  status : String := ""
  currency : String := ""
  address : String := ""
  amount : String := ""
  fee : String := ""
  amountAfterFee : String := ""
  submitTime : String := ""
  memo : String := ""
  deriving DecidableEq

namespace WithdrawReply

def fields : List (RecordField WithdrawReply) :=
  [.of "success" intCodec (·.success) fun r x => { r with success := x },
    textField "error" (·.error) fun r x => { r with error := x },
    textField "error_code" (·.errorCode) fun r x => { r with errorCode := x },
    textField "withdraw_id" (·.id) fun r x => { r with id := x },
    textField "txid" (·.txid) fun r x => { r with txid := x },
    textField "status" (·.status) fun r x => { r with status := x },
    textField "withdraw_currency" (·.currency) fun r x => { r with currency := x },
    textField "withdraw_address" (·.address) fun r x => { r with address := x },
    textField "withdraw_amount" (·.amount) fun r x => { r with amount := x },
    textField "fee" (·.fee) fun r x => { r with fee := x },
    textField "amount_after_fee" (·.amountAfterFee) fun r x => { r with amountAfterFee := x },
    textField "submit_time" (·.submitTime) fun r x => { r with submitTime := x },
    textField "withdraw_memo" (·.memo) fun r x => { r with memo := x }]

def codec : Codec WithdrawReply := .record "LegacyWithdrawResponse" fields {}

end WithdrawReply
end ExchangeClient.TradeApi
