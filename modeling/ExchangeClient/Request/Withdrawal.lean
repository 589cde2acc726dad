import ExchangeClient.Decimal.Canonical
import ExchangeClient.Form
import ExchangeClient.RequestError

/-!
# Withdrawals to be made
-/

namespace ExchangeClient

structure WithdrawRequest where
  /-- The exchange repeats it in its callback, so a request is not paid out twice. -/
  requestId : String := ""
  asset : String := ""
  network : String := ""
  address : String := ""
  memo : String := ""
  amount : Decimal := .zero
  deriving DecidableEq

namespace WithdrawRequest

def check (r : WithdrawRequest) : Except RequestError Unit :=
  if r.requestId.isEmpty then .error .invalidRequestId
  else if r.asset.isEmpty then .error .invalidAsset
  else if r.address.isEmpty then .error .walletAddress
  else if !r.amount.isPositive then .error .invalidAmount
  else .ok ()

def form (r : WithdrawRequest) : Form.Params :=
  .ofList
    [("request_id", r.requestId), ("asset", r.asset), ("network", r.network),
      ("address", r.address), ("memo", r.memo), ("amount", r.amount.text)]

def pack (r : WithdrawRequest) : Except RequestError Form.Params := do
  r.check
  pure r.form

end WithdrawRequest
end ExchangeClient
