import ExchangeClient.Account.Order
import ExchangeClient.Account.TradeResult
import ExchangeClient.Account.Transfers
import ExchangeClient.Account.User
import ExchangeClient.Base64
import ExchangeClient.Binary64.Basic
import ExchangeClient.Binary64.Shortest
import ExchangeClient.Binary64.Text
import ExchangeClient.Channel.Connection
import ExchangeClient.Channel.Feed
import ExchangeClient.Channel.Frame
import ExchangeClient.Channel.Handshake
import ExchangeClient.Channel.Params
import ExchangeClient.Channel.Private
import ExchangeClient.Channel.Public
import ExchangeClient.Channel.RequestTable
import ExchangeClient.Channel.Session
import ExchangeClient.ClientError
import ExchangeClient.CommandLine.Arguments
import ExchangeClient.CommandLine.Command
import ExchangeClient.CommandLine.Report
import ExchangeClient.CommandLine.Run
import ExchangeClient.Conversation
import ExchangeClient.Decimal.Arithmetic
import ExchangeClient.Decimal.Basic
import ExchangeClient.Decimal.Binary
import ExchangeClient.Decimal.Canonical
import ExchangeClient.Decimal.Numeral
import ExchangeClient.Dictionary
import ExchangeClient.Digest.Hmac
import ExchangeClient.Digest.Sha512
import ExchangeClient.Digits
import ExchangeClient.Form
import ExchangeClient.Http
import ExchangeClient.Http.Wire
import ExchangeClient.Json.Codec
import ExchangeClient.Json.Document
import ExchangeClient.Json.Error
import ExchangeClient.Json.Lookup
import ExchangeClient.Json.Number
import ExchangeClient.Json.Record
import ExchangeClient.Json.Token
import ExchangeClient.Json.Value
import ExchangeClient.Main
import ExchangeClient.Market.Book
import ExchangeClient.Market.Quotes
import ExchangeClient.Request.Listing
import ExchangeClient.Request.Trade
import ExchangeClient.Request.Withdrawal
import ExchangeClient.RequestError
import ExchangeClient.RestApi.Envelope
import ExchangeClient.RestApi.Operation
import ExchangeClient.Rounding
import ExchangeClient.Settings.Basic
import ExchangeClient.Settings.Braces
import ExchangeClient.Settings.Error
import ExchangeClient.Settings.File
import ExchangeClient.Settings.Found
import ExchangeClient.Settings.Ini
import ExchangeClient.Settings.Load
import ExchangeClient.Settings.Yaml
import ExchangeClient.Signing
import ExchangeClient.Text.Blank
import ExchangeClient.Text.CaseTable
import ExchangeClient.Text.Lowercase
import ExchangeClient.Text.PrintTable
import ExchangeClient.Text.Quoted
import ExchangeClient.Text.Range
import ExchangeClient.Text.Utf8
import ExchangeClient.Toml.Document
import ExchangeClient.Toml.Scalar
import ExchangeClient.Toml.Tables
import ExchangeClient.Toml.Text
import ExchangeClient.TradeApi.Account
import ExchangeClient.TradeApi.Envelope
import ExchangeClient.TradeApi.Lenient
import ExchangeClient.TradeApi.Market
import ExchangeClient.TradeApi.Operation
import ExchangeClient.TradeApi.Transfers
import ExchangeClient.Trading.Assets
import ExchangeClient.Trading.Pair
import ExchangeClient.Trading.Terms
import ExchangeClient.Url.Address
import ExchangeClient.Url.Domain
import ExchangeClient.Url.Host
import ExchangeClient.Url.Ip
import ExchangeClient.Url.Path
import ExchangeClient.Url.Percent
import ExchangeClient.Url.Punycode
import ExchangeClient.Proofs.Channel.Numbering
import ExchangeClient.Proofs.Channel.Mailboxes
import ExchangeClient.Proofs.Channel.Verdicts
import ExchangeClient.Proofs.Channel.Calls
import ExchangeClient.Proofs.Channel.Writing
import ExchangeClient.Proofs.Form.Escapes
import ExchangeClient.Proofs.Dictionary
import ExchangeClient.Proofs.Form.Reading
import ExchangeClient.Proofs.Form.Queries
import ExchangeClient.Proofs.Signing.Payload
import ExchangeClient.Proofs.Conversation
import ExchangeClient.Proofs.Signing.Requests
import ExchangeClient.Proofs.Signing.Traffic
import ExchangeClient.Proofs.Digits
import ExchangeClient.Proofs.Rounding
import ExchangeClient.Proofs.Decimal.Value
import ExchangeClient.Proofs.Decimal.Notation
import ExchangeClient.Proofs.Decimal.Rendering
import ExchangeClient.Proofs.Binary64.Units
import ExchangeClient.Proofs.Binary64.Nearest
import ExchangeClient.Proofs.Binary64.Grid
import ExchangeClient.Proofs.Binary64.Shortest
import ExchangeClient.Proofs.Binary64.Arithmetic
import ExchangeClient.Proofs.Decimal.Reading
import ExchangeClient.Proofs.Binary64.Positional
import ExchangeClient.Proofs.Decimal.Doubles
import ExchangeClient.Proofs.Decimal.Uniqueness
import ExchangeClient.Proofs.Json.Strings
import ExchangeClient.Proofs.Json.Values
import ExchangeClient.Proofs.Decimal.RoundTrip
import ExchangeClient.Proofs.Decimal.Conversion
import ExchangeClient.Proofs.Decimal.Idempotence
import ExchangeClient.Proofs.Json.Records
import ExchangeClient.Proofs.Request.Amounts
import ExchangeClient.Proofs.TradeApi.Constraints
import ExchangeClient.Proofs.Request.Fitness
import ExchangeClient.Proofs.Sending
import ExchangeClient.Proofs.Text.ByteOrder
import ExchangeClient.Proofs.Form.Canonical
import ExchangeClient.Proofs.Json.Numbers
import ExchangeClient.Proofs.Json.Notation
import ExchangeClient.Proofs.Json.Codecs
import ExchangeClient.Proofs.Json.RecordCodecs
import ExchangeClient.Proofs.Account.Documents
import ExchangeClient.Proofs.Market.Documents
import ExchangeClient.Proofs.TradeApi.Documents
import ExchangeClient.Proofs.Models
import ExchangeClient.Proofs.Base64
import ExchangeClient.Proofs.Channel.Frames
import ExchangeClient.Proofs.Channel.Subscriptions
import ExchangeClient.Proofs.TradeApi.Placements
import ExchangeClient.Proofs.Json.Members
import ExchangeClient.Proofs.TradeApi.Rejections
import ExchangeClient.Proofs.Channel.Wording
import ExchangeClient.Proofs.Channel.Agreement
import ExchangeClient.Proofs.Results
import ExchangeClient.Proofs.TradeApi.Attribution
import ExchangeClient.Proofs.Channel.Events
import ExchangeClient.Proofs.Decimal.Grammar
import ExchangeClient.Proofs.Decimal.Numerals
import ExchangeClient.Proofs.Decimal.Exponents
import ExchangeClient.Proofs.Decimal.Printed
import ExchangeClient.Proofs.Json.Reals
import ExchangeClient.Proofs.Json.Literals
import ExchangeClient.Proofs.Decimal.Operations
import ExchangeClient.Proofs.BadStatus
import ExchangeClient.Proofs.Settings.Adjustments
import ExchangeClient.Proofs.Settings.Credentials
import ExchangeClient.Proofs.Json.Fields
import ExchangeClient.Proofs.Json.Held
import ExchangeClient.Proofs.TradeApi.WholeNumbers
import ExchangeClient.Proofs.TradeApi.OpenOrders
import ExchangeClient.Proofs.Request.Renderings
import ExchangeClient.Proofs.Binary64.Scientific
import ExchangeClient.Proofs.Decimal.Acceptance
import ExchangeClient.Proofs.Text.Trimming
import ExchangeClient.Proofs.Text.Lowering
import ExchangeClient.Proofs.Trading.Pairs
import ExchangeClient.Proofs.TradeApi.Members
import ExchangeClient.Proofs.TradeApi.Volumes
import ExchangeClient.Proofs.TradeApi.Fills
import ExchangeClient.Proofs.Json.Settling
import ExchangeClient.Proofs.TradeApi.Rereading
import ExchangeClient.Proofs.TradeApi.AssetModels
import ExchangeClient.Proofs.Market.Levels
import ExchangeClient.Proofs.TradeApi.FrozenBalances
