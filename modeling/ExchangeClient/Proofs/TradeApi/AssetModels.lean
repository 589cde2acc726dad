import ExchangeClient.Proofs.TradeApi.Rereading
import ExchangeClient.TradeApi.Market

/-!
# Records with members named after assets

The trade API names members after assets, and records that were read from such
members are written with fields of their own. The names of these fields are read
as names of members again: a field `receive_asset` is taken for the amount that
was received of an asset called `asset`, and a field `volumes` for nothing. So
only the records that keep their assets in a member of its own come back.
-/

namespace ExchangeClient.TradeApi

open Json

/-! ## Amounts -/

namespace Ticker

def mapDecimals (f : Decimal → Decimal) (t : Ticker) : Ticker :=
  { name := t.name, high := f t.high, low := f t.low, last := f t.last, buy := f t.buy,
    sell := f t.sell, volumes := t.volumes.mapValues f }

end Ticker

namespace AccountInfo

def mapDecimals (f : Decimal → Decimal) (a : AccountInfo) : AccountInfo :=
  { a with balance := a.balance.mapValues f, balanceHold := a.balanceHold.mapValues f }

end AccountInfo

namespace Placement

def mapDecimals (f : Decimal → Decimal) (p : Placement) : Placement :=
  { p with
    receive := f p.receive, filled := f p.filled, remain := f p.remain
    balances := p.balances.mapValues f }

end Placement

namespace Cancellation

def mapDecimals (f : Decimal → Decimal) (c : Cancellation) : Cancellation :=
  { c with balance := c.balance.mapValues f }

end Cancellation

namespace Order

def mapDecimals (f : Decimal → Decimal) (o : Order) : Order :=
  { o with price := f o.price, orderAmount := f o.orderAmount, remain := f o.remain }

end Order

namespace Fill

def mapDecimals (f : Decimal → Decimal) (x : Fill) : Fill :=
  { x with
    amount := f x.amount, baseCurrencyPrice := f x.baseCurrencyPrice, price := f x.price }

end Fill

/-- The records whose members are named after assets. -/
inductive AssetModel : Type → Type
  | ticker : AssetModel Ticker
  | accountInfo : AssetModel AccountInfo
  | placement : AssetModel Placement
  | cancellation : AssetModel Cancellation
  | order : AssetModel Order
  | fill : AssetModel Fill

namespace AssetModel

variable {α : Type}

def codec : AssetModel α → Codec α
  | ticker => Ticker.codec
  | accountInfo => AccountInfo.codec
  | placement => Placement.codec
  | cancellation => Cancellation.codec
  | order => Order.codec
  | fill => Fill.codec

/-- Changes all amounts in a value and nothing else. -/
def mapDecimals (f : Decimal → Decimal) : AssetModel α → α → α
  | ticker => Ticker.mapDecimals f
  | accountInfo => AccountInfo.mapDecimals f
  | placement => Placement.mapDecimals f
  | cancellation => Cancellation.mapDecimals f
  | order => Order.mapDecimals f
  | fill => Fill.mapDecimals f

/-- What comes of a record that was written and is read again. -/
def readBack : AssetModel α → α → Except ContentError α
  | ticker, t => .ok { t.mapDecimals .reread with volumes := .empty }
  | accountInfo, a => .ok (a.mapDecimals .reread)
  | placement, p => do
    let receive ← lenientDecimal "receive_asset" (.string p.receiveAsset)
    let remain ← lenientDecimal "remain_asset" (.string p.remainAsset)
    pure { orderId := p.orderId, receiveAsset := "asset", receive := receive,
           remainAsset := "asset", remain := remain }
  | cancellation, c => .ok (c.mapDecimals .reread)
  | order, o => do
    let amount ← lenientDecimal "order_asset" (.string o.orderAsset)
    let remain ← lenientDecimal "remain_asset" (.string o.remainAsset)
    pure { o.mapDecimals .reread with
           orderAsset := "asset", orderAmount := amount, remainAsset := "asset", remain := remain }
  | fill, f => do
    let amount ← lenientDecimal "asset" (.string f.asset)
    pure { f.mapDecimals .reread with asset := "asset", amount := amount }

/-- The records that come back. -/
def Survives : AssetModel α → α → Prop
  | ticker, t => t.volumes = .empty
  | accountInfo, _ | cancellation, _ => True
  | placement, _ | order, _ | fill, _ => False

/-! ## Taking members one by one -/

def take : AssetModel α → α → String → Value → Except ContentError α
  | ticker => Ticker.take
  | accountInfo => AccountInfo.take
  | placement => Placement.take
  | cancellation => Cancellation.take
  | order => Order.take
  | fill => Fill.take

def initial : AssetModel α → α
  | ticker => {}
  | accountInfo => {}
  | placement => {}
  | cancellation => {}
  | order => {}
  | fill => {}

theorem codec_eq (m : AssetModel α) : m.codec = objectCodec m.take m.initial m.codec.encode := by
  cases m <;> rfl

/-- What is known of a record that was read. -/
def IsRead : AssetModel α → α → Prop
  | accountInfo, a => a.IsRead
  | cancellation, c => Lowered c.balance
  | _, _ => True

theorem isRead_of_take (m : AssetModel α) {s t : α} {name : String} {v : Value}
    (before : m.IsRead s) (taken : m.take s name v = .ok t) : m.IsRead t := by
  cases m with
  | accountInfo => exact AccountInfo.isRead_of_take before taken
  | cancellation => exact Cancellation.lowered_of_take before taken
  | ticker | placement | order | fill => trivial

theorem isRead_initial (m : AssetModel α) : m.IsRead m.initial := by
  cases m with
  | accountInfo => exact ⟨lowered_empty, fun _ he => absurd he List.not_mem_nil, lowered_empty,
      lowered_empty⟩
  | cancellation => exact lowered_empty
  | ticker | placement | order | fill => trivial

theorem isRead_of_decode {m : AssetModel α} {d : Document} {v : α}
    (read : m.codec.decode d = .ok v) : m.IsRead v := by
  rw [codec_eq] at read
  obtain ⟨members, -, hfold⟩ := object_of_objectCodec read
  exact foldMembers_invariant m.isRead_of_take m.isRead_initial hfold

/-! ## What is written -/

/-- What the members of these records are written as. -/
inductive Written : Value → Prop where
  | string (s : String) : Written (.string s)
  | int (i : Int64) : Written (Codec.int64.encode i)
  | decimal (a : Decimal) : Written (Codec.decimal.encode a)
  | texts (d : Dictionary String) : Written ((Codec.dictionary .string).encode d)
  | decimals (d : Dictionary Decimal) : Written ((Codec.dictionary .decimal).encode d)

theorem Written.fits {v : Value} (written : Written v) (depth : ℕ) : v.Fits (depth + 1) := by
  cases written with
  | string s => exact .string s
  | int i => exact Codec.Restores.int64.fits i
  | decimal a => exact .string a.text
  | texts d => exact (Codec.Restores.dictionary .string).fits d
  | decimals d => exact (Codec.Restores.dictionary .decimal).fits d

theorem Written.settles {v : Value} (written : Written v) : v.Settles v := by
  cases written with
  | string s => exact Value.settles_scalar trivial
  | int i => exact Value.settles_scalar trivial
  | decimal a => exact Value.settles_scalar trivial
  | texts d =>
    refine Value.settles_dictionary (m := d.mapValues .string) fun e he => ?_
    obtain ⟨x, -, rfl⟩ := List.mem_map.1 he
    exact Value.settles_scalar trivial
  | decimals d =>
    refine Value.settles_dictionary (m := d.mapValues fun a => .string a.text) fun e he => ?_
    obtain ⟨x, -, rfl⟩ := List.mem_map.1 he
    exact Value.settles_scalar trivial

/-- The members of a written record. -/
def rows (m : AssetModel α) (v : α) : List (String × Value) :=
  match m.codec.encode v with
  | .object members => members
  | _ => []

theorem encode_eq (m : AssetModel α) (v : α) : m.codec.encode v = .object (m.rows v) := by
  cases m <;> rfl

/-- The names of the fields. -/
def names : AssetModel α → List String
  | ticker => ["name", "high", "low", "last", "buy", "sell", "volumes"]
  | accountInfo => ["user_id", "name", "email", "address", "balance", "balance_hold"]
  | placement => ["order_id", "receive_asset", "receive", "filled_asset", "filled", "remain_asset",
      "remain", "balances"]
  | cancellation => ["order_id", "type", "pair", "balance"]
  | order => ["pair", "order_id", "type", "price", "submit_time", "finish_time", "method", "status",
      "order_asset", "order_amount", "remain_asset", "remain"]
  | fill => ["trade_id", "order_id", "type", "asset", "amount", "base_currency",
      "base_currency_price", "price", "trade_time", "trade_time_print"]

theorem names_rows (m : AssetModel α) (v : α) : (m.rows v).map (·.1) = m.names := by
  cases m <;> rfl

theorem names_nodup (m : AssetModel α) : m.names.Nodup := by
  cases m <;> decide

theorem names_lowered (m : AssetModel α) : ∀ name ∈ m.names, Text.lower name = name := by
  cases m <;> decide +kernel

theorem written_of_mem (m : AssetModel α) (v : α) : ∀ e ∈ m.rows v, Written e.2 := by
  cases m with
  | ticker | accountInfo | placement | cancellation | order | fill =>
    simp only [rows, codec, objectCodec, Ticker.codec, Ticker.encode, AccountInfo.codec,
      AccountInfo.encode, Placement.codec, Placement.encode, Cancellation.codec,
      Cancellation.encode, Order.codec, Order.encode, Fill.codec, Fill.encode,
      List.forall_mem_cons, Written.string, Written.int, Written.decimal, Written.texts,
      Written.decimals, List.not_mem_nil, false_imp_iff, implies_true, and_self]

section

variable {m : AssetModel α} {v : α} {w : Value} (reordered : (m.codec.encode v).Reordered w)

include reordered

/-- A written record is read by taking its fields as members, in the order of their names. -/
theorem decode_written : m.codec.decode w.toDocument =
    ((Dictionary.ofList (m.rows v)).entries.foldlM (fun s e => m.take s e.1 e.2)
      m.initial).mapError .content := by
  have hlowered : ∀ name ∈ (Dictionary.ofList (m.rows v)).entries.map (·.1),
      Text.lower name = name := by
    intro name hname
    rw [Dictionary.mem_keys_ofList, names_rows] at hname
    exact m.names_lowered name hname
  have hsettles : (m.codec.encode v).Settles (.object (Dictionary.ofList (m.rows v)).entries) := by
    rw [encode_eq]
    refine .object (List.forall₂_same.2 fun e he => ⟨rfl, (m.written_of_mem v e he).settles⟩) ?_
    rw [names_rows]
    exact m.names_nodup
  rw [codec_eq, objectCodec_of_object (hsettles reordered), foldMembers_lowered hlowered]

theorem fits_written : w.Fits maxDepth := by
  refine Value.Fits.reordered ?_ reordered
  rw [encode_eq]
  exact .object fun e he => (m.written_of_mem v e he).fits _

end

/-! ## What is taken of the fields -/

/-- The fields in the order of their names. -/
def sorted : AssetModel α → α → List (String × Value)
  | ticker, t =>
    [("buy", Codec.decimal.encode t.buy), ("high", Codec.decimal.encode t.high),
      ("last", Codec.decimal.encode t.last), ("low", Codec.decimal.encode t.low),
      ("name", .string t.name), ("sell", Codec.decimal.encode t.sell),
      ("volumes", (Codec.dictionary .decimal).encode t.volumes)]
  | accountInfo, a =>
    [("address", (Codec.dictionary .string).encode a.addresses),
      ("balance", (Codec.dictionary .decimal).encode a.balance),
      ("balance_hold", (Codec.dictionary .decimal).encode a.balanceHold),
      ("email", .string a.email), ("name", .string a.name), ("user_id", .string a.userId)]
  | placement, p =>
    [("balances", (Codec.dictionary .decimal).encode p.balances),
      ("filled", Codec.decimal.encode p.filled), ("filled_asset", .string p.filledAsset),
      ("order_id", Codec.int64.encode p.orderId), ("receive", Codec.decimal.encode p.receive),
      ("receive_asset", .string p.receiveAsset), ("remain", Codec.decimal.encode p.remain),
      ("remain_asset", .string p.remainAsset)]
  | cancellation, c =>
    [("balance", (Codec.dictionary .decimal).encode c.balance),
      ("order_id", Codec.int64.encode c.orderId), ("pair", .string c.pair),
      ("type", .string c.side)]
  | order, o =>
    [("finish_time", Codec.int64.encode o.finishTime), ("method", .string o.method),
      ("order_amount", Codec.decimal.encode o.orderAmount), ("order_asset", .string o.orderAsset),
      ("order_id", Codec.int64.encode o.orderId), ("pair", .string o.pair),
      ("price", Codec.decimal.encode o.price), ("remain", Codec.decimal.encode o.remain),
      ("remain_asset", .string o.remainAsset), ("status", .string o.status),
      ("submit_time", Codec.int64.encode o.submitTime), ("type", .string o.side)]
  | fill, f =>
    [("amount", Codec.decimal.encode f.amount), ("asset", .string f.asset),
      ("base_currency", .string f.baseCurrency),
      ("base_currency_price", Codec.decimal.encode f.baseCurrencyPrice),
      ("order_id", Codec.int64.encode f.orderId), ("price", Codec.decimal.encode f.price),
      ("trade_id", Codec.int64.encode f.tradeId), ("trade_time", Codec.int64.encode f.tradeTime),
      ("trade_time_print", .string f.tradeTimePrint), ("type", .string f.side)]

theorem entries_rows (m : AssetModel α) (v : α) :
    (Dictionary.ofList (m.rows v)).entries = m.sorted v := by
  cases m with
  | ticker | accountInfo | placement | cancellation | order | fill =>
    simp only [rows, codec, objectCodec, Ticker.codec, Ticker.encode, AccountInfo.codec,
      AccountInfo.encode, Placement.codec, Placement.encode, Cancellation.codec,
      Cancellation.encode, Order.codec, Order.encode, Fill.codec, Fill.encode, Dictionary.ofList,
      Dictionary.insert, Entries.insert, Dictionary.empty, List.foldl_cons, List.foldl_nil,
      String.reduceLT, if_true, if_false, sorted]

theorem ticker_taken (t : Ticker) :
    (ticker.sorted t).foldlM (fun s e => Ticker.take s e.1 e.2) {} = ticker.readBack t := by
  have hvolumes : Ticker.volumeAsset? "volumes" = none := rfl
  rw [sorted, readBack]
  simp [Ticker.take, hvolumes, Ticker.mapDecimals, Codec.decimal, lenientDecimal_text, lenientText,
    Except.ok_bind]

theorem accountInfo_taken {a : AccountInfo} (isRead : a.IsRead) :
    (accountInfo.sorted a).foldlM (fun s e => AccountInfo.take s e.1 e.2) {} =
      accountInfo.readBack a := by
  have haddress : lenientMembers "address" ((Codec.dictionary .string).encode a.addresses) =
      .ok (a.addresses.entries.map fun e => (e.1, .string e.2)) := rfl
  have hadded : AccountInfo.addAddresses .empty
      (a.addresses.entries.map fun e => (e.1, .string e.2)) = a.addresses :=
    (AccountInfo.addAddresses_written isRead.addresses isRead.present .empty).trans
      (Dictionary.ofList_of_perm (.refl _))
  rw [sorted, readBack]
  simp [AccountInfo.take, haddress, hadded, AccountInfo.mapDecimals, lenientText, Except.ok_bind,
    lenientBalances_written _ isRead.balance, lenientBalances_written _ isRead.balanceHold]

theorem placement_taken (p : Placement) :
    (placement.sorted p).foldlM (fun s e => Placement.take s e.1 e.2) {} =
      placement.readBack p := by
  have hpassed : ∀ name ∈ ["balances", "filled", "filled_asset", "receive", "remain"],
      ∀ s v, Placement.takeAsset s name v = .ok s := by
    simp only [List.forall_mem_cons, List.not_mem_nil, false_imp_iff, implies_true, and_true]
    exact ⟨fun _ _ => rfl, fun _ _ => rfl, fun _ _ => rfl, fun _ _ => rfl, fun _ _ => rfl⟩
  have hreceive : ∀ s v, Placement.takeAsset s "receive_asset" v =
      (do pure { s with receiveAsset := "asset", receive := ← lenientDecimal "receive_asset" v }) :=
    fun _ _ => rfl
  have hremain : ∀ s v, Placement.takeAsset s "remain_asset" v =
      (do pure { s with remainAsset := "asset", remain := ← lenientDecimal "remain_asset" v }) :=
    fun _ _ => rfl
  rw [sorted, readBack]
  simp [-bind_pure_comp, Placement.take, hpassed, hreceive, hremain, Codec.int64, lenientInt_ofInt,
    Except.ok_bind]

theorem cancellation_taken {c : Cancellation} (lowered : Lowered c.balance) :
    (cancellation.sorted c).foldlM (fun s e => Cancellation.take s e.1 e.2) {} =
      cancellation.readBack c := by
  rw [sorted, readBack]
  simp [Cancellation.take, Cancellation.mapDecimals, Codec.int64, lenientInt_ofInt, lenientText,
    lenientBalances_written _ lowered, Except.ok_bind]

theorem order_taken (o : Order) :
    (order.sorted o).foldlM (fun s e => Order.take s e.1 e.2) {} = order.readBack o := by
  have hamount : ∀ s v, Order.takeAsset s "order_amount" v = (do
      pure { s with orderAsset := "amount", orderAmount := ← lenientDecimal "order_amount" v }) :=
    fun _ _ => rfl
  have hasset : ∀ s v, Order.takeAsset s "order_asset" v = (do
      pure { s with orderAsset := "asset", orderAmount := ← lenientDecimal "order_asset" v }) :=
    fun _ _ => rfl
  have hpassed : ∀ s v, Order.takeAsset s "remain" v = .ok s := fun _ _ => rfl
  have hremain : ∀ s v, Order.takeAsset s "remain_asset" v =
      (do pure { s with remainAsset := "asset", remain := ← lenientDecimal "remain_asset" v }) :=
    fun _ _ => rfl
  rw [sorted, readBack]
  simp [-bind_pure_comp, Order.take, hamount, hasset, hpassed, hremain, Order.mapDecimals,
    Codec.decimal, Codec.int64, lenientDecimal_text, lenientInt_ofInt, lenientText, Except.ok_bind,
    pure, Except.pure]

theorem fill_taken (f : Fill) :
    (fill.sorted f).foldlM (fun s e => Fill.take s e.1 e.2) {} = fill.readBack f := by
  rw [sorted, readBack]
  simp [-bind_pure_comp, Fill.take, Fill.mapDecimals, Codec.decimal, Codec.int64,
    lenientDecimal_text, lenientInt_ofInt, lenientText, Except.ok_bind, pure, Except.pure]

theorem rows_taken (m : AssetModel α) {v : α} (isRead : m.IsRead v) :
    (Dictionary.ofList (m.rows v)).entries.foldlM (fun s e => m.take s e.1 e.2) m.initial =
      m.readBack v := by
  rw [entries_rows]
  cases m with
  | ticker => exact ticker_taken v
  | accountInfo => exact accountInfo_taken isRead
  | placement => exact placement_taken v
  | cancellation => exact cancellation_taken isRead
  | order => exact order_taken v
  | fill => exact fill_taken v

/-- A record that was read once is read back, in whatever order its members stand. -/
theorem reread_written {m : AssetModel α} {v : α} {w : Value} (isRead : m.IsRead v)
    (reordered : (m.codec.encode v).Reordered w) :
    m.codec.readText w.text = (m.readBack v).mapError .content ∧
      m.codec.readBytes (Text.utf8 w.text) = (m.readBack v).mapError .content := by
  have hfits := fits_written reordered
  rw [m.codec.readText_written hfits, m.codec.readBytes_written hfits, decode_written reordered,
    m.rows_taken isRead]
  exact ⟨rfl, rfl⟩

/-! ## What comes back -/

/-- A text that is read as an amount is not the name that such a field seems to have. -/
theorem ne_of_lenientDecimal {key text : String} {a : Decimal}
    (read : lenientDecimal key (.string text) = .ok a) : "asset" ≠ text := by
  rintro rfl
  have htrim : Text.trim "asset" = "asset" := by decide +kernel
  have hpresent : "asset".isEmpty = false := by decide
  have hnumeral : (Decimal.parse "asset").toOption = none := by decide +kernel
  simp only [lenientDecimal, htrim, hpresent, Bool.false_eq_true, if_false] at read
  rw [Except.mapError_eq_ok.1 read] at hnumeral
  cases hnumeral

theorem readBack_of_survives {m : AssetModel α} {v : α} (survives : m.Survives v) :
    m.readBack v = .ok (m.mapDecimals .reread v) := by
  cases m with
  | ticker =>
    have hempty : v.volumes.mapValues Decimal.reread = .empty := congrArg _ survives
    rw [readBack, mapDecimals, Ticker.mapDecimals, hempty]
  | accountInfo => rfl
  | cancellation => rfl
  | placement | order | fill => exact survives.elim

/-- A record that does not survive is read as another one, if it can be read at all. -/
theorem ne_of_not_survives {m : AssetModel α} {v u : α} (lost : ¬m.Survives v)
    (read : m.readBack v = .ok u) : m.mapDecimals .reread u ≠ m.mapDecimals .reread v := by
  intro same
  cases m with
  | accountInfo | cancellation => exact lost trivial
  | ticker =>
    cases read
    have hvolumes : Dictionary.mapValues Decimal.reread .empty =
        v.volumes.mapValues Decimal.reread := congrArg Ticker.volumes same
    have hentries := List.map_eq_nil_iff.1 (congrArg Dictionary.entries hvolumes).symm
    exact lost (Dictionary.ext_entries hentries)
  | placement =>
    obtain ⟨receive, hreceive, hrest⟩ := Except.bind_eq_ok.1 read
    obtain ⟨remain, -, hu⟩ := Except.bind_eq_ok.1 hrest
    cases hu
    exact ne_of_lenientDecimal hreceive (congrArg Placement.receiveAsset same)
  | order =>
    obtain ⟨amount, hamount, hrest⟩ := Except.bind_eq_ok.1 read
    obtain ⟨remain, -, hu⟩ := Except.bind_eq_ok.1 hrest
    cases hu
    exact ne_of_lenientDecimal hamount (congrArg Order.orderAsset same)
  | fill =>
    obtain ⟨amount, hamount, hu⟩ := Except.bind_eq_ok.1 read
    cases hu
    exact ne_of_lenientDecimal hamount (congrArg Fill.asset same)

/-- What comes of a record that was read, is written and is read again, in whatever order its
members stand. Account data and cancellations come back with their amounts rounded, and so do
tickers without volumes. Every other record fails to be read or comes back as another one: a ticker
has lost its volumes, and what names an asset is read as an amount of an asset called `asset`. -/
theorem written_records_reread (m : AssetModel α) {d : Document} {v : α}
    (read : m.codec.decode d = .ok v) :
    (∀ w, (m.codec.encode v).Reordered w →
      m.codec.readText w.text = (m.readBack v).mapError .content ∧
        m.codec.readBytes (Text.utf8 w.text) = (m.readBack v).mapError .content) ∧
    (m.Survives v → m.readBack v = .ok (m.mapDecimals .reread v)) ∧
    (¬m.Survives v → ∀ u, m.readBack v = .ok u →
      m.mapDecimals .reread u ≠ m.mapDecimals .reread v) ∧
    ∀ a : Decimal, a.reread.same a.round = true := by
  refine ⟨?_, readBack_of_survives, ?_, Decimal.reread_same_round⟩
  · exact fun w reordered => reread_written (isRead_of_decode read) reordered
  · exact fun lost u => ne_of_not_survives lost

/-- Balances come back under the names they were read by. -/
theorem cancellation_comes_back :
    let d : Document := .object [(.quoted (.string "order_id"), .leaf (.string "12")),
      (.quoted (.string "balance"),
        .object [(.quoted (.string "TEN"), .leaf (.string "100.50"))] none)] none
    let rounded : Decimal := ⟨false, 1005, 1, by decide, by decide⟩
    ∃ c, Cancellation.codec.decode d = .ok c ∧ cancellation.Survives c ∧
      Cancellation.codec.readText (Cancellation.codec.write c) =
        .ok { orderId := 12, balance := .ofList [("ten", rounded)] } := by
  intro d rounded
  let c : Cancellation :=
    { orderId := 12, balance := .ofList [("ten", ⟨false, 10050, 2, by decide, by decide⟩)] }
  have hread : (Cancellation.codec.decode d).toOption = some c := by decide +kernel
  have hread := Except.toOption_eq_some.1 hread
  obtain ⟨hwritten, hkept, -⟩ := written_records_reread cancellation hread
  have htext := (hwritten _ (.refl _)).1
  rw [hkept trivial] at htext
  have hrounded : c.mapDecimals .reread =
      { orderId := 12, balance := .ofList [("ten", rounded)] } := by decide +kernel
  exact ⟨c, hread, trivial, htext.trans (congrArg _ hrounded)⟩

/-- The asset of a fill is written under a name that is taken for the asset. -/
theorem fill_unreadable :
    ¬∀ {α : Type} (m : AssetModel α) (d : Document) (v : α), m.codec.decode d = .ok v →
      ∃ u, m.codec.readText (m.codec.write v) = .ok u ∧
        m.mapDecimals .reread u = m.mapDecimals .reread v := by
  intro claimed
  let f : Fill := { asset := "ten", amount := ⟨false, 20, 0, by decide, by decide⟩ }
  have hread : (Fill.codec.decode
      (.object [(.quoted (.string "ten"), .leaf (.string "20"))] none)).toOption = some f := by
    decide +kernel
  have hunreadable : (fill.readBack f).toOption = none := by decide +kernel
  obtain ⟨u, hu, -⟩ := claimed fill _ f (Except.toOption_eq_some.1 hread)
  have hback := (reread_written (m := fill) (v := f) trivial (.refl _)).1.symm.trans hu
  cases (Except.toOption_eq_some.2 (Except.mapError_eq_ok.1 hback)).symm.trans hunreadable

end AssetModel
end ExchangeClient.TradeApi
