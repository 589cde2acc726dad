import ExchangeClient.Account.TradeResult
import ExchangeClient.Account.Transfers
import ExchangeClient.Proofs.Json.RecordCodecs

/-!
# The documents of an account are read back

Orders, trades, users and transfers come back with nothing but their amounts
changed. The holdings of a user stand among the user's own members, where they
are set aside while the other members are read.
-/

namespace ExchangeClient

open Json

variable {d : ℕ}

namespace Order

/-- Changes the amounts and nothing else. -/
def mapDecimals (f : Decimal → Decimal) (o : Order) : Order :=
  { o with
    price := f o.price
    amountBase := f o.amountBase
    remainBase := f o.remainBase
    filledBase := f o.filledBase
    amountCoin := f o.amountCoin
    remainCoin := f o.remainCoin
    filledCoin := f o.filledCoin }

theorem codec_restores : codec.Restores (d + 1) (mapDecimals .reread) := by
  refine .record ⟨by decide, ?_, .cons (.needed .int64) <|
    .cons (.optional .side .enumeration .refl) <| .cons (.optional .method .enumeration .refl) <|
    .cons (.of .int64) <| .cons (.count .refl) <| .cons (.label .refl) <| .cons (.amount .refl) <|
    .cons (.amount .refl) <| .cons (.amount .refl) <| .cons (.amount .refl) <|
    .cons (.amount .refl) <| .cons (.amount .refl) <| .cons (.amount .refl) .nil⟩ ?_
  · simp
  · intro o
    simp [mapDecimals]

end Order

namespace Trade

def mapDecimals (f : Decimal → Decimal) (t : Trade) : Trade :=
  { t with
    price := f t.price
    fee := f t.fee
    baseAmount := f t.baseAmount
    baseRemain := f t.baseRemain
    baseFilled := f t.baseFilled
    coinAmount := f t.coinAmount
    coinRemain := f t.coinRemain
    coinFilled := f t.coinFilled }

theorem codec_restores : codec.Restores (d + 1) (mapDecimals .reread) := by
  refine .record ⟨by decide, ?_, .cons (.count .refl) <| .cons (.label .refl) <|
    .cons (.optional .side .enumeration .refl) <| .cons (.optional .method .enumeration .refl) <|
    .cons (.label .refl) <| .cons (.amount .refl) <| .cons (.amount .refl) <|
    .cons (.label .refl) <| .cons (.amount .refl) <| .cons (.amount .refl) <|
    .cons (.amount .refl) <| .cons (.label .refl) <| .cons (.amount .refl) <|
    .cons (.amount .refl) <| .cons (.amount .refl) <| .cons (.of .int64) <|
    .cons (.count .refl) .nil⟩ ?_
  · simp
  · intro t
    simp [mapDecimals]

end Trade

namespace Fill

def mapDecimals (f : Decimal → Decimal) (x : Fill) : Fill :=
  { x with amount := f x.amount, amountCoin := f x.amountCoin, price := f x.price }

theorem codec_restores : codec.Restores (d + 1) (mapDecimals .reread) := by
  refine .record ⟨by decide, ?_, .cons (.needed .int64) <| .cons (.of .int64) <|
    .cons (.of .decimal) <| .cons (.of .decimal) <| .cons (.of .decimal) .nil⟩ ?_
  · simp
  · intro x
    simp [mapDecimals]

end Fill

/-! ## Users -/

namespace Holdings

def mapDecimals (f : Decimal → Decimal) (h : Holdings) : Holdings :=
  ⟨h.balances.mapValues f, h.frozen.mapValues f⟩

theorem codec_restores : codec.Restores (d + 2) (mapDecimals .reread) := by
  refine .record ⟨by decide, ?_, .cons (.sparse (.dictionary .decimal) .refl) <|
    .cons (.sparse (.dictionary .decimal) .refl) .nil⟩ ?_
  · simp
  · intro h
    simp [mapDecimals]

end Holdings

namespace Notifications

theorem codec_restores : codec.Restores (d + 1) id := by
  refine .record ⟨by decide, ?_, .cons (.of .bool) <| .cons (.of .bool) <| .cons (.of .bool) <|
    .cons (.of .bool) .nil⟩ ?_
  · simp
  · intro n
    simp

end Notifications

namespace User

def mapDecimals (f : Decimal → Decimal) (u : User) : User :=
  { u with holdings := u.holdings.mapDecimals f }

theorem draftField_restores {f : RecordField User} {update : User → User → User}
    (restores : RecordField.Restores d f update) :
    RecordField.Restores d (draftField f)
      fun (s t : Draft) => { t with user := update s.user t.user } where
  fits s v written := restores.fits s.user v written
  reads s v w written reordered := by
    have hread := restores.reads s.user v w written reordered
    simp [draftField, hread, Except.map]
  omitted s written := by
    obtain ⟨hoptional, hsame⟩ := restores.omitted s.user written
    constructor
    · exact hoptional
    · funext t
      simp [hsame]

/-- The fields besides the holdings come back as they were. -/
theorem drafts_restored : ∃ updates,
    Record.Restores (d + 1) (fields.map draftField) updates ∧
      ∀ u, Record.restored updates ⟨u, []⟩ ⟨{}, []⟩ = ⟨{ u with holdings := {} }, []⟩ := by
  refine ⟨_, ⟨by decide, ?_,
    .cons (draftField_restores (.optional Notifications.codec_restores .record .refl)) <|
    .cons (draftField_restores (.sparse (.dictionary .string) .refl)) <|
    .cons (draftField_restores (.of .string)) <| .cons (draftField_restores (.of .string)) <|
    .cons (draftField_restores (.of .int64)) .nil⟩, ?_⟩
  · simp
  · intro u
    simp

/-! ### Own members and others -/

/-- Whether a member of a user is one of the user's own fields. -/
def isOwn (m : String × Value) : Bool :=
  ((fields.map draftField).find? (RecordField.isCalled m.1)).isSome

/-- The user's own fields are read as if the other members were not there, and these are kept in
their order. -/
theorem readMembers_filter {members : List (String × Value)}
    (readable : ∀ m ∈ members, ∃ w, Value.ofDocument m.2.toDocument = .ok w) (seen : List String)
    (t : Draft) :
    Record.readMembers (fields.map draftField) keep none seen t (Value.toMembers members) =
      (Record.readMembers (fields.map draftField) keep none seen ⟨t.user, []⟩
        (Value.toMembers (members.filter isOwn))).map fun r =>
          ⟨r.user, (Value.toMembers (members.filter fun m => !isOwn m)).reverse ++ t.others⟩ := by
  induction members generalizing seen t with
  | nil =>
    simp only [Value.toMembers, Record.readMembers, List.filter_nil]
    cases Record.missing? (fields.map draftField) seen <;> rfl
  | cons m members ih =>
    have hrest := ih fun u hu => readable u (List.mem_cons_of_mem m hu)
    cases hfound : (fields.map draftField).find? (RecordField.isCalled m.1) with
    | none =>
      have hforeign : isOwn m = false := by simp [isOwn, hfound]
      obtain ⟨w, hw⟩ := readable m List.mem_cons_self
      simp [Value.toMembers, Record.readMembers, Key.name, hfound, keep, hw, hforeign, hrest]
    | some f =>
      have hown : isOwn m = true := by simp [isOwn, hfound]
      obtain ⟨g, -, rfl⟩ := List.mem_map.1 (List.mem_of_find?_eq_some hfound)
      simp only [Value.toMembers, Record.readMembers, Key.name, hfound, List.filter_cons, hown,
        if_true]
      split
      · rfl
      · cases hread : g.read m.2.toDocument with
        | error e => simp [draftField, hread, Except.map]
        | ok update => simp [draftField, hread, Except.map, hrest]

theorem codec_encode (u : User) : codec.encode u =
    .object (Record.members Holdings.fields u.holdings ++ Record.members fields u) := rfl

theorem members_drafts (u : User) :
    Record.members (fields.map draftField) ⟨u, []⟩ = Record.members fields u := by
  rw [Record.members, List.filterMap_map]
  rfl

theorem isOwn_held (u : User) : ∀ m ∈ Record.members Holdings.fields u.holdings,
    isOwn m = false := by
  have hnames : ∀ name ∈ Holdings.fields.map (·.name), ∀ f ∈ fields.map draftField,
      f.isCalled name = false := by decide
  intro m hm
  have hname := (Record.names_sublist Holdings.fields u.holdings).subset (List.mem_map_of_mem hm)
  simpa [isOwn] using hnames m.1 hname

theorem isOwn_own (u : User) : ∀ m ∈ Record.members fields u, isOwn m = true := by
  have hnames : ∀ name ∈ fields.map (·.name),
      ((fields.map draftField).find? (RecordField.isCalled name)).isSome = true := by decide
  intro m hm
  exact hnames m.1 ((Record.names_sublist fields u).subset (List.mem_map_of_mem hm))

/-- The members of a user fall into the user's own ones and those of the holdings. -/
theorem filter_encoded (u : User) :
    (Record.members Holdings.fields u.holdings ++ Record.members fields u).filter isOwn =
      Record.members fields u ∧
    ((Record.members Holdings.fields u.holdings ++ Record.members fields u).filter
      fun m => !isOwn m) = Record.members Holdings.fields u.holdings := by
  have hheld := isOwn_held u
  have hown := isOwn_own u
  constructor
  · rw [List.filter_append, List.filter_eq_nil_iff.2 (by simpa using hheld),
      List.filter_eq_self.2 hown, List.nil_append]
  · rw [List.filter_append, List.filter_eq_self.2 (by simpa using hheld),
      List.filter_eq_nil_iff.2 (by simpa using hown), List.append_nil]

theorem encode_fits (u : User) : (codec.encode u).Fits (d + 2) := by
  obtain ⟨updates, hdrafts, -⟩ := drafts_restored (d := d)
  apply Value.Fits.object
  intro m hm
  rcases List.mem_append.1 hm with hm | hm
  · cases Holdings.codec_restores.fits (d := d + 2) u.holdings with
    | object fit => exact fit m hm
  · exact Record.fits_of_mem_members hdrafts.each (s := ⟨u, []⟩) (members_drafts u ▸ hm)

theorem codec_restores : codec.Restores (d + 2) (mapDecimals .reread) where
  fits := encode_fits
  reads u v reordered := by
    obtain ⟨updates, hdrafts, hrestored⟩ := drafts_restored (d := d)
    have hfits := (encode_fits (d := d) u).reordered reordered
    rw [codec_encode] at reordered
    obtain ⟨same, members', rfl, hperm, heach⟩ := reordered.of_object
    have hreadable : ∀ m ∈ members', ∃ w, Value.ofDocument m.2.toDocument = .ok w := by
      cases hfits with
      | object fit => exact fun m hm => (fit m hm).ofDocument_toDocument
    -- names decide which members are the user's own, so both parts are reordered by themselves
    have hparts : ∀ p : String × Value → Bool, (∀ m m', m.1 = m'.1 → p m = p m') →
        List.Forall₂ Value.MemberReordered ((Record.members Holdings.fields u.holdings ++
          Record.members fields u).filter p) (same.filter p) := by
      intro p named
      apply List.rel_filter _ heach
      intro m m' related
      have hsame := named m m' related.1
      exact Bool.eq_iff_iff.1 hsame
    have hown := hparts isOwn fun m m' named => by rw [isOwn, isOwn, named]
    have hheld := hparts (fun m => !isOwn m) fun m m' named => by rw [isOwn, isOwn, named]
    rw [(filter_encoded u).1, ← members_drafts] at hown
    rw [(filter_encoded u).2] at hheld
    have hread := Record.readMembers_reordered hdrafts hown (hperm.filter isOwn) keep ⟨{}, []⟩
    have hholdings : Holdings.codec.decode
        (.object (Value.toMembers (members'.filter fun m => !isOwn m)) none) =
        .ok (u.holdings.mapDecimals .reread) :=
      (Holdings.codec_restores (d := d)).reads u.holdings (.object _)
        ⟨_, Value.membersReordered_iff.2 hheld, hperm.filter _⟩
    have hparted := readMembers_filter hreadable [] ⟨{}, []⟩
    rw [hread, hrestored] at hparted
    simp only [Except.map, List.append_nil] at hparted
    simp only [codec, Value.toDocument, decode, hparted, hholdings, bind, Except.bind, pure,
      Except.pure, List.reverse_reverse, mapDecimals]

end User

/-! ## Answers and transfers -/

namespace TradeResult

def mapDecimals (f : Decimal → Decimal) (r : TradeResult) : TradeResult :=
  ⟨r.order.map (Order.mapDecimals f), r.user.mapDecimals f, r.deals.map (Fill.mapDecimals f)⟩

theorem codec_restores : codec.Restores (d + 3) (mapDecimals .reread) := by
  refine .record ⟨by decide, ?_, .cons (.of (.option Order.codec_restores .record)) <|
    .cons (.of User.codec_restores) <| .cons (.sparse (.list Fill.codec_restores) .refl) .nil⟩ ?_
  · simp
  · intro r
    simp [mapDecimals]

end TradeResult

namespace Withdrawal

def mapDecimals (f : Decimal → Decimal) (w : Withdrawal) : Withdrawal :=
  { w with amount := f w.amount, fee := f w.fee, finalAmount := f w.finalAmount }

theorem codec_restores : codec.Restores (d + 1) (mapDecimals .reread) := by
  refine .record ⟨by decide, ?_, .cons (.amount .refl) <| .cons (.amount .refl) <|
    .cons (.amount .refl) <| .cons (.label .refl) <| .cons (.label .refl) <| .cons (.label .refl) <|
    .cons (.label .refl) <| .cons (.label .refl) <| .cons (.label .refl) <| .cons (.label .refl) <|
    .cons (.label .refl) <| .cons (.of .int64) <| .cons (.of .int64) <| .cons (.of .int64) .nil⟩ ?_
  · simp
  · intro w
    simp [mapDecimals]

end Withdrawal

namespace Deposit

def mapDecimals (f : Decimal → Decimal) (x : Deposit) : Deposit :=
  { x with amount := f x.amount, finalAmount := f x.finalAmount }

theorem codec_restores : codec.Restores (d + 1) (mapDecimals .reread) := by
  refine .record ⟨by decide, ?_, .cons (.of .decimal) <| .cons (.of .decimal) <|
    .cons (.label .refl) <| .cons (.of .string) <| .cons (.of .int64) <| .cons (.of .int64) .nil⟩ ?_
  · simp
  · intro x
    simp [mapDecimals]

end Deposit

namespace Transfers

def mapDecimals (f : Decimal → Decimal) (t : Transfers) : Transfers :=
  ⟨t.deposits.mapValues (List.map (Deposit.mapDecimals f)),
    t.withdrawals.mapValues (List.map (Withdrawal.mapDecimals f))⟩

theorem codec_restores : codec.Restores (d + 4) (mapDecimals .reread) := by
  refine .record ⟨by decide, ?_, .cons (.of (.dictionary (.list Deposit.codec_restores))) <|
    .cons (.of (.dictionary (.list Withdrawal.codec_restores))) .nil⟩ ?_
  · simp
  · intro t
    simp [mapDecimals]

end Transfers

end ExchangeClient
