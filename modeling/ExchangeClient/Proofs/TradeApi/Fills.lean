import ExchangeClient.Proofs.TradeApi.Members
import ExchangeClient.TradeApi.Account
import ExchangeClient.Trading.Assets

/-!
# The traded asset of a fill

A fill names the asset that was traded by a member of its own, beside those that
every fill has. No list of assets is consulted: any other member is taken for
the traded asset, and of several the last in the order of their names. So a
member that the exchange adds is passed over only if its contents are readable
as an amount and its name comes before that of the asset.
-/

namespace ExchangeClient.TradeApi

open Json

namespace Fill

/-- The members that are told apart by their names. -/
def documented : List String :=
  ["trade_id", "order_id", "type", "base_currency", "base_currency_price", "price", "trade_time",
    "trade_time_print"]

/-- A fill with another asset that was traded. -/
def trading (asset : String) (amount : Decimal) (f : Fill) : Fill :=
  { f with asset := asset, amount := amount }

variable {f g : Fill} {name asset : String} {amount : Decimal} {v : Value}

/-- A member that is not told apart names the traded asset. -/
theorem take_other (other : name ∉ documented) :
    take f name v = (lenientDecimal name v).map fun amount => f.trading name amount := by
  unfold take
  split
  case h_9 =>
    cases lenientDecimal name v with
    | error e => rfl
    | ok x => rfl
  all_goals exact absurd (by decide) other

theorem take_documented (known : name ∈ documented) :
    take (f.trading asset amount) name v = (take f name v).map (trading asset amount) := by
  simp only [documented, List.mem_cons, List.not_mem_nil, or_false] at known
  rcases known with rfl | rfl | rfl | rfl | rfl | rfl | rfl | rfl
  all_goals first
    | rfl
    | exact Except.map_bind_pure fun _ => rfl

theorem undone : Undone take (· ∉ documented) (trading asset amount) where
  undoes := by
    intro f name v other
    rw [take_other other, take_other other]
    rfl
  leaves := fun known => take_documented (not_not.1 known)

theorem concerns_asset :
    Concerns take (· ∉ documented) (fun name _ => .ok name) (·.asset) where
  means := by
    intro f g name v other taken
    rw [take_other other] at taken
    obtain ⟨x, -, rfl⟩ := Except.map_eq_ok.1 taken
    rfl
  keeps := by
    intro f g name v known taken
    have hsame : take f name v = (take f name v).map (trading f.asset f.amount) :=
      take_documented (f := f) (not_not.1 known)
    rw [taken] at hsame
    have hkept : g = g.trading f.asset f.amount := Except.ok.inj hsame
    have hasset := congrArg Fill.asset hkept
    exact hasset

/-! ## One member more -/

/-- The one member of a fill that is not told apart has the name of a listed asset. -/
structure NamesAsset (members : List (Key × Document)) (asset : String) : Prop where
  listed : Text.lower asset ∈ listedAssets
  present : ∃ m ∈ members, m.1.name = .ok asset
  only : ∀ m ∈ members, ∀ name, m.1.name = .ok name → Text.lower name ∉ documented → name = asset

theorem listed_not_documented : ∀ asset ∈ listedAssets, asset ∉ documented := by
  decide

section

variable {rows : List (String × Value)} {k n : String}

/-- The one entry that is not told apart names the traded asset. -/
theorem asset_of_foldMembers (traded : n ∈ rows.map (·.1)) (other : Text.lower n ∉ documented)
    (only : ∀ name ∈ rows.map (·.1), Text.lower name ∉ documented → name = n)
    (read : foldMembers take f (Dictionary.ofList rows).entries = .ok g) :
    g.asset = Text.lower n := by
  rcases concerns_asset.last read with ⟨-, hnone⟩ | ⟨before, e, after, hentries, habout, -, hgives⟩
  · obtain ⟨e, he, rfl⟩ := List.mem_map.1 (Dictionary.mem_keys_ofList.2 traded)
    exact absurd other (hnone e he)
  · have he : e ∈ (Dictionary.ofList rows).entries := hentries ▸ by simp
    have hname := only e.1 (Dictionary.mem_keys_ofList.1 (List.mem_map_of_mem he)) habout
    rw [← Except.ok.inj hgives, hname]

/-- The traded asset stands behind a place in the order of the names if its name comes later. -/
theorem traded_later_iff {before after : List (String × Value)}
    (traded : n ∈ (before ++ after).map (·.1)) (other : Text.lower n ∉ documented)
    (only : ∀ m ∈ before ++ after, Text.lower m.1 ∉ documented → m.1 = n)
    (smaller : ∀ m ∈ before, m.1 < k) (larger : ∀ m ∈ after, k < m.1) :
    (∃ m ∈ after, Text.lower m.1 ∉ documented) ↔ k < n := by
  constructor
  · rintro ⟨m, hm, hunknown⟩
    exact only m (List.mem_append_right _ hm) hunknown ▸ larger m hm
  · intro hless
    obtain ⟨m, hm, rfl⟩ := List.mem_map.1 traded
    rcases List.mem_append.1 hm with hm | hm
    · exact absurd (smaller m hm) (String.lt_asymm hless)
    · exact ⟨m, hm, other⟩

/-- What one entry more, which is not told apart, makes of a fill. -/
theorem foldMembers_insert (traded : n ∈ rows.map (·.1)) (other : Text.lower n ∉ documented)
    (only : ∀ name ∈ rows.map (·.1), Text.lower name ∉ documented → name = n)
    (fresh : k ∉ rows.map (·.1)) (unknown : Text.lower k ∉ documented)
    (read : foldMembers take f (Dictionary.ofList rows).entries = .ok g) :
    foldMembers take f ((Dictionary.ofList rows).insert k v).entries =
      (lenientDecimal (Text.lower k) v).map fun x =>
        if k < n then g else g.trading (Text.lower k) x := by
  have hkeys : ∀ name, name ∈ (Dictionary.ofList rows).entries.map (·.1) ↔ name ∈ rows.map (·.1) :=
    fun _ => Dictionary.mem_keys_ofList
  obtain ⟨before, after, hentries, hinsert, hbefore, hafter⟩ :=
    Entries.insert_eq_append (v := v) (Dictionary.ofList rows).ascending (mt (hkeys k).1 fresh)
  have hinserted : ((Dictionary.ofList rows).insert k v).entries = before ++ (k, v) :: after :=
    hinsert
  rw [hentries, foldMembers_append] at read
  obtain ⟨h, hfirst, hrest⟩ := Except.bind_eq_ok.1 read
  rw [hinserted, foldMembers_append, hfirst]
  have hlater : (∃ m ∈ after, Text.lower m.1 ∉ documented) ↔ k < n := by
    refine traded_later_iff (hentries ▸ (hkeys n).2 traded) other ?_ hbefore hafter
    intro m hm hunknown
    exact only m.1 ((hkeys m.1).1 (List.mem_map_of_mem (hentries ▸ hm))) hunknown
  have hextended : foldMembers take h ((k, v) :: after) =
      take h (Text.lower k) v >>= fun h => foldMembers take h after := rfl
  show foldMembers take h ((k, v) :: after) = _
  rw [hextended, take_other unknown]
  cases lenientDecimal (Text.lower k) v with
  | error e => rfl
  | ok x =>
    show foldMembers take (h.trading (Text.lower k) x) after =
      .ok (if k < n then g else g.trading (Text.lower k) x)
    by_cases hless : k < n
    · rw [undone.undone (hlater.2 hless), hrest, if_pos hless]
    · have hothers : ∀ m ∈ after, ¬Text.lower m.1 ∉ documented := fun m hm hunknown =>
        hless (hlater.1 ⟨m, hm, hunknown⟩)
      rw [undone.kept hothers, hrest, if_neg hless]
      rfl

end

/-- What one member more, which is named after no asset, makes of a fill. It is passed over if its
contents can be read as an amount and its name comes before that of the traded asset. If its name
comes later, it takes the place of the traded asset, and contents that are no amount make reading
the fill fail. -/
theorem unlisted_member_read {front back : List (Key × Document)} {n : String} {f : Fill}
    (read : codec.decode (.object (front ++ back) none) = .ok f)
    (names : NamesAsset (front ++ back) n)
    {key : Key} {k : String} {d : Document} {v : Value} (named : key.name = .ok k)
    (valued : Value.ofDocument d = .ok v) (unknown : Text.lower k ∉ documented)
    (unlisted : Text.lower k ∉ listedAssets) :
    let extended := codec.decode (.object (front ++ (key, d) :: back) none)
    f.asset = Text.lower n ∧
    extended = ((lenientDecimal (Text.lower k) v).map fun x =>
      if k < n then f else f.trading (Text.lower k) x).mapError .content ∧
    (extended = .ok f ↔ k < n ∧ ∃ x, lenientDecimal (Text.lower k) v = .ok x) := by
  obtain ⟨entries, hvalued, hfold⟩ := object_of_objectCodec read
  obtain ⟨_, rows, hdocument, heach, rfl⟩ := Value.object_of_object hvalued
  cases hdocument
  obtain ⟨before, after, rfl, hfront, hback⟩ := exists_append_of_related heach
  have hother : Text.lower n ∉ documented := listed_not_documented _ names.listed
  have hdifferent : Text.lower k ≠ Text.lower n := fun same => unlisted (same ▸ names.listed)
  have hpresent := (Value.mem_names_iff heach).2 names.present
  have honly : ∀ name ∈ (before ++ after).map (·.1), Text.lower name ∉ documented → name = n := by
    intro name hname
    obtain ⟨m, hm, hnamed⟩ := (Value.mem_names_iff heach).1 hname
    exact names.only m hm name hnamed
  have hfresh : k ∉ (before ++ after).map (·.1) := fun hk =>
    hdifferent (congrArg Text.lower (honly k hk unknown))
  have hextended : codec.decode (.object (front ++ (key, d) :: back) none) =
      (foldMembers take {} ((Dictionary.ofList (before ++ after)).insert k v).entries).mapError
        .content := by
    rw [← Dictionary.ofList_insert]
    · exact objectCodec_of_object
        (Value.ofDocument_object (List.rel_append hfront (.cons ⟨named, valued⟩ hback)))
    · exact fun hk => hfresh (by rw [List.map_append]; exact List.mem_append_right _ hk)
  rw [foldMembers_insert hpresent hother honly hfresh unknown hfold] at hextended
  have hasset := asset_of_foldMembers hpresent hother honly hfold
  refine ⟨hasset, hextended, ?_⟩
  rw [hextended]
  cases lenientDecimal (Text.lower k) v with
  | error e => exact ⟨nofun, fun h => nomatch h.2⟩
  | ok x =>
    by_cases hless : k < n
    · exact iff_of_true (congrArg Except.ok (if_pos hless)) ⟨hless, x, rfl⟩
    · refine iff_of_false (fun same => ?_) fun h => hless h.1
      have hreplaced : f.trading (Text.lower k) x = f :=
        (if_neg hless).symm.trans (Except.ok.inj same)
      exact hdifferent ((congrArg Fill.asset hreplaced).trans hasset)

/-- A member that comes before the traded asset is passed over. -/
theorem fee_before_asset_passed_over :
    let fill : List (Key × Document) := [(.quoted (.string "trade_id"), .leaf (.string "5")),
      (.quoted (.string "TEN"), .leaf (.string "20"))]
    let fee : Key × Document := (.quoted (.string "FEE"), .leaf (.string "0.1"))
    ∃ f, codec.decode (.object (fill ++ []) none) = .ok f ∧ f.asset = "ten" ∧ f.tradeId = 5 ∧
      codec.decode (.object (fill ++ fee :: []) none) = .ok f := by
  intro fill fee
  let f : Fill := { tradeId := 5, asset := "ten", amount := ⟨false, 20, 0, by decide, by decide⟩ }
  have hread : (codec.decode (.object (fill ++ []) none)).toOption = some f := by decide +kernel
  have hnames : NamesAsset (fill ++ []) "TEN" := by
    refine ⟨by decide +kernel, ⟨_, List.mem_cons_of_mem _ List.mem_cons_self, rfl⟩, ?_⟩
    refine List.forall_mem_cons.2 ⟨?_, List.forall_mem_cons.2 ⟨?_, nofun⟩⟩
    · intro name hname other
      obtain rfl := Except.ok.inj hname
      exact absurd (by decide +kernel) other
    · intro name hname _
      exact (Except.ok.inj hname).symm
  have hread := Except.toOption_eq_some.1 hread
  have hnamed : fee.1.name = .ok "FEE" := rfl
  have hvalued : Value.ofDocument fee.2 = .ok (.string "0.1") := rfl
  obtain ⟨hasset, -, hsame⟩ :=
    unlisted_member_read hread hnames hnamed hvalued (by decide +kernel) (by decide +kernel)
  have hamount : (lenientDecimal (Text.lower "FEE") (.string "0.1")).toOption =
      some ⟨false, 1, 1, by decide, by decide⟩ := by decide +kernel
  have hlower : Text.lower "TEN" = "ten" := by decide +kernel
  exact ⟨f, hread, hasset.trans hlower, rfl,
    hsame.2 ⟨by decide, _, Except.toOption_eq_some.1 hamount⟩⟩

/-- A member that comes after the traded asset takes its place. -/
theorem fee_after_asset_replaces_it :
    ¬∀ (front back : List (Key × Document)) (n k : String) (d : Document) (v : Value) (f : Fill),
      codec.decode (.object (front ++ back) none) = .ok f → NamesAsset (front ++ back) n →
      Value.ofDocument d = .ok v → Text.lower k ∉ documented → Text.lower k ∉ listedAssets →
        codec.decode (.object (front ++ (.quoted (.string k), d) :: back) none) = .ok f := by
  intro claimed
  let fill : List (Key × Document) := [(.quoted (.string "ten"), .leaf (.string "20"))]
  have hread : (codec.decode (.object (fill ++ []) none)).toOption =
      some { asset := "ten", amount := ⟨false, 20, 0, by decide, by decide⟩ } := by decide +kernel
  have hextended : (codec.decode (.object
      (fill ++ (.quoted (.string "zfee"), .leaf (.string "0.1")) :: []) none)).toOption =
      some { asset := "zfee", amount := ⟨false, 1, 1, by decide, by decide⟩ } := by decide +kernel
  have hnames : NamesAsset (fill ++ []) "ten" := by
    refine ⟨by decide +kernel, ⟨_, List.mem_cons_self, rfl⟩, ?_⟩
    exact List.forall_mem_cons.2 ⟨fun name hname _ => (Except.ok.inj hname).symm, nofun⟩
  have hsame := claimed fill [] "ten" "zfee" (.leaf (.string "0.1")) (.string "0.1") _
    (Except.toOption_eq_some.1 hread) hnames rfl (by decide +kernel) (by decide +kernel)
  rw [hsame] at hextended
  exact absurd hextended (by decide)

end Fill
end ExchangeClient.TradeApi
