import ExchangeClient.Proofs.Dictionary
import ExchangeClient.Proofs.TradeApi.Members
import ExchangeClient.TradeApi.Account

/-!
# Free and locked balances

The trade API tells the balances of an account in one map, the locked one of an
asset under its name with `frozen_` in front. They are put to those of their kind
one by one, and with this start in front again the locked ones and the free ones
are the map. Since no free balance has a name with this start, the map also
determines where each balance was put, whatever the order in which they came.
-/

namespace ExchangeClient.TradeApi

variable {h h' : Holdings} {rows rows' : List (String × Decimal)} {asset name : String}
  {x : Decimal}

/-- The name under which the locked balance of an asset is told. -/
def frozenName (asset : String) : String := "frozen_" ++ asset

theorem suffixAfter?_frozenName (asset : String) :
    suffixAfter? "frozen_" (frozenName asset) = some asset :=
  suffixAfter?_eq_some_iff.2 rfl

theorem frozenName_inj {other : String} (same : frozenName asset = frozenName other) :
    asset = other := by
  have hasset := suffixAfter?_frozenName asset
  rw [same, suffixAfter?_frozenName] at hasset
  exact (Option.some.inj hasset).symm

/-- The free and the locked balances under the names with which they are told. -/
def reunited (h : Holdings) : List (String × Decimal) :=
  h.balances.entries ++ h.frozen.entries.map fun e => (frozenName e.1, e.2)

/-- Puts a balance to those of its kind. -/
def putBalance (h : Holdings) (e : String × Decimal) : Holdings :=
  match suffixAfter? "frozen_" e.1 with
  | some asset => { h with frozen := h.frozen.insert asset e.2 }
  | none => { h with balances := h.balances.insert e.1 e.2 }

theorem splitFrozen_eq_foldl (m : Dictionary Decimal) :
    splitFrozen m = m.entries.foldl putBalance {} := rfl

theorem putBalance_frozen (h : Holdings) (asset : String) (x : Decimal) :
    putBalance h (frozenName asset, x) = { h with frozen := h.frozen.insert asset x } := by
  simp only [putBalance, suffixAfter?_frozenName]

theorem putBalance_free (h : Holdings) (x : Decimal) (free : ¬∃ asset, name = frozenName asset) :
    putBalance h (name, x) = { h with balances := h.balances.insert name x } := by
  have hnone : suffixAfter? "frozen_" name = none := by
    cases hsuffix : suffixAfter? "frozen_" name with
    | none => rfl
    | some asset => exact absurd ⟨asset, suffixAfter?_eq_some_iff.1 hsuffix⟩ free
  rw [putBalance, hnone]

/-! ## What has been put -/

/-- Rows of balances, each of which was put to those of its kind. -/
structure SplitOf (rows : List (String × Decimal)) (h : Holdings) : Prop where
  free : ∀ e ∈ h.balances.entries, ¬∃ asset, e.1 = frozenName asset
  perm : (reunited h).Perm rows

theorem SplitOf.empty : SplitOf [] {} := ⟨nofun, .refl _⟩

theorem SplitOf.mem_names (split : SplitOf rows h) :
    name ∈ rows.map (·.1) ↔
      name ∈ h.balances.entries.map (·.1) ∨ ∃ asset ∈ h.frozen.entries.map (·.1),
        frozenName asset = name := by
  rw [← (split.perm.map (·.1)).mem_iff, reunited, List.map_append, List.mem_append, List.map_map]
  simp

/-- A balance under a new name is put beside those that were. -/
theorem SplitOf.put (split : SplitOf rows h) (fresh : name ∉ rows.map (·.1)) (x : Decimal) :
    SplitOf ((name, x) :: rows) (putBalance h (name, x)) := by
  rw [split.mem_names, not_or] at fresh
  -- the name is new among those of its own kind, so nothing is overwritten there
  by_cases hfrozen : ∃ asset, name = frozenName asset
  · obtain ⟨asset, rfl⟩ := hfrozen
    have hnew : asset ∉ h.frozen.entries.map (·.1) := fun hmem => fresh.2 ⟨asset, hmem, rfl⟩
    have hinsert : (h.frozen.insert asset x).entries.Perm ((asset, x) :: h.frozen.entries) :=
      Entries.insert_perm hnew
    rw [putBalance_frozen]
    refine ⟨split.free, ?_⟩
    exact ((hinsert.map _).append_left _).trans (List.perm_middle.trans (split.perm.cons _))
  · have hinsert : (h.balances.insert name x).entries.Perm ((name, x) :: h.balances.entries) :=
      Entries.insert_perm fresh.1
    rw [putBalance_free h x hfrozen]
    refine ⟨?_, (hinsert.append_right _).trans (split.perm.cons _)⟩
    intro e he
    rcases List.mem_cons.1 (hinsert.mem_iff.1 he) with rfl | he
    · exact hfrozen
    · exact split.free e he

theorem splitOf_foldl (distinct : (rows.map (·.1)).Nodup) :
    SplitOf rows (rows.foldl putBalance {}) := by
  -- on the row that is put last, whose name is none of those before it
  induction rows using List.reverseRecOn with
  | nil => exact .empty
  | append_singleton rows e ih =>
    have hperm : (rows ++ [e]).Perm (e :: rows) := List.perm_append_singleton e rows
    obtain ⟨hfresh, hrest⟩ := List.nodup_cons.1 ((hperm.map (·.1)).nodup_iff.1 distinct)
    obtain ⟨hfree, hrows⟩ := (ih hrest).put hfresh e.2
    rw [List.foldl_append, List.foldl_cons, List.foldl_nil]
    exact ⟨hfree, hrows.trans hperm.symm⟩

/-! ## What is found -/

theorem SplitOf.find?_frozen (split : SplitOf rows h) :
    h.frozen.find? asset = some x ↔ (frozenName asset, x) ∈ rows := by
  rw [Dictionary.find?_eq_some_iff, ← split.perm.mem_iff, reunited, List.mem_append, List.mem_map]
  constructor
  · exact fun hmem => Or.inr ⟨(asset, x), hmem, rfl⟩
  · rintro (hfree | ⟨e, he, hsame⟩)
    · exact absurd ⟨asset, rfl⟩ (split.free _ hfree)
    · obtain ⟨hname, rfl⟩ := Prod.mk.inj hsame
      exact frozenName_inj hname ▸ he

theorem SplitOf.find?_balances (split : SplitOf rows h) :
    h.balances.find? name = some x ↔ (name, x) ∈ rows ∧ ¬∃ asset, name = frozenName asset := by
  rw [Dictionary.find?_eq_some_iff, ← split.perm.mem_iff, reunited, List.mem_append, List.mem_map]
  constructor
  · exact fun hmem => ⟨Or.inl hmem, split.free _ hmem⟩
  · rintro ⟨hfree | ⟨e, -, hsame⟩, hplain⟩
    · exact hfree
    · exact absurd ⟨e.1, (congrArg Prod.fst hsame).symm⟩ hplain

/-- The same rows are split in one way only. -/
theorem SplitOf.eq_of_perm (first : SplitOf rows h) (second : SplitOf rows' h')
    (perm : rows.Perm rows') : h = h' := by
  have hbalances : h.balances = h'.balances := by
    apply Dictionary.ext_find?
    intro name
    ext x
    rw [first.find?_balances, second.find?_balances, perm.mem_iff]
  have hfrozen : h.frozen = h'.frozen := by
    apply Dictionary.ext_find?
    intro asset
    ext x
    rw [first.find?_frozen, second.find?_frozen, perm.mem_iff]
  cases h
  cases h'
  exact congrArg₂ Holdings.mk hbalances hfrozen

/-- Balances are told apart without loss. In any order they come to the same; a balance is locked
exactly if it is told with `frozen_` in front of the asset and free exactly if its name has no such
start; and named as they were told, the free and the locked ones are the balances again. -/
theorem balances_told_apart (m : Dictionary Decimal) :
    (∀ rows : List (String × Decimal), rows.Perm m.entries →
      rows.foldl putBalance {} = splitFrozen m) ∧
    (∀ asset x, (splitFrozen m).frozen.find? asset = some x ↔
      m.find? ("frozen_" ++ asset) = some x) ∧
    (∀ asset x, (splitFrozen m).balances.find? asset = some x ↔
      m.find? asset = some x ∧ ¬∃ rest, asset = "frozen_" ++ rest) ∧
    (splitFrozen m).balances.entries.length + (splitFrozen m).frozen.entries.length =
      m.entries.length ∧
    (reunited (splitFrozen m)).Perm m.entries ∧
    Dictionary.ofList (reunited (splitFrozen m)) = m := by
  have hsplit : SplitOf m.entries (splitFrozen m) := by
    rw [splitFrozen_eq_foldl]
    exact splitOf_foldl m.keys_distinct
  refine ⟨?_, ?_, ?_, ?_, hsplit.perm, Dictionary.ofList_of_perm hsplit.perm.symm⟩
  · intro rows hperm
    have hdistinct : (rows.map (·.1)).Nodup := (hperm.map (·.1)).nodup_iff.2 m.keys_distinct
    exact (splitOf_foldl hdistinct).eq_of_perm hsplit hperm
  · intro asset x
    rw [hsplit.find?_frozen, Dictionary.find?_eq_some_iff, frozenName]
  · intro asset x
    rw [hsplit.find?_balances, Dictionary.find?_eq_some_iff]
    rfl
  · rw [← hsplit.perm.length_eq, reunited, List.length_append, List.length_map]

/-- The start is taken off once, and the asset may be empty. -/
example :
    let one := Decimal.extreme false
    let two := Decimal.extreme true
    let h := splitFrozen (.ofList [("btc", one), ("frozen_", two), ("frozen_frozen_btc", one)])
    h.balances = .ofList [("btc", one)] ∧ h.frozen = .ofList [("", two), ("frozen_btc", one)] := by
  decide +kernel

end ExchangeClient.TradeApi
