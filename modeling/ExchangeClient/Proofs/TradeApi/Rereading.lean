import ExchangeClient.Proofs.Json.Codecs
import ExchangeClient.Proofs.Json.Literals
import ExchangeClient.Proofs.Json.Settling
import ExchangeClient.Proofs.Text.Lowering
import ExchangeClient.Proofs.TradeApi.Members
import ExchangeClient.TradeApi.Account

/-!
# Lenient values are read back

Texts and whole numbers are read leniently as what was written for them, and
decimals as the numbers they were rounded to. Keys of dictionaries are put into
lower case, which keys that were read before are in already.
-/

namespace ExchangeClient.TradeApi

open Json

theorem lenientDecimal_text (key : String) (a : Decimal) :
    lenientDecimal key (.string a.text) = .ok a.reread := by
  obtain ⟨negative, whole, fraction, htext, rows, -⟩ := a.text_rows
  have htrim : Text.trim a.text = a.text := by
    have hvisible := plainChars_visible negative rows.whole_digits rows.fraction_digits
    rw [htext, Text.trim, String.toList_ofList, Text.trimChars_eq hvisible]
  simp only [lenientDecimal, htrim, a.text_ne_empty, parseDecimal, a.parse_text_reread,
    Except.mapError, Bool.false_eq_true, if_false]

/-! ## Keys in lower case -/

/-- A dictionary whose keys are in lower case. -/
def Lowered {α : Type} (d : Dictionary α) : Prop := ∀ e ∈ d.entries, Text.lower e.1 = e.1

theorem lowered_empty {α : Type} : Lowered (.empty : Dictionary α) :=
  fun _ he => absurd he List.not_mem_nil

theorem lowered_insert {α : Type} {d : Dictionary α} (lowered : Lowered d) (key : String) (a : α) :
    Lowered (d.insert (Text.lower key) a) := by
  intro e he
  rcases Entries.mem_insert he with rfl | hbefore
  · exact Text.lower_lower key
  · exact lowered e hbefore

theorem lowered_of_addBalances {held d : Dictionary Decimal} {rows : List (String × Value)}
    (lowered : Lowered held) (read : addBalances held rows = .ok d) : Lowered d := by
  induction rows generalizing held with
  | nil => exact Except.ok.inj read ▸ lowered
  | cons e rows ih =>
    obtain ⟨a, -, hrest⟩ := Except.bind_eq_ok.1 read
    exact ih (lowered_insert lowered e.1 a) hrest

theorem lowered_of_lenientBalances {key : String} {v : Value} {d : Dictionary Decimal}
    (read : lenientBalances key v = .ok d) : Lowered d := by
  cases v with
  | null =>
    cases read
    exact lowered_empty
  | object ms => exact lowered_of_addBalances lowered_empty read
  | bool | number | string | array => cases read

theorem addBalances_written {rows : List (String × Decimal)}
    (lowered : ∀ e ∈ rows, Text.lower e.1 = e.1) (held : Dictionary Decimal) :
    addBalances held (rows.map fun e => (e.1, .string e.2.text)) =
      .ok ((rows.map fun e => (e.1, e.2.reread)).foldl (fun d e => d.insert e.1 e.2) held) := by
  induction rows generalizing held with
  | nil => rfl
  | cons e rows ih =>
    obtain ⟨hfirst, hrest⟩ := List.forall_mem_cons.1 lowered
    rw [List.map_cons, addBalances, lenientDecimal_text, hfirst]
    exact ih hrest _

/-- Balances under keys in lower case are read back. -/
theorem lenientBalances_written (key : String) {d : Dictionary Decimal} (lowered : Lowered d) :
    lenientBalances key ((Codec.dictionary .decimal).encode d) = .ok (d.mapValues .reread) := by
  have hsame : Dictionary.ofList (d.mapValues .reread).entries = d.mapValues Decimal.reread :=
    Dictionary.ofList_of_perm (.refl _)
  exact (addBalances_written lowered .empty).trans (congrArg _ hsame)

namespace AccountInfo

theorem addAddresses_written {rows : List (String × String)}
    (lowered : ∀ e ∈ rows, Text.lower e.1 = e.1) (present : ∀ e ∈ rows, e.2 ≠ "")
    (held : Dictionary String) :
    addAddresses held (rows.map fun e => (e.1, .string e.2)) =
      rows.foldl (fun d e => d.insert e.1 e.2) held := by
  induction rows generalizing held with
  | nil => rfl
  | cons e rows ih =>
    obtain ⟨hfirst, hrest⟩ := List.forall_mem_cons.1 lowered
    obtain ⟨hnonempty, hothers⟩ := List.forall_mem_cons.1 present
    have hnot : (lenientText (.string e.2)).isEmpty = false :=
      Bool.eq_false_iff.2 (mt String.isEmpty_iff.1 hnonempty)
    rw [List.map_cons, addAddresses]
    simp only [hnot, Bool.false_eq_true, if_false, hfirst]
    exact ih hrest hothers _

/-- What the addresses and balances are once they have been read. -/
structure IsRead (a : AccountInfo) : Prop where
  addresses : Lowered a.addresses
  present : ∀ e ∈ a.addresses.entries, e.2 ≠ ""
  balance : Lowered a.balance
  balanceHold : Lowered a.balanceHold

theorem addAddresses_keeps {held : Dictionary String} {rows : List (String × Value)}
    (lowered : Lowered held) (present : ∀ e ∈ held.entries, e.2 ≠ "") :
    Lowered (addAddresses held rows) ∧ ∀ e ∈ (addAddresses held rows).entries, e.2 ≠ "" := by
  induction rows generalizing held with
  | nil => exact ⟨lowered, present⟩
  | cons e rows ih =>
    rw [addAddresses]
    by_cases hempty : (lenientText e.2).isEmpty = true
    · simp only [hempty, if_true]
      exact ih lowered present
    · simp only [hempty]
      refine ih (lowered_insert lowered _ _) fun e' he' => ?_
      rcases Entries.mem_insert he' with rfl | hbefore
      · exact mt String.isEmpty_iff.2 hempty
      · exact present e' hbefore

theorem isRead_of_take {a b : AccountInfo} {name : String} {v : Value} (before : a.IsRead)
    (taken : take a name v = .ok b) : b.IsRead := by
  unfold take at taken
  split at taken
  case h_4 =>
    obtain ⟨rows, -, hb⟩ := Except.bind_eq_ok.1 taken
    cases hb
    have hkeeps : Lowered (addAddresses a.addresses rows) ∧
        ∀ e ∈ (addAddresses a.addresses rows).entries, e.2 ≠ "" :=
      addAddresses_keeps before.addresses before.present
    exact { before with addresses := hkeeps.1, present := hkeeps.2 }
  case h_5 =>
    obtain ⟨d, hd, hb⟩ := Except.bind_eq_ok.1 taken
    cases hb
    exact { before with balance := lowered_of_lenientBalances hd }
  case h_6 =>
    obtain ⟨d, hd, hb⟩ := Except.bind_eq_ok.1 taken
    cases hb
    exact { before with balanceHold := lowered_of_lenientBalances hd }
  all_goals
    cases taken
    exact { before with }

end AccountInfo

theorem Cancellation.lowered_of_take {c e : Cancellation} {name : String} {v : Value}
    (before : Lowered c.balance) (taken : take c name v = .ok e) : Lowered e.balance := by
  unfold take at taken
  split at taken
  case h_1 =>
    obtain ⟨i, -, he⟩ := Except.bind_eq_ok.1 taken
    cases he
    exact before
  case h_4 =>
    obtain ⟨d, hd, he⟩ := Except.bind_eq_ok.1 taken
    cases he
    exact lowered_of_lenientBalances hd
  all_goals
    cases taken
    exact before

end ExchangeClient.TradeApi
