import ExchangeClient.Channel.RequestTable

/-!
# The numbers of requests

The counter of a table wraps around and passes over the number of broadcasts.
Number `k` after any start is therefore a residue modulo the count of all
numbers but zero, and no two of fewer requests than that share one.
-/

namespace ExchangeClient.Channel.RequestTable

/-- How many numbers a request can have. -/
def numberCount : Nat := 0xffffffffffffffff

/-- The number handed out after `k` others by a counter that stood at `start`. -/
def numberAt (start : UInt64) (k : Nat) : UInt64 :=
  UInt64.ofNat ((start.toNat - 1 + k) % numberCount + 1)

theorem numberAt_toNat (start : UInt64) (k : Nat) :
    (numberAt start k).toNat = (start.toNat - 1 + k) % numberCount + 1 := by
  have small : (start.toNat - 1 + k) % numberCount < numberCount :=
    Nat.mod_lt _ (by decide)
  rw [numberAt, UInt64.toNat_ofNat']
  exact Nat.mod_eq_of_lt (by simp only [numberCount] at small ⊢; omega)

theorem numberAt_ne_broadcast (start : UInt64) (k : Nat) :
    numberAt start k ≠ ReplyFrame.broadcastId := by
  intro h
  have hn := numberAt_toNat start k
  rw [h] at hn
  simp [ReplyFrame.broadcastId] at hn

theorem numberAt_inj {start : UInt64} {k l : Nat} (hk : k < numberCount)
    (hl : l < numberCount) (h : numberAt start k = numberAt start l) : k = l := by
  have hs := start.toNat_lt
  have heq := congrArg UInt64.toNat h
  rw [numberAt_toNat, numberAt_toNat] at heq
  simp only [numberCount] at hk hl heq
  omega

theorem takeId_of_ne {t : RequestTable} (h : t.counter ≠ ReplyFrame.broadcastId) :
    t.takeId.1 = t.counter := if_neg h

theorem takeId_of_eq {t : RequestTable} (h : t.counter = ReplyFrame.broadcastId) :
    t.takeId.1 = 1 := by
  have taken : t.takeId.1 = t.counter + 1 := if_pos h
  rw [taken, h]
  rfl

/-- The first number is the start itself, or one in place of zero. -/
theorem takeId_starting (start : UInt64) :
    (starting start).takeId.1 = numberAt start 0 := by
  have hs := start.toNat_lt
  apply UInt64.toNat_inj.mp
  rw [numberAt_toNat]
  by_cases h : start = 0
  · rw [takeId_of_eq h, h]
    rfl
  · have hpos : start.toNat ≠ 0 := fun hz => h (UInt64.toNat_inj.mp hz)
    rw [takeId_of_ne h]
    simp only [starting, numberCount]
    omega

/-- Each number follows the one before it. -/
theorem takeId_next {t : RequestTable} {start : UInt64} {k : Nat}
    (h : t.takeId.1 = numberAt start k) : t.takeId.2.takeId.1 = numberAt start (k + 1) := by
  have hn := congrArg UInt64.toNat h
  have hadd := UInt64.toNat_add t.takeId.1 1
  have hlt := t.takeId.1.toNat_lt
  have counter : t.takeId.2.counter = t.takeId.1 + 1 := rfl
  rw [numberAt_toNat] at hn
  apply UInt64.toNat_inj.mp
  rw [numberAt_toNat]
  simp only [numberCount, UInt64.toNat_one] at hn hadd ⊢
  by_cases wrap : t.takeId.1 + 1 = 0
  · have hz : (t.takeId.1 + 1).toNat = 0 := by rw [wrap]; rfl
    rw [takeId_of_eq (counter.trans wrap), UInt64.toNat_one]
    omega
  · have hz : (t.takeId.1 + 1).toNat ≠ 0 := fun h0 => wrap (UInt64.toNat_inj.mp h0)
    rw [takeId_of_ne (counter ▸ wrap), counter]
    omega

end ExchangeClient.Channel.RequestTable
