import Mathlib.Algebra.Order.Ring.Int

/-! # Machine Words

  When 64-bit arithmetic is exact: casts between the signed and the unsigned
  word, sums and differences that fit, the maximum of two words. -/

namespace AgentTraceGateway.Words

/-! ### Signed words -/

/-- `as i64` is exact below half the range. -/
theorem toInt_of_lt {w : UInt64} (h : w.toNat < 2 ^ 63) : w.toInt64.toInt = w.toNat := by
  have hword : w.toInt64.toInt = w.toBitVec.toInt := rfl
  rw [hword, BitVec.toInt_eq_toNat_of_lt]
  · rfl
  · show 2 * w.toNat < 2 ^ 64
    omega

theorem toInt_sub_of_lt {a b : UInt64} (ha : a.toNat < 2 ^ 63) (hb : b.toNat < 2 ^ 63) :
    (a.toInt64 - b.toInt64).toInt = (a.toNat : Int) - b.toNat := by
  rw [Int64.toInt_sub, toInt_of_lt ha, toInt_of_lt hb]
  apply Int.bmod_eq_of_le <;> omega

theorem toInt_add_of_fits {a b : Int64} (hlow : -2 ^ 63 ≤ a.toInt + b.toInt)
    (hhigh : a.toInt + b.toInt < 2 ^ 63) : (a + b).toInt = a.toInt + b.toInt := by
  rw [Int64.toInt_add]
  apply Int.bmod_eq_of_le <;> omega

/-- `as usize` of a positive word. -/
theorem toNat_of_pos {d : Int64} (h : 0 < d) : (d.toUInt64.toNat : Int) = d.toInt := by
  have hpos : 0 < d.toInt := Int64.lt_iff_toInt_lt.mp h
  have hword : d.toUInt64.toNat = d.toBitVec.toNat := rfl
  have hint : d.toInt = d.toBitVec.toInt := rfl
  rw [hint, BitVec.toInt_eq_toNat_cond] at hpos
  rw [hword, hint, BitVec.toInt_eq_toNat_cond]
  split at hpos
  · rw [if_pos ‹_›]
  · omega

/-- `as usize` of a negated negative word. -/
theorem toNat_of_neg {d : Int64} (h : d < 0) : ((-d).toUInt64.toNat : Int) = -d.toInt := by
  have hneg : d.toInt < 0 := Int64.lt_iff_toInt_lt.mp h
  have hlow := Int64.le_toInt d
  have hword : (-d).toUInt64.toNat = (-d.toBitVec).toNat := rfl
  have hint : d.toInt = d.toBitVec.toInt := rfl
  have hlt := d.toBitVec.isLt
  rw [hint, BitVec.toInt_eq_toNat_cond] at hneg
  rw [hword, hint, BitVec.toInt_eq_toNat_cond, BitVec.toNat_neg]
  split at hneg
  · omega
  · rw [if_neg ‹_›, Nat.mod_eq_of_lt (by omega)]
    omega

/-! ### Unsigned words -/

theorem toNat_max (a b : UInt64) : (max a b).toNat = max a.toNat b.toNat := by
  show (if a ≤ b then b else a).toNat = max a.toNat b.toNat
  have hiff : a ≤ b ↔ a.toNat ≤ b.toNat := UInt64.le_iff_toNat_le
  by_cases hle : a ≤ b
  · have hnat := hiff.mp hle
    rw [if_pos hle]
    omega
  · have hnat := mt hiff.mpr hle
    rw [if_neg hle]
    omega

/-- `max(1)`. -/
theorem toNat_max_one (w : UInt64) : (max w 1).toNat = max w.toNat 1 := toNat_max w 1

theorem toNat_succ {w : UInt64} (h : w.toNat + 1 < 2 ^ 64) : (w + 1).toNat = w.toNat + 1 := by
  rw [UInt64.toNat_add]
  exact Nat.mod_eq_of_lt h

end AgentTraceGateway.Words
