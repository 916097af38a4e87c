import Mathlib.Algebra.Group.Nat.Defs

/-!
# Counting down

A counter is decremented by every call and loaded again before it passes zero.
-/

namespace Countdown

variable {w total calls : ℕ} {left : BitVec w}

/-- The counter has not expired, and some calls have decremented it since it was loaded. -/
structure Counts (total calls : ℕ) (left : BitVec w) : Prop where
  positive : 0 < left.toNat
  bounded : calls + left.toNat ≤ total

namespace Counts

/-- The counter is loaded with its total. -/
theorem load {full : BitVec w} (positive : 0 < full.toNat) : Counts full.toNat 0 full where
  positive := positive
  bounded := by omega

/-- The calls are counted anew. -/
theorem restart (counts : Counts total calls left) : Counts total 0 left where
  positive := counts.positive
  bounded := by have := counts.bounded; omega

/-- A call that does not let the counter expire. -/
theorem call (counts : Counts total calls left) (more : left - 1 ≠ 0) :
    Counts total (calls + 1) (left - 1) := by
  obtain ⟨positive, bounded⟩ := counts
  have width : w ≠ 0 := fun empty => more (BitVec.eq_of_zero_length empty)
  have one : (1 : BitVec w).toNat = 1 := by
    rw [BitVec.ofNat_eq_ofNat, BitVec.toNat_ofNat]
    exact Nat.mod_eq_of_lt (Nat.one_lt_two_pow width)
  have decremented : (left - 1).toNat = left.toNat - 1 := by
    rw [BitVec.toNat_sub_of_le (by rw [BitVec.le_def, one]; exact positive), one]
  have nonzero : (left - 1).toNat ≠ 0 := fun zero =>
    more (BitVec.eq_of_toNat_eq (zero.trans BitVec.toNat_zero.symm))
  constructor
  · omega
  · omega

/-- There are fewer calls than the total. -/
theorem lt (counts : Counts total calls left) : calls < total := by
  obtain ⟨positive, bounded⟩ := counts
  omega

/-- The bounds as bounds of signed numbers. -/
theorem toInt (counts : Counts total calls left) (small : 2 * total < 2 ^ w) :
    1 ≤ left.toInt ∧ left.toInt ≤ total := by
  obtain ⟨positive, bounded⟩ := counts
  rw [BitVec.toInt_eq_toNat_of_lt (by omega)]
  omega

end Counts

end Countdown
