import EntitySearch.Number.Word
import Mathlib.Data.Nat.Init

/-!
# Exact arithmetic on words

The operations on words give the exact numbers where these are words, and the checked operations are
defined exactly there.
-/

namespace EntitySearch

namespace Word

theorem toNat_pos {word : UInt64} (nonzero : word ≠ 0) : 0 < word.toNat :=
  Nat.pos_of_ne_zero fun zero => nonzero (UInt64.toNat_inj.mp zero)

theorem toNat_add_of_lt {left right : UInt64} (fits : left.toNat + right.toNat < UInt64.size) :
    (left + right).toNat = left.toNat + right.toNat := by
  rw [UInt64.toNat_add, Nat.mod_eq_of_lt fits]

theorem toNat_sub_of_le {left right : UInt64} (fits : right.toNat ≤ left.toNat) :
    (left - right).toNat = left.toNat - right.toNat :=
  UInt64.toNat_sub_of_le left right (UInt64.le_iff_toNat_le.mpr fits)

theorem toNat_mul_of_lt {left right : UInt64} (fits : left.toNat * right.toNat < UInt64.size) :
    (left * right).toNat = left.toNat * right.toNat := by
  rw [UInt64.toNat_mul, Nat.mod_eq_of_lt fits]

theorem toNat_min (left right : UInt64) :
    (min left right).toNat = min left.toNat right.toNat := by
  by_cases ordered : left ≤ right
  · rw [show min left right = left from if_pos ordered,
      Nat.min_eq_left (UInt64.le_iff_toNat_le.mp ordered)]
  · rw [show min left right = right from if_neg ordered]
    rw [UInt64.le_iff_toNat_le] at ordered
    omega

theorem toNat_max (left right : UInt64) :
    (max left right).toNat = max left.toNat right.toNat := by
  by_cases ordered : left ≤ right
  · rw [show max left right = right from if_pos ordered,
      Nat.max_eq_right (UInt64.le_iff_toNat_le.mp ordered)]
  · rw [show max left right = left from if_neg ordered]
    rw [UInt64.le_iff_toNat_le] at ordered
    omega

theorem add?_eq_some_iff {left right sum : UInt64} :
    add? left right = some sum ↔ sum.toNat = left.toNat + right.toNat := by
  rw [add?]
  split
  case isTrue fits => rw [Option.some.injEq, ← UInt64.toNat_inj, toNat_add_of_lt fits, eq_comm]
  case isFalse wraps =>
    have := sum.toNat_lt_size
    simp only [reduceCtorEq, false_iff]
    omega

theorem sub?_eq_some_iff {left right difference : UInt64} :
    sub? left right = some difference ↔ difference.toNat + right.toNat = left.toNat := by
  rw [sub?]
  split
  case isTrue fits =>
    have := UInt64.le_iff_toNat_le.mp fits
    rw [Option.some.injEq, ← UInt64.toNat_inj, toNat_sub_of_le this]
    omega
  case isFalse wraps =>
    rw [UInt64.le_iff_toNat_le] at wraps
    simp only [reduceCtorEq, false_iff]
    omega

theorem mul?_eq_some_iff {left right product : UInt64} :
    mul? left right = some product ↔ product.toNat = left.toNat * right.toNat := by
  rw [mul?]
  split
  case isTrue fits => rw [Option.some.injEq, ← UInt64.toNat_inj, toNat_mul_of_lt fits, eq_comm]
  case isFalse wraps =>
    have := product.toNat_lt_size
    simp only [reduceCtorEq, false_iff]
    omega

theorem mul?_eq_none_iff {left right : UInt64} :
    mul? left right = none ↔ UInt64.size ≤ left.toNat * right.toNat := by
  rw [mul?, ite_eq_right_iff, ← Nat.not_lt]
  simp

theorem add?_of_lt {left right : UInt64} (fits : left.toNat + right.toNat < UInt64.size) :
    add? left right = some (left + right) :=
  add?_eq_some_iff.mpr (toNat_add_of_lt fits)

theorem sub?_of_le {left right : UInt64} (fits : right.toNat ≤ left.toNat) :
    sub? left right = some (left - right) := by
  rw [sub?_eq_some_iff, toNat_sub_of_le fits, Nat.sub_add_cancel fits]

end Word

end EntitySearch
