import CoreCount.Strategy.Windows
import Mathlib.Algebra.Group.Nat.Defs
import Mathlib.Tactic.Lemma

/-!
# The bits of the core masks

No list of records that a machine can hold has so many set bits in its masks that a sum of 64-bit
words would wrap.
-/

namespace CoreCount.Proofs

/-- The set bits of the masks that describe a core, without a bound on their number. -/
def coreMaskBits : List Os.LogicalProcessors → Nat
  | [] => 0
  | r :: records =>
    (if r.relationship = .processorCore then Os.setBits r.mask else 0) + coreMaskBits records

lemma setBits_le (mask : UInt64) : Os.setBits mask ≤ 64 := by
  have hle := List.countP_le_length (p := mask.toNat.testBit) (l := List.range 64)
  rwa [List.length_range] at hle

lemma toNat_foldl_setBits (records : List Os.LogicalProcessors) (sum : UInt64)
    (h : sum.toNat + 64 * records.length < 2 ^ 64) :
    ((records.filter (·.relationship = .processorCore)).foldl
      (fun sum r => sum + UInt64.ofNat (Os.setBits r.mask)) sum).toNat =
      sum.toNat + coreMaskBits records := by
  -- the sum leaves room for 64 bits of every record that is still to come
  induction records generalizing sum with
  | nil => rfl
  | cons r records ih =>
    rw [List.length_cons] at h
    have hle := setBits_le r.mask
    by_cases hr : r.relationship = .processorCore
    · have hlt : Os.setBits r.mask < 2 ^ 64 := by omega
      have hbits : (UInt64.ofNat (Os.setBits r.mask)).toNat = Os.setBits r.mask :=
        UInt64.toNat_ofNat_of_lt' hlt
      have hsum : (sum + UInt64.ofNat (Os.setBits r.mask)).toNat =
          sum.toNat + Os.setBits r.mask := by
        rw [UInt64.toNat_add, hbits]
        omega
      rw [List.filter_cons_of_pos (by simpa using hr), List.foldl_cons, ih _ (by omega), hsum,
        coreMaskBits, if_pos hr, Nat.add_assoc]
    · rw [List.filter_cons_of_neg (by simpa using hr), ih _ (by omega), coreMaskBits, if_neg hr,
        Nat.zero_add]

theorem toNat_coreBits {records : List Os.LogicalProcessors} (h : records.length < 2 ^ 58) :
    (Strategy.coreBits records).toNat = coreMaskBits records := by
  have hsum := toNat_foldl_setBits records 0 (by rw [UInt64.toNat_zero]; omega)
  rwa [UInt64.toNat_zero, Nat.zero_add] at hsum

end CoreCount.Proofs
