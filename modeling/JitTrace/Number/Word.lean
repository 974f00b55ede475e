/-!
# Address arithmetic

Addresses are 64-bit words. Sums and differences that describe ranges stop at
the ends of the address space instead of wrapping.
-/

namespace JitTrace.Number

/-- The sum, or the greatest word where it does not fit. -/
def saturatingAdd (left right : UInt64) : UInt64 :=
  if left + right < left then 0xffffffffffffffff else left + right

/-- The difference, or zero where it would be negative. -/
def saturatingSub (left right : UInt64) : UInt64 :=
  if left < right then 0 else left - right

/-- A saturated sum is the sum cut off at the greatest word. -/
theorem toNat_saturatingAdd (left right : UInt64) :
    (saturatingAdd left right).toNat = min (left.toNat + right.toNat) 0xffffffffffffffff := by
  have leftBound := left.toNat_lt
  have rightBound := right.toNat_lt
  unfold saturatingAdd
  split
  · next wrapped =>
    rw [UInt64.lt_iff_toNat_lt, UInt64.toNat_add] at wrapped
    simp only [UInt64.reduceToNat]
    omega
  · next fits =>
    rw [UInt64.lt_iff_toNat_lt, UInt64.toNat_add] at fits
    rw [UInt64.toNat_add]
    omega

/-- A saturated difference is the difference of natural numbers. -/
theorem toNat_saturatingSub (left right : UInt64) :
    (saturatingSub left right).toNat = left.toNat - right.toNat := by
  unfold saturatingSub
  split
  · next smaller =>
    rw [UInt64.lt_iff_toNat_lt] at smaller
    simp only [UInt64.toNat_zero]
    omega
  · next notSmaller =>
    rw [UInt64.toNat_sub_of_le]
    rw [UInt64.le_iff_toNat_le]
    rw [UInt64.lt_iff_toNat_lt] at notSmaller
    omega

end JitTrace.Number
