import Mathlib.Data.UInt

/-!
# Arithmetic of words that does not wrap

Each operation comes with its value as a natural number.
-/

namespace Saturating

variable {a b c : UInt64}

/-- `u64::saturating_sub`. -/
def sub (a b : UInt64) : UInt64 := if b ≤ a then a - b else 0

/-- `u64::saturating_add`. -/
def add (a b : UInt64) : UInt64 :=
  if a.toNat + b.toNat < UInt64.size then a + b else UInt64.ofNat (UInt64.size - 1)

/-- `u64::checked_add`. -/
def checkedAdd (a b : UInt64) : Option UInt64 :=
  if a.toNat + b.toNat < UInt64.size then some (a + b) else none

theorem toNat_add_of_lt (h : a.toNat + b.toNat < UInt64.size) :
    (a + b).toNat = a.toNat + b.toNat := by
  rw [UInt64.toNat_add]
  exact Nat.mod_eq_of_lt h

theorem toNat_sub : (sub a b).toNat = a.toNat - b.toNat := by
  unfold sub
  split
  · next h => exact UInt64.toNat_sub_of_le _ _ h
  · next h =>
    rw [UInt64.le_iff_toNat_le] at h
    show 0 = a.toNat - b.toNat
    omega

/-- Being below a saturated sum is being below the sum. -/
theorem le_add_iff : c ≤ add a b ↔ c.toNat ≤ a.toNat + b.toNat := by
  have hc : c.toNat < UInt64.size := c.toNat_lt
  rw [UInt64.le_iff_toNat_le]
  unfold add
  split
  · next h => rw [toNat_add_of_lt h]
  · next h =>
    have hmax : (UInt64.ofNat (UInt64.size - 1)).toNat = UInt64.size - 1 := by decide
    rw [hmax]
    omega

theorem checkedAdd_eq_some : checkedAdd a b = some c ↔ c.toNat = a.toNat + b.toNat := by
  have hc : c.toNat < UInt64.size := c.toNat_lt
  unfold checkedAdd
  split
  · next h => rw [Option.some.injEq, ← UInt64.toNat_inj, toNat_add_of_lt h, eq_comm]
  · next h =>
    refine iff_of_false nofun fun heq => h ?_
    omega

end Saturating
