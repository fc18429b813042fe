import Mathlib.Algebra.Group.Nat.Defs
import Mathlib.Order.Basic
import Mathlib.Tactic.Common

/-!
# Unsigned arithmetic

The three ways a program adds or multiplies unsigned 64-bit integers: wrapping (`UInt64`'s own
`+`), checked (`none` on overflow) and saturating. Each comes with its meaning over the naturals.
An integer of 128 bits is a natural number that is checked against the limit.
-/

namespace Lib

/-- The largest 64-bit unsigned integer. -/
def u64Max : Nat := 2 ^ 64 - 1

theorem toNat_le_u64Max (a : UInt64) : a.toNat ≤ u64Max := by
  have h := a.toNat_lt
  unfold u64Max
  omega

/-- The unsigned integer nearest to a natural number from below the limit. -/
def saturate (n : Nat) : UInt64 := UInt64.ofNat (min n u64Max)

@[simp] theorem toNat_saturate (n : Nat) : (saturate n).toNat = min n u64Max := by
  have h : min n u64Max < 2 ^ 64 := by
    unfold u64Max
    omega
  simpa [saturate] using h

/-- `len as u64`: the length of anything in memory fits, so the conversion is exact there. -/
def lenAsU64 (len : Nat) : UInt64 := saturate len

def saturatingAdd (a b : UInt64) : UInt64 := saturate (a.toNat + b.toNat)

def saturatingMul (a b : UInt64) : UInt64 := saturate (a.toNat * b.toNat)

@[simp] theorem toNat_saturatingAdd (a b : UInt64) :
    (saturatingAdd a b).toNat = min (a.toNat + b.toNat) u64Max := toNat_saturate _

@[simp] theorem toNat_saturatingMul (a b : UInt64) :
    (saturatingMul a b).toNat = min (a.toNat * b.toNat) u64Max := toNat_saturate _

def checkedAdd (a b : UInt64) : Option UInt64 :=
  if a.toNat + b.toNat ≤ u64Max then some (UInt64.ofNat (a.toNat + b.toNat)) else none

def checkedMul (a b : UInt64) : Option UInt64 :=
  if a.toNat * b.toNat ≤ u64Max then some (UInt64.ofNat (a.toNat * b.toNat)) else none

/-- `i64::saturating_add`. -/
def saturatingAddI64 (a b : Int64) : Int64 := Int64.ofIntClamp (a.toInt + b.toInt)

/-- Adding a duration never overshoots. -/
theorem toInt_saturatingAddI64_le {a b : Int64} (h : 0 ≤ b.toInt) :
    (saturatingAddI64 a b).toInt ≤ a.toInt + b.toInt := by
  have hmin : Int64.minValue.toInt ≤ a.toInt := a.minValue_le_toInt
  unfold saturatingAddI64 Int64.ofIntClamp
  rw [dif_pos (by omega)]
  split
  · exact Int.le_of_eq (Int64.toInt_ofIntLE ..)
  · omega

theorem checkedAdd_eq_some {a b c : UInt64} :
    checkedAdd a b = some c ↔ c.toNat = a.toNat + b.toNat := by
  have hc := toNat_le_u64Max c
  unfold checkedAdd
  constructor
  · intro h
    split at h
    · rename_i hle
      cases h
      have hlt : a.toNat + b.toNat < 2 ^ 64 := by
        unfold u64Max at hle
        omega
      simpa using hlt
    · cases h
  · intro h
    rw [if_pos (by omega), ← h]
    simp

theorem checkedMul_eq_some {a b c : UInt64} :
    checkedMul a b = some c ↔ c.toNat = a.toNat * b.toNat := by
  have hc := toNat_le_u64Max c
  rw [checkedMul, Option.ite_none_right_eq_some, Option.some.injEq]
  constructor
  · rintro ⟨hle, rfl⟩
    have hlt : a.toNat * b.toNat < 2 ^ 64 := by
      unfold u64Max at hle
      omega
    simpa using hlt
  · intro h
    rw [← h]
    exact ⟨hc, UInt64.ofNat_toNat⟩

theorem checkedMul_eq_none {a b : UInt64} :
    checkedMul a b = none ↔ 2 ^ 64 ≤ a.toNat * b.toNat := by
  unfold checkedMul u64Max
  constructor
  · intro h
    split at h
    · cases h
    · omega
  · intro h
    rw [if_neg (by omega)]

/-! ## 128 bits -/

/-- The largest 128-bit unsigned integer. -/
def u128Max : Nat := 2 ^ 128 - 1

def checkedAdd128 (a b : Nat) : Option Nat := if a + b ≤ u128Max then some (a + b) else none

def checkedMul128 (a b : Nat) : Option Nat := if a * b ≤ u128Max then some (a * b) else none

def checkedDiv128 (a b : Nat) : Option Nat := if b = 0 then none else some (a / b)

theorem checkedMul128_eq_some {a b c : Nat} :
    checkedMul128 a b = some c ↔ a * b ≤ u128Max ∧ a * b = c := by
  rw [checkedMul128, Option.ite_none_right_eq_some, Option.some.injEq]

theorem checkedAdd128_eq_some {a b c : Nat} :
    checkedAdd128 a b = some c ↔ a + b ≤ u128Max ∧ a + b = c := by
  rw [checkedAdd128, Option.ite_none_right_eq_some, Option.some.injEq]

theorem checkedDiv128_eq_some {a b c : Nat} : checkedDiv128 a b = some c ↔ b ≠ 0 ∧ a / b = c := by
  rw [checkedDiv128, Option.ite_none_left_eq_some, Option.some.injEq]

theorem checkedMul128_of_le {a b : Nat} (h : a * b ≤ u128Max) : checkedMul128 a b = some (a * b) :=
  if_pos h

theorem checkedAdd128_of_le {a b : Nat} (h : a + b ≤ u128Max) : checkedAdd128 a b = some (a + b) :=
  if_pos h

def saturatingAdd128 (a b : Nat) : Nat := min (a + b) u128Max

/-- `u64::try_from`, of a 128-bit integer. -/
def tryIntoU64 (a : Nat) : Option UInt64 := if a ≤ u64Max then some (UInt64.ofNat a) else none

theorem tryIntoU64_eq_some {a : Nat} {b : UInt64} : tryIntoU64 a = some b ↔ b.toNat = a := by
  have hb := toNat_le_u64Max b
  rw [tryIntoU64, Option.ite_none_right_eq_some, Option.some.injEq]
  constructor
  · rintro ⟨hle, rfl⟩
    have hlt : a < 2 ^ 64 := by
      unfold u64Max at hle
      omega
    simpa using hlt
  · rintro rfl
    exact ⟨hb, UInt64.ofNat_toNat⟩

end Lib
