import Mathlib.Algebra.Order.Floor.Div
import Mathlib.Data.Nat.Basic
import Mathlib.Tactic.Common
import Mathlib.Tactic.Ring

/-!
# Rounding early and rounding late

A product of an amount and a price `d / p`, scaled down by `t`: once with the price rounded down to
multiples of `1 / s` first, once rounded down at the end only. The first is never more, and less by no
more than the amount at the scale `s * t`, rounded up.
-/

namespace Lib

section

variable (x d p s t : Nat)

/-- The price is rounded down before it is multiplied with the amount. -/
def roundEarly : Nat := x * (d * s / p) / (s * t)

/-- Nothing is rounded before the end. -/
def roundLate : Nat := x * d / (p * t)

variable {x d p s t}

theorem roundEarly_le_roundLate (hs : 0 < s) (hp : 0 < p) (ht : 0 < t) :
    roundEarly x d p s t ≤ roundLate x d p t := by
  have hprice : d * s / p * p ≤ d * s := Nat.div_mul_le_self _ _
  have hearly : roundEarly x d p s t * (s * t) ≤ x * (d * s / p) := Nat.div_mul_le_self _ _
  rw [roundLate, Nat.le_div_iff_mul_le (Nat.mul_pos hp ht)]
  apply Nat.le_of_mul_le_mul_left _ hs
  calc s * (roundEarly x d p s t * (p * t))
      = roundEarly x d p s t * (s * t) * p := by ring
    _ ≤ x * (d * s / p) * p := Nat.mul_le_mul_right p hearly
    _ = x * (d * s / p * p) := by ring
    _ ≤ x * (d * s) := Nat.mul_le_mul_left x hprice
    _ = s * (x * d) := by ring

/-- The part of the price that is rounded off is less than `1 / s`. -/
theorem roundLate_mul_le (hp : 0 < p) :
    roundLate x d p t * (s * t) ≤ x * (d * s / p) + x := by
  have hprice : d * s ≤ (d * s / p + 1) * p := by
    rw [Nat.add_mul, Nat.one_mul]
    exact (Nat.lt_div_mul_add hp).le
  have hlate : roundLate x d p t * (p * t) ≤ x * d := Nat.div_mul_le_self _ _
  apply Nat.le_of_mul_le_mul_right _ hp
  calc roundLate x d p t * (s * t) * p
      = s * (roundLate x d p t * (p * t)) := by ring
    _ ≤ s * (x * d) := Nat.mul_le_mul_left s hlate
    _ = x * (d * s) := by ring
    _ ≤ x * ((d * s / p + 1) * p) := Nat.mul_le_mul_left x hprice
    _ = (x * (d * s / p) + x) * p := by ring

theorem roundLate_le_roundEarly_add (hs : 0 < s) (hp : 0 < p) (ht : 0 < t) :
    roundLate x d p t ≤ roundEarly x d p s t + x ⌈/⌉ (s * t) := by
  have hpos : 0 < s * t := Nat.mul_pos hs ht
  have hceil : x ≤ s * t * (x ⌈/⌉ (s * t)) := (ceilDiv_le_iff_le_mul hpos).1 (Nat.le_refl _)
  have hearly : x * (d * s / p) < (roundEarly x d p s t + 1) * (s * t) := by
    rw [Nat.add_mul, Nat.one_mul]
    exact Nat.lt_div_mul_add hpos
  have hlt : roundLate x d p t * (s * t) < (roundEarly x d p s t + 1 + x ⌈/⌉ (s * t)) * (s * t) := by
    calc roundLate x d p t * (s * t)
        ≤ x * (d * s / p) + x := roundLate_mul_le hp
      _ < (roundEarly x d p s t + 1) * (s * t) + s * t * (x ⌈/⌉ (s * t)) :=
          Nat.add_lt_add_of_lt_of_le hearly hceil
      _ = (roundEarly x d p s t + 1 + x ⌈/⌉ (s * t)) * (s * t) := by ring
  have hquotient := Nat.lt_of_mul_lt_mul_right hlt
  omega

end

end Lib
