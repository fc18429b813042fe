import Mathlib.Data.Int.CardIntervalMod
import Mathlib.Data.List.Nodup

/-!
# Taking turns

The entries of a list in turn, over and over. When they are distinct, no entry has been taken more than
once more than another.
-/

namespace Lib

variable {α : Type} [DecidableEq α]

/-- The entry whose turn it is after `i` turns. -/
def inTurn (xs : List α) (hne : xs ≠ []) (i : Nat) : α :=
  xs.get ⟨i % xs.length, Nat.mod_lt i (List.length_pos_iff.2 hne)⟩

variable {xs : List α} (hne : xs ≠ [])

omit [DecidableEq α] in
/-- Distinct entries have their turns at distinct remainders. -/
theorem inTurn_eq_get_iff (hnodup : xs.Nodup) {i : Nat} {j : Fin xs.length} :
    inTurn xs hne i = xs.get j ↔ i ≡ j [MOD xs.length] := by
  have hj : j % xs.length = j := Nat.mod_eq_of_lt j.isLt
  rw [inTurn, hnodup.get_inj_iff, Fin.ext_iff, Nat.ModEq, hj]

/-- How often an entry has been taken after `k` turns. -/
theorem count_inTurn (hnodup : xs.Nodup) (k : Nat) (j : Fin xs.length) :
    ((List.range k).map (inTurn xs hne)).count (xs.get j) =
      k / xs.length + if (j : Nat) < k % xs.length then 1 else 0 := by
  have hpos : 0 < xs.length := List.length_pos_iff.2 hne
  have hcount := Nat.count_modEq_card k hpos j
  rw [Nat.mod_eq_of_lt j.isLt] at hcount
  rw [← hcount, List.count, List.countP_map, Nat.count]
  refine List.countP_congr fun i _ => ?_
  simp only [Function.comp_apply, beq_iff_eq, decide_eq_true_eq]
  exact inTurn_eq_get_iff hne hnodup

theorem count_inTurn_le (hnodup : xs.Nodup) (k : Nat) {a b : α} (ha : a ∈ xs) (hb : b ∈ xs) :
    ((List.range k).map (inTurn xs hne)).count a ≤
      ((List.range k).map (inTurn xs hne)).count b + 1 := by
  obtain ⟨i, rfl⟩ := List.get_of_mem ha
  obtain ⟨j, rfl⟩ := List.get_of_mem hb
  rw [count_inTurn hne hnodup, count_inTurn hne hnodup]
  split <;> omega

end Lib
