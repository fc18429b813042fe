import Mathlib.Data.List.Nodup

/-!
# Counters

A history of numbers, newest first, that count what happened: each is one more than the number of the
older ones.
-/

namespace Lib

/-- The numbers are `k, …, 2, 1`. -/
inductive Counted : List Nat → Prop where
  | nil : Counted []
  | cons {ns : List Nat} : Counted ns → Counted ((ns.length + 1) :: ns)

namespace Counted

variable {n : Nat} {ns : List Nat}

/-- The newest number says how many there are. -/
theorem head_eq (h : Counted (n :: ns)) : n = ns.length + 1 := by
  cases h
  rfl

theorem reverse_eq (h : Counted ns) : ns.reverse = List.range' 1 ns.length := by
  induction h with
  | nil => rfl
  | @cons ns _ ih =>
    rw [List.reverse_cons, ih, List.length_cons, List.range'_concat, Nat.one_mul, Nat.add_comm]

/-- Nothing is counted twice. -/
theorem nodup (h : Counted ns) : ns.Nodup := by
  rw [← List.nodup_reverse, h.reverse_eq]
  exact List.nodup_range'

end Counted

/-- What is counted apart for each key is told apart by its key and its number. -/
theorem nodup_of_fibers {α κ : Type} [DecidableEq κ] {key : α → κ} {number : α → Nat} {xs : List α}
    (h : ∀ k, ((xs.filter fun x => key x = k).map number).Nodup) :
    (xs.map fun x => (key x, number x)).Nodup := by
  induction xs with
  | nil => exact List.nodup_nil
  | cons x xs ih =>
    rw [List.map_cons, List.nodup_cons]
    constructor
    · intro hmem
      obtain ⟨y, hy, heq⟩ := List.mem_map.1 hmem
      obtain ⟨hkey, hnumber⟩ := Prod.mk.inj heq
      have hx := h (key x)
      rw [List.filter_cons_of_pos (by simp), List.map_cons, List.nodup_cons] at hx
      refine hx.1 (List.mem_map.2 ⟨y, ?_, hnumber⟩)
      exact List.mem_filter.2 ⟨hy, by simpa using hkey⟩
    · refine ih fun k => ?_
      have hk := h k
      by_cases hkey : key x = k
      · rw [List.filter_cons_of_pos (by simpa using hkey), List.map_cons, List.nodup_cons] at hk
        exact hk.2
      · rwa [List.filter_cons_of_neg (by simpa using hkey)] at hk

end Lib
