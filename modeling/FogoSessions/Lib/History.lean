import Mathlib.Tactic.Common

/-!
# Histories

A history lists what happened, newest first. `Since` finds an entry of it that nothing of a certain
kind has followed.
-/

namespace Lib

variable {α : Type}

/-- The history has the entry `e`, with `older` before it and nothing but `quiet` entries after it. -/
inductive Since (quiet : α → Prop) (e : α) (older : List α) : List α → Prop where
  | here : Since quiet e older (e :: older)
  | later {x : α} {log : List α} : quiet x → Since quiet e older log → Since quiet e older (x :: log)

namespace Since

variable {quiet : α → Prop} {e e' : α} {older older' log : List α}

theorem iff_append :
    Since quiet e older log ↔ ∃ newer, log = newer ++ e :: older ∧ ∀ x ∈ newer, quiet x := by
  constructor
  · intro h
    induction h with
    | here => exact ⟨[], rfl, by simp⟩
    | @later x log hx _ ih =>
      obtain ⟨newer, rfl, hquiet⟩ := ih
      exact ⟨x :: newer, rfl, List.forall_mem_cons.2 ⟨hx, hquiet⟩⟩
  · rintro ⟨newer, rfl, hquiet⟩
    induction newer with
    | nil => exact .here
    | cons x newer ih =>
      obtain ⟨hx, hquiet⟩ := List.forall_mem_cons.1 hquiet
      exact .later hx (ih hquiet)

theorem mono {quiet' : α → Prop} (h : ∀ x, quiet x → quiet' x) (hs : Since quiet e older log) :
    Since quiet' e older log := by
  induction hs with
  | here => exact .here
  | later hx _ ih => exact .later (h _ hx) ih

theorem mem (h : Since quiet e older log) : e ∈ log := by
  obtain ⟨newer, rfl, -⟩ := iff_append.1 h
  simp

theorem subset (h : Since quiet e older log) : older ⊆ log := by
  obtain ⟨newer, rfl, -⟩ := iff_append.1 h
  intro x hx
  simp [hx]

/-- The last entry that is not quiet is one entry. -/
theorem unique (he : ¬ quiet e) (he' : ¬ quiet e') (h : Since quiet e older log)
    (h' : Since quiet e' older' log) : e = e' ∧ older = older' := by
  induction h with
  | here =>
    cases h' with
    | here => exact ⟨rfl, rfl⟩
    | later hx _ => exact absurd hx he
  | later hx _ ih =>
    cases h' with
    | here => exact absurd hx he'
    | later _ h' => exact ih h'

/-- What happened since and is still the last word: it just happened, or it did before and nothing
    undid it. -/
theorem exists_cons {P : α → Prop} {x : α} :
    (∃ e older, P e ∧ Since quiet e older (x :: log)) ↔
      P x ∨ quiet x ∧ ∃ e older, P e ∧ Since quiet e older log := by
  constructor
  · rintro ⟨e, older, he, h⟩
    cases h with
    | here => exact .inl he
    | later hx h => exact .inr ⟨hx, e, older, he, h⟩
  · rintro (hx | ⟨hx, e, older, he, h⟩)
    · exact ⟨x, log, hx, .here⟩
    · exact ⟨e, older, he, .later hx h⟩

end Since

end Lib
