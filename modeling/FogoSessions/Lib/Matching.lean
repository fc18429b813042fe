import Mathlib.Data.Fin.Tuple.Basic
import Mathlib.Data.List.Basic
import Mathlib.Order.Fin.Basic
import Mathlib.Order.Monotone.Basic
import Mathlib.Data.Set.Operations

/-!
# Order-preserving matchings

`Matches sat required as bs`: every element of `as` is matched with an element of `bs`, in order,
and the elements of `bs` that are left out are not required. It is what a two-pointer loop over
both lists builds; `Matches.strictMono` reads it as a strictly increasing map of positions.
-/

namespace Lib

variable {α β : Type} {sat : α → β → Prop} {required : β → Prop}

inductive Matches (sat : α → β → Prop) (required : β → Prop) : List α → List β → Prop where
  | nil : Matches sat required [] []
  | skip {as : List α} {b : β} {bs : List β} :
    ¬ required b → Matches sat required as bs → Matches sat required as (b :: bs)
  | take {a : α} {as : List α} {b : β} {bs : List β} :
    sat a b → Matches sat required as bs → Matches sat required (a :: as) (b :: bs)

/-- A matching of elements seen through `g`. -/
theorem Matches.map {γ : Type} {g : γ → α} {cs : List γ} {bs : List β}
    (h : Matches (fun c b => sat (g c) b) required cs bs) :
    Matches sat required (cs.map g) bs := by
  induction h with
  | nil => exact .nil
  | skip hb _ ih => exact .skip hb ih
  | take hab _ ih => exact .take hab ih

/-- A strictly increasing map of positions along which every element is matched, and whose image
    contains every required position. -/
structure IsMatching (sat : α → β → Prop) (required : β → Prop) (as : List α) (bs : List β)
    (f : Fin as.length → Fin bs.length) : Prop where
  strictMono : StrictMono f
  sat : ∀ i, sat (as.get i) (bs.get (f i))
  required : ∀ j, required (bs.get j) → j ∈ Set.range f

theorem IsMatching.skip {as : List α} {b : β} {bs : List β} {f : Fin as.length → Fin bs.length}
    (h : IsMatching sat required as bs f) (hb : ¬ required b) :
    IsMatching sat required as (b :: bs) fun i => (f i).succ where
  strictMono _ _ hij := Fin.succ_lt_succ_iff.2 (h.strictMono hij)
  sat := h.sat
  required j hj := by
    induction j using Fin.cases with
    | zero => exact absurd hj hb
    | succ j =>
      obtain ⟨i, hi⟩ := h.required j hj
      exact ⟨i, congrArg Fin.succ hi⟩

theorem IsMatching.take {a : α} {as : List α} {b : β} {bs : List β}
    {f : Fin as.length → Fin bs.length} (h : IsMatching sat required as bs f) (hab : sat a b) :
    IsMatching sat required (a :: as) (b :: bs)
      (Fin.cases (motive := fun _ => Fin (b :: bs).length) 0 fun i => (f i).succ) where
  strictMono i j hij := by
    induction j using Fin.cases with
    | zero => exact absurd hij (Fin.not_lt_zero i)
    | succ j =>
      induction i using Fin.cases with
      | zero => exact Fin.succ_pos _
      | succ i => exact Fin.succ_lt_succ_iff.2 (h.strictMono (Fin.succ_lt_succ_iff.1 hij))
  sat i := by
    induction i using Fin.cases with
    | zero => exact hab
    | succ i => exact h.sat i
  required j hj := by
    induction j using Fin.cases with
    | zero => exact ⟨0, rfl⟩
    | succ j =>
      obtain ⟨i, hi⟩ := h.required j hj
      exact ⟨i.succ, congrArg Fin.succ hi⟩

/-- A matching as a strictly increasing map. -/
theorem Matches.strictMono {as : List α} {bs : List β} (h : Matches sat required as bs) :
    ∃ f, IsMatching sat required as bs f := by
  induction h with
  | nil => exact ⟨Fin.elim0, fun i => i.elim0, fun i => i.elim0, fun j => j.elim0⟩
  | skip hb _ ih =>
    obtain ⟨f, hf⟩ := ih
    exact ⟨_, hf.skip hb⟩
  | take hab _ ih =>
    obtain ⟨f, hf⟩ := ih
    exact ⟨_, hf.take hab⟩

/-- A matching of the first element with the first element. -/
theorem IsMatching.of_take {a : α} {as : List α} {b : β} {bs : List β}
    {f : Fin (a :: as).length → Fin (b :: bs).length}
    (h : IsMatching sat required (a :: as) (b :: bs) f) (h0 : f 0 = 0) :
    sat a b ∧ ∃ g, IsMatching sat required as bs g := by
  have hpos (i : Fin as.length) : f i.succ ≠ 0 := by
    have hlt := h.strictMono (Fin.succ_pos i)
    rw [h0] at hlt
    exact Fin.pos_iff_ne_zero.1 hlt
  have hsucc (i : Fin as.length) : ((f i.succ).pred (hpos i)).succ = f i.succ :=
    Fin.succ_pred _ _
  refine ⟨by simpa [h0] using h.sat 0, fun i => (f i.succ).pred (hpos i), ?_, fun i => ?_,
    fun j hj => ?_⟩
  · exact fun i j hij => Fin.pred_lt_pred_iff.2 (h.strictMono (Fin.succ_lt_succ_iff.2 hij))
  · have hsat := h.sat i.succ
    rw [← hsucc i] at hsat
    exact hsat
  · obtain ⟨i, hi⟩ := h.required j.succ hj
    induction i using Fin.cases with
    | zero => exact absurd (h0.symm.trans hi) (Fin.succ_ne_zero j).symm
    | succ i => exact ⟨i, Fin.succ_injective _ ((hsucc i).trans hi)⟩

/-- A matching that leaves the first element out. -/
theorem IsMatching.of_skip {as : List α} {b : β} {bs : List β}
    {f : Fin as.length → Fin (b :: bs).length} (h : IsMatching sat required as (b :: bs) f)
    (h0 : ∀ i, f i ≠ 0) : ¬ required b ∧ ∃ g, IsMatching sat required as bs g := by
  have hsucc (i : Fin as.length) : ((f i).pred (h0 i)).succ = f i := Fin.succ_pred _ _
  refine ⟨fun hb => ?_, fun i => (f i).pred (h0 i), ?_, fun i => ?_, fun j hj => ?_⟩
  · obtain ⟨i, hi⟩ := h.required 0 hb
    exact h0 i hi
  · exact fun i j hij => Fin.pred_lt_pred_iff.2 (h.strictMono hij)
  · have hsat := h.sat i
    rw [← hsucc i] at hsat
    exact hsat
  · obtain ⟨i, hi⟩ := h.required j.succ hj
    exact ⟨i, Fin.succ_injective _ ((hsucc i).trans hi)⟩

/-- A strictly increasing map as a matching. -/
theorem IsMatching.matches :
    ∀ {bs : List β} {as : List α} {f : Fin as.length → Fin bs.length},
      IsMatching sat required as bs f → Matches sat required as bs
  | [], [], _, _ => .nil
  | [], a :: as, f, _ => (f 0).elim0
  | b :: bs, [], f, h => by
    obtain ⟨hb, g, hg⟩ := h.of_skip fun i => i.elim0
    exact .skip hb hg.matches
  | b :: bs, a :: as, f, h => by
    by_cases h0 : f 0 = 0
    · obtain ⟨hab, g, hg⟩ := h.of_take h0
      exact .take hab hg.matches
    · have hskip (i : Fin (a :: as).length) : f i ≠ 0 := by
        intro hi
        have hle : f 0 ≤ f i := h.strictMono.monotone (Fin.zero_le i)
        rw [hi] at hle
        exact h0 (Fin.le_zero_iff.1 hle)
      obtain ⟨hb, g, hg⟩ := h.of_skip hskip
      exact .skip hb hg.matches

/-- Every element is matched with one that it satisfies. -/
theorem Matches.exists_sat {as : List α} {bs : List β} (h : Matches sat required as bs) :
    ∀ a ∈ as, ∃ b ∈ bs, sat a b := by
  induction h with
  | nil => exact List.forall_mem_nil _
  | @skip as b bs _ _ ih =>
    intro a ha
    obtain ⟨b', hb', hsat⟩ := ih a ha
    exact ⟨b', List.mem_cons_of_mem b hb', hsat⟩
  | @take a as b bs hab _ ih =>
    refine List.forall_mem_cons.2 ⟨⟨b, List.mem_cons_self, hab⟩, fun a' ha' => ?_⟩
    obtain ⟨b', hb', hsat⟩ := ih a' ha'
    exact ⟨b', List.mem_cons_of_mem b hb', hsat⟩

/-! ## The greedy matching -/

/-- What the two-pointer loop does: the next element is matched as soon as it satisfies one of `bs`,
    and what it does not satisfy is left out. The last list is what remains of `as`. -/
inductive Greedy (sat : α → β → Prop) (required : β → Prop) :
    List α → List β → List α → Prop where
  | done (as : List α) : Greedy sat required as [] as
  | take {a : α} {as rest : List α} {b : β} {bs : List β} :
    sat a b → Greedy sat required as bs rest → Greedy sat required (a :: as) (b :: bs) rest
  | skip {as rest : List α} {b : β} {bs : List β} : (∀ a ∈ as.head?, ¬ sat a b) → ¬ required b →
    Greedy sat required as bs rest → Greedy sat required as (b :: bs) rest

theorem greedy_cons_of_sat {a : α} {as rest : List α} {b : β} {bs : List β} (hab : sat a b) :
    Greedy sat required (a :: as) (b :: bs) rest ↔ Greedy sat required as bs rest := by
  constructor
  · intro h
    cases h with
    | take _ h => exact h
    | skip hhead => exact absurd hab (hhead a rfl)
  · exact .take hab

theorem greedy_cons_of_not_sat {as rest : List α} {b : β} {bs : List β}
    (h : ∀ a ∈ as.head?, ¬ sat a b) :
    Greedy sat required as (b :: bs) rest ↔ ¬ required b ∧ Greedy sat required as bs rest := by
  constructor
  · intro hgreedy
    cases hgreedy with
    | take hab => exact absurd hab (h _ rfl)
    | skip _ hb hrest => exact ⟨hb, hrest⟩
  · rintro ⟨hb, hrest⟩
    exact .skip h hb hrest

theorem Greedy.unique {as rest rest' : List α} {bs : List β} (h : Greedy sat required as bs rest)
    (h' : Greedy sat required as bs rest') : rest = rest' := by
  induction h with
  | done as =>
    cases h'
    rfl
  | take hab _ ih => exact ih ((greedy_cons_of_sat hab).1 h')
  | skip hhead _ _ ih => exact ih ((greedy_cons_of_not_sat hhead).1 h').2

/-- The greedy matching is a matching of what it consumes. -/
theorem Greedy.matches {as rest : List α} {bs : List β} (h : Greedy sat required as bs rest) :
    ∃ consumed, as = consumed ++ rest ∧ Matches sat required consumed bs := by
  induction h with
  | done as => exact ⟨[], rfl, .nil⟩
  | take hab _ ih =>
    obtain ⟨consumed, rfl, hmatches⟩ := ih
    exact ⟨_ :: consumed, rfl, .take hab hmatches⟩
  | skip _ hb _ ih =>
    obtain ⟨consumed, rfl, hmatches⟩ := ih
    exact ⟨consumed, rfl, .skip hb hmatches⟩

/-- No element satisfies both one of `bs` that may be left out and a later one. -/
def Unambiguous (sat : α → β → Prop) (required : β → Prop) (as : List α) (bs : List β) : Prop :=
  bs.Pairwise fun b b' => ¬ required b → ∀ a ∈ as, sat a b → ¬ sat a b'

/-- Without ambiguity, the greedy matching is complete. -/
theorem Matches.greedy {as : List α} {bs : List β} (h : Matches sat required as bs)
    (hamb : Unambiguous sat required as bs) : Greedy sat required as bs [] := by
  induction h with
  | nil => exact .done []
  | @skip as b bs hb hrest ih =>
    obtain ⟨hfirst, hlater⟩ := List.pairwise_cons.1 hamb
    refine .skip (fun a ha hab => ?_) hb (ih hlater)
    -- an element that satisfies `b` would be matched with a later one
    have hmem : a ∈ as := List.mem_of_mem_head? ha
    obtain ⟨b', hb', hsat⟩ := hrest.exists_sat a hmem
    exact hfirst b' hb' hb a hmem hab hsat
  | @take a as b bs hab _ ih =>
    have hlater := (List.pairwise_cons.1 hamb).2
    exact .take hab (ih (hlater.imp fun h hb a' ha' => h hb a' (List.mem_cons_of_mem a ha')))

/-- Adding elements that may be left out keeps a complete greedy matching, when nothing satisfies
    both an added one and a later one that is not added. -/
theorem Greedy.of_filter {added : β → Bool} {as : List α} :
    ∀ {bs : List β}, (∀ b ∈ bs, added b = true → ¬ required b) →
      bs.Pairwise (fun b b' => added b = true → added b' = false → ∀ a ∈ as, sat a b → ¬ sat a b') →
      Greedy sat required as (bs.filter fun b => ¬ added b) [] → Greedy sat required as bs []
  | [], _, _, h => h
  | b :: bs, hopt, hamb, h => by
    obtain ⟨hfirst, hlater⟩ := List.pairwise_cons.1 hamb
    have hopt' : ∀ b ∈ bs, added b = true → ¬ required b :=
      fun b' hb' => hopt b' (List.mem_cons_of_mem b hb')
    by_cases hb : added b = true
    · rw [List.filter_cons_of_neg (by simpa using hb)] at h
      refine .skip (fun a ha hab => ?_) (hopt b List.mem_cons_self hb) (h.of_filter hopt' hlater)
      have hmem : a ∈ as := List.mem_of_mem_head? ha
      obtain ⟨consumed, hconsumed, hmatches⟩ := h.matches
      rw [List.append_nil] at hconsumed
      obtain ⟨b', hb', hsat⟩ := hmatches.exists_sat a (hconsumed ▸ hmem)
      obtain ⟨hb', hadded⟩ := List.mem_filter.1 hb'
      exact hfirst b' hb' hb (by simpa using hadded) a hmem hab hsat
    · rw [List.filter_cons_of_pos (by simpa using hb)] at h
      cases h with
      | take hab h =>
        refine .take hab (h.of_filter hopt' (hlater.imp fun hp hx hy a' ha' => ?_))
        exact hp hx hy a' (List.mem_cons_of_mem _ ha')
      | skip hhead hreq h => exact .skip hhead hreq (h.of_filter hopt' hlater)

/-- The greedy matching with elements seen through `g`. -/
theorem greedy_map {γ : Type} {g : γ → β} {as rest : List α} {cs : List γ} :
    Greedy sat required as (cs.map g) rest ↔
      Greedy (fun a c => sat a (g c)) (fun c => required (g c)) as cs rest := by
  constructor
  · intro h
    induction cs generalizing as with
    | nil =>
      cases h
      exact .done _
    | cons c cs ih =>
      cases h with
      | take hab h => exact .take hab (ih h)
      | skip hhead hreq h => exact .skip hhead hreq (ih h)
  · intro h
    induction h with
    | done as => exact .done as
    | take hab _ ih => exact .take hab ih
    | skip hhead hreq _ ih => exact .skip hhead hreq ih

end Lib
