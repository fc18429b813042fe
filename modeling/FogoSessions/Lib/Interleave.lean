import FogoSessions.Lib.Task
import Mathlib.Logic.Relation

/-!
# Tasks that share a world

Any number of tasks run at once against one shared state, which answers their calls and which others
change between two calls. `Respects` says when a task that meets its contract alone keeps it among the
others; `Respects.run` is the rule that this gives for every interleaving.
-/

namespace Lib.Task

variable {Op : Type} {Ans : Op → Type} {ε α κ σ : Type}

/-- What the shared state does: it answers calls, and others change it. -/
structure Sharing (Op : Type) (Ans : Op → Type) (σ : Type) where
  answers : σ → (op : Op) → Ans op → σ → Prop
  moves : σ → σ → Prop

/-- The shared state, and the tasks in flight with what each was started for. -/
structure Pool (Op : Type) (Ans : Op → Type) (ε α κ σ : Type) where
  state : σ
  tasks : List (κ × Task Op Ans ε α)

variable (E : Sharing Op Ans σ) (start : κ → Task Op Ans ε α)

inductive Step : Pool Op Ans ε α κ σ → Pool Op Ans ε α κ σ → Prop where
  /-- others change the state -/
  | move {s s' : σ} {tasks : List (κ × Task Op Ans ε α)} :
      E.moves s s' → Step ⟨s, tasks⟩ ⟨s', tasks⟩
  /-- a task is started -/
  | spawn {s : σ} {tasks : List (κ × Task Op Ans ε α)} (k : κ) :
      Step ⟨s, tasks⟩ ⟨s, (k, start k) :: tasks⟩
  /-- a task makes its next call -/
  | call {s s' : σ} {before after : List (κ × Task Op Ans ε α)} {k : κ} {op : Op}
      {next : Ans op → Task Op Ans ε α} {x : Ans op} :
      E.answers s op x s' →
      Step ⟨s, before ++ (k, .call op next) :: after⟩ ⟨s', before ++ (k, next x) :: after⟩

/-- The pools that a run can reach from a state without tasks. -/
def Runs (s : σ) (p : Pool Op Ans ε α κ σ) : Prop :=
  Relation.ReflTransGen (Step E start) ⟨s, []⟩ p

/-- The state keeps an invariant and only moves forward, and what it answered stays true of all that
    it can become. -/
structure Respects (I : σ → Prop) (le : σ → σ → Prop) (c : σ → Contract Op Ans) : Prop where
  refl : ∀ s, le s s
  trans : ∀ {s s' s''}, le s s' → le s' s'' → le s s''
  move : ∀ {s s'}, I s → E.moves s s' → I s' ∧ le s s'
  call : ∀ {s s' op x}, I s → (c s).guar op → E.answers s op x s' →
    I s' ∧ le s s' ∧ ∀ s'', le s' s'' → (c s'').rely op x

variable {E} {start} {I : σ → Prop} {le : σ → σ → Prop} {c : σ → Contract Op Ans}

/-- The task meets its contract in the present and in whatever follows. -/
def Lasting (le : σ → σ → Prop) (c : σ → Contract Op Ans) (post : σ → Except ε α → Prop) (s : σ)
    (t : Task Op Ans ε α) : Prop :=
  ∀ s', le s s' → t.Meets (c s') (post s')

theorem Lasting.later {post : σ → Except ε α → Prop} {s s' : σ} {t : Task Op Ans ε α}
    (hE : Respects E I le c) (h : Lasting le c post s t) (hle : le s s') :
    Lasting le c post s' t :=
  fun s'' hle' => h s'' (hE.trans hle hle')

/-- The rule of interleaving: when every task meets its contract by itself, the invariant holds in
    every state of every run, and every task that is done ended in its postcondition. -/
theorem Respects.run {post : κ → σ → Except ε α → Prop} (hE : Respects E I le c)
    (hstart : ∀ k s, (start k).Meets (c s) (post k s)) {s : σ} (hs : I s)
    {p : Pool Op Ans ε α κ σ} (hrun : Runs E start s p) :
    I p.state ∧ ∀ k t, (k, t) ∈ p.tasks → Lasting le c (post k) p.state t := by
  induction hrun with
  | refl => exact ⟨hs, fun _ _ h => absurd h List.not_mem_nil⟩
  | tail _ hstep ih =>
    obtain ⟨hI, htasks⟩ := ih
    cases hstep with
    | move hmove =>
      obtain ⟨hI', hle⟩ := hE.move hI hmove
      exact ⟨hI', fun k t ht => (htasks k t ht).later hE hle⟩
    | spawn k =>
      refine ⟨hI, fun k' t ht => ?_⟩
      rcases List.mem_cons.1 ht with heq | ht
      · cases heq
        exact fun s' _ => hstart k s'
      · exact htasks k' t ht
    | @call s s' before after k op next x hanswer =>
      have hcall := htasks k (.call op next) (by simp)
      obtain ⟨hI', hle, hrely⟩ := hE.call hI (hcall s (hE.refl s)).1 hanswer
      refine ⟨hI', fun k' t ht => ?_⟩
      rcases List.mem_append.1 ht with ht | ht
      · exact (htasks k' t (List.mem_append_left _ ht)).later hE hle
      · rcases List.mem_cons.1 ht with heq | ht
        · cases heq
          exact fun s'' hle' => (hcall s'' (hE.trans hle hle')).2 x (hrely s'' hle')
        · exact (htasks k' t
            (List.mem_append_right _ (List.mem_cons_of_mem _ ht))).later hE hle

/-- A task that is done ended in its postcondition. -/
theorem Respects.done {post : κ → σ → Except ε α → Prop} (hE : Respects E I le c)
    (hstart : ∀ k s, (start k).Meets (c s) (post k s)) {s : σ} (hs : I s)
    {p : Pool Op Ans ε α κ σ} (hrun : Runs E start s p) {k : κ} {r : Except ε α}
    (hdone : (k, .done r) ∈ p.tasks) : post k p.state r :=
  (hE.run hstart hs hrun).2 k _ hdone p.state (hE.refl _)

end Lib.Task
