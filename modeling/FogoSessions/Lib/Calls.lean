import FogoSessions.Lib.Task

/-!
# The calls of a run

`Performs` lists what a run of a task calls, with the answers, in order. `rename` and `mapError` let
tasks with different operations and errors be parts of one.
-/

namespace Lib.Task

variable {Op Op' : Type} {Ans : Op → Type} {Ans' : Op' → Type} {ε ε' α β : Type}

/-- A run of the task: its calls with their answers, and its result. -/
inductive Performs : Task Op Ans ε α → List (Sigma Ans) → Except ε α → Prop where
  | done (r : Except ε α) : Performs (done r) [] r
  | call {op : Op} {next : Ans op → Task Op Ans ε α} {calls : List (Sigma Ans)} {r : Except ε α}
      (x : Ans op) : Performs (next x) calls r → Performs (call op next) (⟨op, x⟩ :: calls) r

section

variable {t : Task Op Ans ε α} {f : α → Task Op Ans ε β} {calls : List (Sigma Ans)}

theorem bind_assoc {γ : Type} (t : Task Op Ans ε α) (f : α → Task Op Ans ε β)
    (g : β → Task Op Ans ε γ) : (t >>= f) >>= g = t >>= fun a => f a >>= g := by
  induction t with
  | done r =>
    cases r with
    | ok a => rfl
    | error e => rfl
  | call op next ih => exact congrArg (call op) (funext ih)

theorem performs_lift {x r : Except ε α} (h : (lift x : Task Op Ans ε α).Performs calls r) :
    calls = [] ∧ r = x := by
  cases h
  exact ⟨rfl, rfl⟩

theorem performs_perform_bind {op : Op} {f : Ans op → Task Op Ans ε β} {r : Except ε β}
    (h : (perform op >>= f).Performs calls r) :
    ∃ x rest, calls = ⟨op, x⟩ :: rest ∧ (f x).Performs rest r := by
  cases h with
  | call x h => exact ⟨x, _, rfl, h⟩

/-- A run of a sequence is one of its first part that fails, or one of both parts. -/
theorem Performs.of_bind {r : Except ε β} (h : (t >>= f).Performs calls r) :
    (∃ e, r = .error e ∧ t.Performs calls (.error e)) ∨
      ∃ a before after, calls = before ++ after ∧ t.Performs before (.ok a) ∧
        (f a).Performs after r := by
  induction t generalizing calls with
  | done x =>
    cases x with
    | ok a => exact .inr ⟨a, [], calls, rfl, .done _, h⟩
    | error e =>
      obtain ⟨rfl, rfl⟩ := performs_lift h
      exact .inl ⟨e, rfl, .done _⟩
  | call op next ih =>
    cases h with
    | call x h =>
      obtain ⟨e, hr, hfails⟩ | ⟨a, before, after, rfl, hbefore, hafter⟩ := ih x h
      · exact .inl ⟨e, hr, .call x hfails⟩
      · exact .inr ⟨a, ⟨op, x⟩ :: before, after, rfl, .call x hbefore, hafter⟩

/-- A caught run is one that returned, failed or panicked. -/
theorem Performs.of_attempt {t : Task Op Ans (Fault ε) α} {calls : List (Sigma Ans)}
    {r : Except (Fault ε) (Except ε α)} (h : t.attempt.Performs calls r) :
    (∃ a, r = .ok (.ok a) ∧ t.Performs calls (.ok a)) ∨
      (∃ e, r = .ok (.error e) ∧ t.Performs calls (.error (.err e))) ∨
      r = .error .panic ∧ t.Performs calls (.error .panic) := by
  induction t generalizing calls with
  | done x =>
    match x, h with
    | .ok a, h =>
      obtain ⟨rfl, rfl⟩ := performs_lift h
      exact .inl ⟨a, rfl, .done _⟩
    | .error (.err e), h =>
      obtain ⟨rfl, rfl⟩ := performs_lift h
      exact .inr (.inl ⟨e, rfl, .done _⟩)
    | .error .panic, h =>
      obtain ⟨rfl, rfl⟩ := performs_lift h
      exact .inr (.inr ⟨rfl, .done _⟩)
  | call op next ih =>
    cases h with
    | call x h =>
      obtain ⟨a, hr, hrun⟩ | ⟨e, hr, hrun⟩ | ⟨hr, hrun⟩ := ih x h
      · exact .inl ⟨a, hr, .call x hrun⟩
      · exact .inr (.inl ⟨e, hr, .call x hrun⟩)
      · exact .inr (.inr ⟨hr, .call x hrun⟩)

/-- A loop that fails does so at one of its elements. -/
theorem Performs.of_forM {κ : Type} {f : κ → Task Op Ans ε Unit} {e : ε} :
    ∀ {xs : List κ} {calls : List (Sigma Ans)}, (xs.forM f).Performs calls (.error e) →
      ∃ x ∈ xs, ∃ calls', (f x).Performs calls' (.error e)
  | [], calls, h => by cases h
  | x :: xs, calls, h => by
    have h : (f x >>= fun _ => xs.forM f).Performs calls (.error e) := h
    obtain ⟨e', he, hx⟩ | ⟨_, _, after, -, -, hxs⟩ := Performs.of_bind h
    · cases he
      exact ⟨x, List.mem_cons_self, _, hx⟩
    · obtain ⟨y, hy, hfails⟩ := Performs.of_forM hxs
      exact ⟨y, List.mem_cons_of_mem x hy, hfails⟩

/-- A run whose answers meet the rely. -/
theorem Meets.performs {c : Contract Op Ans} {post : Except ε α → Prop} {r : Except ε α}
    (h : t.Meets c post) (hrun : t.Performs calls r) (hrely : ∀ x ∈ calls, c.rely x.1 x.2) :
    (∀ x ∈ calls, c.guar x.1) ∧ post r := by
  induction hrun with
  | done r => exact ⟨fun x hx => absurd hx List.not_mem_nil, h⟩
  | @call op next calls r x _ ih =>
    obtain ⟨hx, hcalls⟩ := List.forall_mem_cons.1 hrely
    obtain ⟨hguar, hpost⟩ := ih (h.2 x hx) hcalls
    exact ⟨List.forall_mem_cons.2 ⟨h.1, hguar⟩, hpost⟩

/-- More can be assumed, and less ensured. -/
theorem Meets.weaken {c c' : Contract Op Ans} {post : Except ε α → Prop} (h : t.Meets c post)
    (hrely : ∀ op x, c'.rely op x → c.rely op x) (hguar : ∀ op, c.guar op → c'.guar op) :
    t.Meets c' post := by
  induction t with
  | done r => exact h
  | call op next ih => exact ⟨hguar op h.1, fun x hx => ih x (h.2 x (hrely op x hx))⟩

end

/-! ## Tasks that call little -/

/-- Whatever is answered, the task calls nothing but these. -/
def CallsOnly (Q : Op → Prop) (t : Task Op Ans ε α) : Prop :=
  t.Meets { rely := fun _ _ => True, guar := Q } fun _ => True

section

variable {Q : Op → Prop}

theorem callsOnly_lift {x : Except ε α} : (lift x : Task Op Ans ε α).CallsOnly Q := trivial

theorem callsOnly_perform {op : Op} (h : Q op) : (perform op : Task Op Ans ε (Ans op)).CallsOnly Q :=
  ⟨h, fun _ _ => trivial⟩

theorem CallsOnly.bind {t : Task Op Ans ε α} {f : α → Task Op Ans ε β} (ht : t.CallsOnly Q)
    (hf : ∀ a, (f a).CallsOnly Q) : (t >>= f).CallsOnly Q :=
  Meets.bind ht (fun a _ => hf a) fun _ _ => trivial

theorem CallsOnly.attempt {t : Task Op Ans (Fault ε) α} (ht : t.CallsOnly Q) :
    t.attempt.CallsOnly Q := by
  refine meets_attempt.2 (Meets.mono (fun r _ => ?_) ht)
  cases r with
  | ok a => trivial
  | error e => cases e <;> trivial

theorem callsOnly_forM {κ : Type} {f : κ → Task Op Ans ε Unit} {xs : List κ}
    (h : ∀ x, (f x).CallsOnly Q) : (xs.forM f).CallsOnly Q := by
  induction xs with
  | nil => trivial
  | cons x xs ih => exact (h x).bind fun _ => ih

theorem callsOnly_foldlM {σ κ : Type} {f : σ → κ → Task Op Ans ε σ} {xs : List κ}
    (h : ∀ s x, (f s x).CallsOnly Q) (s : σ) : (xs.foldlM f s).CallsOnly Q := by
  induction xs generalizing s with
  | nil => trivial
  | cons x xs ih => exact (h s x).bind ih

theorem callsOnly_of_forall (h : ∀ op, Q op) (t : Task Op Ans ε α) : t.CallsOnly Q := by
  induction t with
  | done r => trivial
  | call op next ih => exact ⟨h op, fun x _ => ih x⟩

theorem CallsOnly.performs {t : Task Op Ans ε α} {calls : List (Sigma Ans)} {r : Except ε α}
    (h : t.CallsOnly Q) (hrun : t.Performs calls r) : ∀ x ∈ calls, Q x.1 :=
  (Meets.performs h hrun fun _ _ => trivial).1

end

/-! ## Parts of a larger task -/

/-- The task with its calls under other names. -/
def rename (f : Op → Op') (g : (op : Op) → Ans' (f op) → Ans op) :
    Task Op Ans ε α → Task Op' Ans' ε α
  | done r => done r
  | call op next => call (f op) fun x => rename f g (next (g op x))

/-- The task with its error in another form. -/
def mapError (f : ε → ε') : Task Op Ans ε α → Task Op Ans ε' α
  | done r => done (mapErr f r)
  | call op next => call op fun x => mapError f (next x)

variable {t : Task Op Ans ε α} {f : Op → Op'} {g : (op : Op) → Ans' (f op) → Ans op}

/-- A run of the renamed task is a run of the task. -/
theorem Performs.of_rename {calls : List (Sigma Ans')} {r : Except ε α}
    (h : (t.rename f g).Performs calls r) :
    ∃ calls', t.Performs calls' r ∧
      List.Forall₂ (fun x y => ∃ a, y = ⟨f x.1, a⟩ ∧ g x.1 a = x.2) calls' calls := by
  induction t generalizing calls with
  | done r' =>
    obtain ⟨rfl, rfl⟩ := performs_lift h
    exact ⟨[], .done _, .nil⟩
  | call op next ih =>
    cases h with
    | call x h =>
      obtain ⟨calls', hrun, hcalls⟩ := ih _ h
      exact ⟨⟨op, g op x⟩ :: calls', .call _ hrun, .cons ⟨x, rfl, rfl⟩ hcalls⟩

theorem Meets.mapError {c : Contract Op Ans} {h : ε → ε'} {post : Except ε' α → Prop}
    (ht : t.Meets c fun r => post (mapErr h r)) : (t.mapError h).Meets c post := by
  induction t with
  | done r => exact ht
  | call op next ih => exact ⟨ht.1, fun x hx => ih x (ht.2 x hx)⟩

theorem CallsOnly.rename {Q : Op → Prop} {Q' : Op' → Prop} (h : t.CallsOnly Q)
    (hQ : ∀ op, Q op → Q' (f op)) : (t.rename f g).CallsOnly Q' := by
  induction t with
  | done r => trivial
  | call op next ih => exact ⟨hQ op h.1, fun x _ => ih (g op x) (h.2 _ trivial)⟩

theorem CallsOnly.mapError {Q : Op → Prop} {h : ε → ε'} (ht : t.CallsOnly Q) :
    (t.mapError h).CallsOnly Q := Meets.mapError ht

theorem Performs.of_mapError {calls : List (Sigma Ans)} {h : ε → ε'} {r : Except ε' α}
    (hrun : (t.mapError h).Performs calls r) : ∃ r', t.Performs calls r' ∧ r = mapErr h r' := by
  induction t generalizing calls with
  | done r' =>
    obtain ⟨rfl, rfl⟩ := performs_lift hrun
    exact ⟨r', .done _, rfl⟩
  | call op next ih =>
    cases hrun with
    | call x hrun =>
      obtain ⟨r', hrun, hr⟩ := ih _ hrun
      exact ⟨r', .call x hrun, hr⟩

/-! ## Operations that are tasks themselves -/

/-- The task with each of its operations carried out by another task. -/
def handle (f : (op : Op) → Task Op' Ans' ε (Ans op)) : Task Op Ans ε α → Task Op' Ans' ε α
  | done r => done r
  | call op next => f op >>= fun x => handle f (next x)

theorem handle_lift_bind {f : (op : Op) → Task Op' Ans' ε (Ans op)} {x : Except ε α}
    {next : α → Task Op Ans ε β} :
    (lift x >>= next).handle f = lift x >>= fun a => (next a).handle f := by
  cases x <;> rfl

end Lib.Task
