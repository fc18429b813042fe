import Mathlib.Tactic.Common

/-!
# Computations that can fail

Inversion lemmas for `Except`: what a successful computation did, step by step. A proof about a
monadic function peels it apart with `bind_eq_ok` and never unfolds the monad. `require` and
`okOr` are the two ways a function refuses: a guard, and a missing value.
-/

namespace Lib

universe v

variable {ε ε' α β : Type} {κ : Type v}

theorem bind_eq_ok {x : Except ε α} {f : α → Except ε β} {b : β} :
    (x >>= f) = .ok b ↔ ∃ a, x = .ok a ∧ f a = .ok b := by
  cases x <;> simp [Bind.bind, Except.bind]

theorem bind_eq_error {x : Except ε α} {f : α → Except ε β} {e : ε} :
    x >>= f = .error e ↔ x = .error e ∨ ∃ a, x = .ok a ∧ f a = .error e := by
  cases x <;> simp [Bind.bind, Except.bind]

theorem ok_bind (a : α) (f : α → Except ε β) : (Except.ok a >>= f) = f a := rfl

theorem error_bind (e : ε) (f : α → Except ε β) : (Except.error e >>= f) = .error e := rfl

theorem map_eq_ok {x : Except ε α} {f : α → β} {b : β} :
    (f <$> x) = .ok b ↔ ∃ a, x = .ok a ∧ f a = b := by
  cases x <;> simp [Functor.map, Except.map]

theorem pure_eq_ok {a b : α} : (pure a : Except ε α) = .ok b ↔ a = b := by
  simp [pure, Except.pure]

theorem throw_ne_ok {e : ε} {a : α} : (throw e : Except ε α) ≠ .ok a := by
  simp [throw, throwThe, MonadExceptOf.throw]

/-- A guard: refuse with `e` unless `c` holds. -/
def require (c : Prop) [Decidable c] (e : ε) : Except ε Unit :=
  if c then .ok ⟨⟩ else .error e

theorem require_eq_ok {c : Prop} [Decidable c] {e : ε} {r : Unit} :
    require c e = .ok r ↔ c := by
  unfold require
  split <;> simp_all

theorem require_eq_error {c : Prop} [Decidable c] {e e' : ε} :
    (require c e : Except ε Unit) = .error e' ↔ ¬ c ∧ e = e' := by
  unfold require
  split <;> simp [*]

theorem require_congr {c d : Prop} [Decidable c] [Decidable d] (h : c ↔ d) (e : ε) :
    require c e = require d e := by
  unfold require
  simp only [h]

/-- A missing value is the error `e`. -/
def okOr (o : Option α) (e : ε) : Except ε α :=
  match o with
  | some a => .ok a
  | none => .error e

theorem okOr_eq_ok {o : Option α} {e : ε} {a : α} : okOr o e = .ok a ↔ o = some a := by
  cases o <;> simp [okOr]

theorem okOr_eq_error {x : Option α} {e e' : ε} :
    okOr x e = .error e' ↔ x = none ∧ e = e' := by
  cases x <;> simp [okOr]

theorem okOr_some (a : α) (e : ε) : okOr (some a) e = .ok a := rfl

/-- The same computation with its error translated. -/
def mapErr (f : ε → ε') : Except ε α → Except ε' α
  | .ok a => .ok a
  | .error e => .error (f e)

theorem mapErr_eq_ok {f : ε → ε'} {x : Except ε α} {a : α} :
    mapErr f x = .ok a ↔ x = .ok a := by
  cases x <;> simp [mapErr]

theorem mapErr_eq_error {f : ε → ε'} {x : Except ε α} {e : ε'} :
    mapErr f x = .error e ↔ ∃ e', x = .error e' ∧ f e' = e := by
  cases x <;> simp [mapErr]

theorem toOption_eq_some {x : Except ε α} {a : α} : x.toOption = some a ↔ x = .ok a := by
  cases x <;> simp [Except.toOption]

/-! ## Panics -/

/-- How a computation stops early: with an error it returns, or with a panic. -/
inductive Fault (ε : Type) where
  | err (error : ε)
  | panic
deriving DecidableEq

/-- The outcome of a computation that can also panic. -/
abbrev Outcome (ε α : Type) := Except (Fault ε) α

/-- Return the error `e`. -/
def bail (e : ε) : Outcome ε α := .error (.err e)

theorem bail_ne_ok {e : ε} {a : α} : (bail e : Outcome ε α) ≠ .ok a := by
  simp [bail]

/-- `xs[i]`: indexing out of bounds panics. -/
def index (xs : List α) (i : Nat) : Outcome ε α := okOr xs[i]? .panic

theorem index_eq_ok {xs : List α} {i : Nat} {a : α} :
    (index xs i : Outcome ε α) = .ok a ↔ xs[i]? = some a := okOr_eq_ok

/-- `a - b` of unsigned integers, a panic when it underflows. -/
def subtract (a b : Nat) : Outcome ε Nat := if b ≤ a then .ok (a - b) else .error .panic

theorem subtract_of_le {a b : Nat} (h : b ≤ a) :
    (subtract a b : Outcome ε Nat) = .ok (a - b) := if_pos h

/-- Translates a returned error; a panic stays a panic. -/
def mapFault (f : ε → ε') : Outcome ε α → Outcome ε' α :=
  mapErr fun
    | .err e => .err (f e)
    | .panic => .panic

theorem mapFault_eq_ok {f : ε → ε'} {x : Outcome ε α} {a : α} :
    mapFault f x = .ok a ↔ x = .ok a := mapErr_eq_ok

/-- The computation does not panic. -/
def NoPanic (x : Outcome ε α) : Prop := x ≠ .error .panic

theorem noPanic_ok {a : α} : NoPanic (.ok a : Outcome ε α) := by simp [NoPanic]

theorem noPanic_pure {a : α} : NoPanic (pure a : Outcome ε α) := noPanic_ok

theorem noPanic_bail {e : ε} : NoPanic (bail e : Outcome ε α) := by simp [NoPanic, bail]

theorem NoPanic.bind {x : Outcome ε α} {f : α → Outcome ε β} (hx : NoPanic x)
    (hf : ∀ a, x = .ok a → NoPanic (f a)) : NoPanic (x >>= f) := by
  cases x with
  | ok a => exact hf a rfl
  | error e => exact fun h => hx (congrArg Except.error (Except.error.inj h))

theorem noPanic_okOr {o : Option α} {e : ε} : NoPanic (okOr o (.err e)) := by
  cases o <;> simp [NoPanic, okOr]

theorem noPanic_require {c : Prop} [Decidable c] {e : ε} : NoPanic (require c (.err e)) := by
  unfold require
  split <;> simp [NoPanic]

/-- An error that is translated to a returned one is none to panic on. -/
theorem noPanic_mapErr {f : ε' → ε} {x : Except ε' α} : NoPanic (mapErr (fun e => .err (f e)) x) := by
  cases x <;> simp [NoPanic, mapErr]

theorem NoPanic.mapFault {f : ε → ε'} {x : Outcome ε α} (hx : NoPanic x) :
    NoPanic (mapFault f x) := by
  cases x with
  | ok a => exact noPanic_ok
  | error e =>
    cases e with
    | err e => exact noPanic_bail
    | panic => exact absurd rfl hx

/-! ## Loops -/

/-- The loop over a list succeeds if and only if every round does. -/
theorem mapM_isOk {f : α → Except ε β} :
    ∀ {xs : List α}, (∃ ys, xs.mapM f = .ok ys) ↔ ∀ x ∈ xs, ∃ y, f x = .ok y
  | [] => by simp [pure_eq_ok]
  | x :: xs => by
    have ih : (∃ ys, xs.mapM f = .ok ys) ↔ ∀ y ∈ xs, ∃ z, f y = .ok z := mapM_isOk
    rw [List.forall_mem_cons, ← ih]
    simp only [List.mapM_cons, bind_eq_ok, pure_eq_ok]
    constructor
    · rintro ⟨_, y, hy, ys, hys, rfl⟩
      exact ⟨⟨y, hy⟩, ys, hys⟩
    · rintro ⟨⟨y, hy⟩, ys, hys⟩
      exact ⟨_, y, hy, ys, hys, rfl⟩

theorem exists_of_mem_mapM {f : α → Except ε β} :
    ∀ {xs : List α} {ys : List β}, xs.mapM f = .ok ys → ∀ y ∈ ys, ∃ x ∈ xs, f x = .ok y
  | [], ys, h => by
    cases pure_eq_ok.1 h
    exact List.forall_mem_nil _
  | x :: xs, ys, h => by
    rw [List.mapM_cons] at h
    simp only [bind_eq_ok, pure_eq_ok] at h
    obtain ⟨y, hy, ys, hys, rfl⟩ := h
    refine List.forall_mem_cons.2 ⟨⟨x, List.mem_cons_self, hy⟩, fun z hz => ?_⟩
    obtain ⟨w, hw, hwz⟩ := exists_of_mem_mapM hys z hz
    exact ⟨w, List.mem_cons_of_mem x hw, hwz⟩

/-- A loop of checks succeeds if and only if every check does. -/
theorem forM_eq_ok {f : α → Except ε Unit} {r : Unit} :
    ∀ {xs : List α}, xs.forM f = .ok r ↔ ∀ x ∈ xs, f x = .ok ⟨⟩
  | [] => by simp [pure_eq_ok]
  | x :: xs => by
    change (f x >>= fun _ => xs.forM f) = .ok r ↔ _
    rw [bind_eq_ok, List.forall_mem_cons, ← forM_eq_ok (r := r)]
    exact ⟨fun ⟨_, hx, hxs⟩ => ⟨hx, hxs⟩, fun ⟨hx, hxs⟩ => ⟨_, hx, hxs⟩⟩

/-- A loop that fails does so at one of its elements. -/
theorem forM_eq_error {f : α → Except ε Unit} {e : ε} :
    ∀ {xs : List α}, xs.forM f = .error e → ∃ x ∈ xs, f x = .error e
  | [], h => by cases h
  | x :: xs, h => by
    change (f x >>= fun _ => xs.forM f) = .error e at h
    obtain hx | ⟨_, -, hxs⟩ := bind_eq_error.1 h
    · exact ⟨x, List.mem_cons_self, hx⟩
    · obtain ⟨y, hy, hfails⟩ := forM_eq_error hxs
      exact ⟨y, List.mem_cons_of_mem x hy, hfails⟩

/-- A loop whose rounds give back what their inputs were made from. -/
theorem mapM_map_eq_ok {f : β → Except ε α} {g : α → β} :
    ∀ {xs : List α}, (∀ x ∈ xs, f (g x) = .ok x) → (xs.map g).mapM f = .ok xs
  | [], _ => rfl
  | x :: xs, h => by
    rw [List.map_cons, List.mapM_cons, h x List.mem_cons_self,
      mapM_map_eq_ok fun y hy => h y (List.mem_cons_of_mem x hy)]
    rfl

/-- Steps that are the images of other steps have the images of their results. -/
theorem mapM_map_result {f : α → Except ε β} {γ : Type} {h : α → Except ε γ} {g : γ → β}
    (hf : ∀ x, f x = g <$> h x) : ∀ xs : List α, xs.mapM f = List.map g <$> xs.mapM h
  | [] => rfl
  | x :: xs => by
    rw [List.mapM_cons, List.mapM_cons, hf x, mapM_map_result hf xs]
    cases h x with
    | error e => rfl
    | ok y =>
      cases xs.mapM h with
      | error e => rfl
      | ok ys => rfl

theorem noPanic_mapM {f : α → Outcome ε β} :
    ∀ {xs : List α}, (∀ x ∈ xs, NoPanic (f x)) → NoPanic (xs.mapM f)
  | [], _ => noPanic_pure
  | x :: xs, h => by
    rw [List.mapM_cons]
    exact (h x List.mem_cons_self).bind fun _ _ =>
      (noPanic_mapM fun y hy => h y (List.mem_cons_of_mem x hy)).bind fun _ _ => noPanic_pure

theorem noPanic_filterMapM {f : α → Outcome ε (Option β)} :
    ∀ {xs : List α}, (∀ x ∈ xs, NoPanic (f x)) → NoPanic (xs.filterMapM f)
  | [], _ => noPanic_pure
  | x :: xs, h => by
    have ih : NoPanic (xs.filterMapM f) :=
      noPanic_filterMapM fun y hy => h y (List.mem_cons_of_mem x hy)
    rw [List.filterMapM_cons]
    refine (h x List.mem_cons_self).bind fun o _ => ?_
    cases o with
    | none => exact ih
    | some _ => exact ih.bind fun _ _ => noPanic_pure

theorem noPanic_forM {f : α → Outcome ε Unit} :
    ∀ {xs : List α}, (∀ x ∈ xs, NoPanic (f x)) → NoPanic (xs.forM f)
  | [], _ => noPanic_pure
  | x :: _, h => (h x List.mem_cons_self).bind fun _ _ =>
      noPanic_forM fun y hy => h y (List.mem_cons_of_mem x hy)

theorem noPanic_foldlM {σ : Type} {f : σ → α → Outcome ε σ} :
    ∀ {xs : List α}, (∀ s, ∀ x ∈ xs, NoPanic (f s x)) → ∀ s, NoPanic (xs.foldlM f s)
  | [], _, _ => noPanic_pure
  | x :: _, h, s => (h s x List.mem_cons_self).bind fun s' _ =>
      noPanic_foldlM (fun t y hy => h t y (List.mem_cons_of_mem x hy)) s'

/-- The loop rule: what holds before the first round and is kept by every successful round holds
    after the last. -/
theorem foldlM_invariant {σ : Type} {f : σ → κ → Except ε σ} {P : σ → Prop}
    (step : ∀ s k s', P s → f s k = .ok s' → P s') :
    ∀ (ks : List κ) (s s' : σ), P s → ks.foldlM f s = .ok s' → P s'
  | [], s, s', hs, h => by
    rw [List.foldlM_nil, pure_eq_ok] at h
    exact h ▸ hs
  | k :: ks, s, s', hs, h => by
    rw [List.foldlM_cons, bind_eq_ok] at h
    obtain ⟨s₁, h₁, h⟩ := h
    exact foldlM_invariant step ks s₁ s' (step s k s₁ hs h₁) h

end Lib
