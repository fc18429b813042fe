import FogoSessions.Lib.Result

/-!
# Tasks that call out

A task computes by itself and by calling operations of the outside world (a cache other tasks write
to, a remote service, a signer), whose answers it does not control. `Meets` is the rule of
rely and guarantee: as long as every answer is one the `rely` allows, every call the task makes is
one the `guar` allows and the task ends in `post`. What holds under `Meets` holds in every
interleaving with other tasks, because between two calls the world may do anything.
-/

namespace Lib

/-- A task with operations `Op`, answers `Ans`, errors `ε` and result `α`. -/
inductive Task (Op : Type) (Ans : Op → Type) (ε α : Type) where
  | done (result : Except ε α)
  | call (op : Op) (next : Ans op → Task Op Ans ε α)

namespace Task

variable {Op : Type} {Ans : Op → Type} {ε ε' α β : Type}

def bind : Task Op Ans ε α → (α → Task Op Ans ε β) → Task Op Ans ε β
  | done (.ok a), f => f a
  | done (.error e), _ => done (.error e)
  | call op next, f => call op fun x => bind (next x) f

instance : Monad (Task Op Ans ε) where
  pure a := done (.ok a)
  bind := bind

/-- Calls an operation and returns its answer. -/
def perform (op : Op) : Task Op Ans ε (Ans op) := call op fun x => done (.ok x)

/-- A computation that calls nothing. -/
def lift (x : Except ε α) : Task Op Ans ε α := done x

/-- Turns a returned error into a value; a panic goes on. -/
def attempt : Task Op Ans (Fault ε) α → Task Op Ans (Fault ε) (Except ε α)
  | done (.ok a) => done (.ok (.ok a))
  | done (.error (.err e)) => done (.ok (.error e))
  | done (.error .panic) => done (.error .panic)
  | call op next => call op fun x => attempt (next x)

/-- What a task may assume of the answers and must ensure of its calls. -/
structure Contract (Op : Type) (Ans : Op → Type) where
  rely : (op : Op) → Ans op → Prop
  guar : Op → Prop

/-- Any answer, any call. -/
def Contract.free : Contract Op Ans where
  rely _ _ := True
  guar _ := True

/-- In every run whose answers meet the rely, all calls meet the guarantee and the result meets
    `post`. -/
def Meets (c : Contract Op Ans) (post : Except ε α → Prop) : Task Op Ans ε α → Prop
  | done r => post r
  | call op next => c.guar op ∧ ∀ x, c.rely op x → Meets c post (next x)

variable {c : Contract Op Ans}

@[simp] theorem meets_done {post : Except ε α → Prop} {r : Except ε α} :
    Meets c post (done r : Task Op Ans ε α) ↔ post r := Iff.rfl

@[simp] theorem meets_pure {post : Except ε α → Prop} {a : α} :
    Meets c post (pure a : Task Op Ans ε α) ↔ post (.ok a) := Iff.rfl

@[simp] theorem meets_lift {post : Except ε α → Prop} {x : Except ε α} :
    Meets c post (lift x : Task Op Ans ε α) ↔ post x := Iff.rfl

theorem meets_perform_bind {op : Op} {f : Ans op → Task Op Ans ε β} {post : Except ε β → Prop} :
    (perform op >>= f).Meets c post ↔ c.guar op ∧ ∀ x, c.rely op x → (f x).Meets c post := Iff.rfl

theorem Meets.mono {post post' : Except ε α → Prop} (h : ∀ r, post r → post' r) :
    ∀ {t : Task Op Ans ε α}, t.Meets c post → t.Meets c post'
  | done r, ht => h r ht
  | call _ _, ht => ⟨ht.1, fun x hx => (ht.2 x hx).mono h⟩

/-- What the rest of a computation has to establish once its first part ended in `r`. -/
def Continue (c : Contract Op Ans) (post : Except ε β → Prop) (f : α → Task Op Ans ε β) :
    Except ε α → Prop
  | .ok a => (f a).Meets c post
  | .error e => post (.error e)

theorem meets_bind {post : Except ε β → Prop} {f : α → Task Op Ans ε β} :
    ∀ {t : Task Op Ans ε α}, (t >>= f).Meets c post ↔ t.Meets c (Continue c post f)
  | done (.ok _) => Iff.rfl
  | done (.error _) => Iff.rfl
  | call _ _ => and_congr Iff.rfl (forall₂_congr fun _ _ => meets_bind)

/-- The rule of sequence. -/
theorem Meets.bind {mid : Except ε α → Prop} {post : Except ε β → Prop} {t : Task Op Ans ε α}
    {f : α → Task Op Ans ε β} (ht : t.Meets c mid) (hok : ∀ a, mid (.ok a) → (f a).Meets c post)
    (herr : ∀ e, mid (.error e) → post (.error e)) : (t >>= f).Meets c post := by
  refine meets_bind.2 (ht.mono fun r hr => ?_)
  cases r with
  | ok a => exact hok a hr
  | error e => exact herr e hr

/-- The postcondition of a task before its error is caught. -/
def Caught (post : Except (Fault ε) (Except ε α) → Prop) : Except (Fault ε) α → Prop
  | .ok a => post (.ok (.ok a))
  | .error (.err e) => post (.ok (.error e))
  | .error .panic => post (.error .panic)

theorem meets_attempt {post : Except (Fault ε) (Except ε α) → Prop} :
    ∀ {t : Task Op Ans (Fault ε) α}, t.attempt.Meets c post ↔ t.Meets c (Caught post)
  | done (.ok _) => Iff.rfl
  | done (.error (.err _)) => Iff.rfl
  | done (.error .panic) => Iff.rfl
  | call _ _ => and_congr Iff.rfl (forall₂_congr fun _ _ => meets_attempt)

/-- What holds whatever the calls answer can be added. -/
theorem Meets.and_free {p q : Except ε α → Prop} :
    ∀ {t : Task Op Ans ε α}, t.Meets c p → t.Meets .free q → t.Meets c fun r => p r ∧ q r
  | done _, hp, hq => ⟨hp, hq⟩
  | call _ _, hp, hq => ⟨hp.1, fun x hx => (hp.2 x hx).and_free (hq.2 x trivial)⟩

/-- A run of the task, with answers that the rely allows. -/
inductive Ends (c : Contract Op Ans) : Task Op Ans ε α → Except ε α → Prop where
  | done (r : Except ε α) : Ends c (done r) r
  | call {op : Op} {next : Ans op → Task Op Ans ε α} {x : Ans op} {r : Except ε α}
      (hx : c.rely op x) (h : Ends c (next x) r) : Ends c (call op next) r

theorem Meets.of_ends {post : Except ε α → Prop} {t : Task Op Ans ε α} {r : Except ε α}
    (h : t.Meets c post) (hr : t.Ends c r) : post r := by
  induction hr with
  | done => exact h
  | call hx _ ih => exact ih (h.2 _ hx)

theorem ends_lift {x r : Except ε α} (h : (lift x : Task Op Ans ε α).Ends c r) : x = r := by
  cases h
  rfl

/-- A run of a sequence that ends well is a run of its first part and one of the rest. -/
theorem Ends.of_bind {t : Task Op Ans ε α} {f : α → Task Op Ans ε β} {b : β}
    (h : (t >>= f).Ends c (.ok b)) : ∃ a, t.Ends c (.ok a) ∧ (f a).Ends c (.ok b) := by
  induction t with
  | done r =>
    cases r with
    | ok a => exact ⟨a, .done _, h⟩
    | error e => exact nomatch ends_lift h
  | call op next ih =>
    cases h with
    | call hx h =>
      obtain ⟨a, ha, hrest⟩ := ih _ h
      exact ⟨a, .call hx ha, hrest⟩

/-! ## What a successful task ensures -/

/-- The result, if there is one, satisfies `P`. -/
def OnOk (P : α → Prop) : Except ε α → Prop
  | .ok a => P a
  | .error _ => True

/-- Every successful run of the task ends in a result that satisfies `P`. -/
abbrev Ensures (c : Contract Op Ans) (P : α → Prop) (t : Task Op Ans ε α) : Prop :=
  t.Meets c (OnOk P)

theorem ensures_lift {P : α → Prop} {x : Except ε α} :
    (lift x : Task Op Ans ε α).Ensures c P ↔ ∀ a, x = .ok a → P a := by
  cases x <;> simp [Ensures, OnOk]

theorem ensures_pure {P : α → Prop} {a : α} : (pure a : Task Op Ans ε α).Ensures c P ↔ P a :=
  Iff.rfl

theorem Ensures.bind {P : α → Prop} {Q : β → Prop} {t : Task Op Ans ε α} {f : α → Task Op Ans ε β}
    (ht : t.Ensures c P) (hf : ∀ a, P a → (f a).Ensures c Q) : (t >>= f).Ensures c Q :=
  Meets.bind ht hf fun _ _ => trivial

/-- The rule of a call: its guarantee now, and the rest for every answer the rely allows. -/
theorem ensures_perform_bind {Q : β → Prop} {op : Op} {f : Ans op → Task Op Ans ε β}
    (hguar : c.guar op) (hf : ∀ x, c.rely op x → (f x).Ensures c Q) :
    (perform op >>= f).Ensures c Q := ⟨hguar, hf⟩

theorem Ensures.mono {P Q : α → Prop} {t : Task Op Ans ε α} (ht : t.Ensures c P)
    (h : ∀ a, P a → Q a) : t.Ensures c Q :=
  Meets.mono (fun r hr => by cases r with | ok a => exact h a hr | error _ => trivial) ht

theorem ensures_true : ∀ t : Task Op Ans ε α, t.Ensures .free fun _ => True
  | done (.ok _) => trivial
  | done (.error _) => trivial
  | call _ next => ⟨trivial, fun x _ => ensures_true (next x)⟩

/-- The rule of the loop that checks every element. -/
theorem ensures_forM {κ : Type} {P : κ → Prop} {f : κ → Task Op Ans ε Unit} :
    ∀ {xs : List κ}, (∀ x ∈ xs, (f x).Ensures c fun _ => P x) →
      (xs.forM f).Ensures c fun _ => ∀ x ∈ xs, P x
  | [], _ => ensures_pure.2 fun _ hx => absurd hx List.not_mem_nil
  | x :: xs, h => by
    change (f x >>= fun _ => xs.forM f).Ensures c _
    refine (h x List.mem_cons_self).bind fun _ hx => ?_
    refine (ensures_forM fun y hy => h y (List.mem_cons_of_mem x hy)).mono fun _ hxs => ?_
    intro y hy
    rcases List.mem_cons.1 hy with rfl | hy
    · exact hx
    · exact hxs y hy

/-- The rule of the loop with an accumulator, whose invariant is about the elements so far. -/
theorem ensures_foldlM {σ κ : Type} {P : List κ → σ → Prop} {f : σ → κ → Task Op Ans ε σ}
    (step : ∀ seen s x, P seen s → (f s x).Ensures c (P (seen ++ [x]))) :
    ∀ (xs seen : List κ) (s : σ), P seen s → (xs.foldlM f s).Ensures c (P (seen ++ xs))
  | [], seen, s, hs => by
    rw [List.append_nil]
    exact hs
  | x :: xs, seen, s, hs => by
    rw [List.foldlM_cons, List.append_cons]
    exact (step seen s x hs).bind fun s' hs' => ensures_foldlM step xs (seen ++ [x]) s' hs'

/-- The rule of a caught error. -/
theorem Ensures.attempt_bind {P : α → Prop} {Q : β → Prop} {t : Task Op Ans (Fault ε) α}
    {f : Except ε α → Task Op Ans (Fault ε) β} (ht : t.Ensures c P)
    (hok : ∀ a, P a → (f (.ok a)).Ensures c Q) (herr : ∀ e, (f (.error e)).Ensures c Q) :
    (t.attempt >>= f).Ensures c Q := by
  have hcaught : t.attempt.Ensures c fun r => ∀ a, r = .ok a → P a := by
    refine meets_attempt.2 (Meets.mono (fun r hr => ?_) ht)
    cases r with
    | ok a => exact fun _ h => Except.ok.inj h ▸ hr
    | error e =>
      cases e with
      | err e => exact fun _ h => nomatch h
      | panic => trivial
  refine hcaught.bind fun r hr => ?_
  cases r with
  | ok a => exact hok a (hr a rfl)
  | error e => exact herr e

/-! ## Tasks that do not panic -/

/-- The result satisfies `P`, or is an error that is returned. -/
def NoPanicAnd (P : α → Prop) : Except (Fault ε) α → Prop
  | .ok a => P a
  | .error e => e ≠ .panic

/-- The rule of sequence for tasks that do not panic: a computation first. -/
theorem noPanic_lift_bind {x : Outcome ε α} {f : α → Task Op Ans (Fault ε) β} (hx : NoPanic x)
    (hf : ∀ a, x = .ok a → (f a).Meets c NoPanic) : (lift x >>= f).Meets c NoPanic := by
  refine meets_bind.2 (meets_lift.2 ?_)
  cases x with
  | ok a => exact hf a rfl
  | error e => exact fun h => hx (congrArg Except.error (Except.error.inj h))

theorem noPanic_bind {t : Task Op Ans (Fault ε) α} {f : α → Task Op Ans (Fault ε) β}
    (ht : t.Meets c NoPanic) (hf : ∀ a, (f a).Meets c NoPanic) : (t >>= f).Meets c NoPanic :=
  Meets.bind ht (fun a _ => hf a) fun _ he h => he (congrArg Except.error (Except.error.inj h))

/-- Whatever the calls answer, the task does not panic, and its result, if there is one, satisfies
    `P`. -/
abbrev Safe (P : α → Prop) (t : Task Op Ans (Fault ε) α) : Prop := t.Meets .free (NoPanicAnd P)

theorem safe_lift {P : α → Prop} {x : Outcome ε α} :
    (lift x : Task Op Ans (Fault ε) α).Safe P ↔ NoPanic x ∧ ∀ a, x = .ok a → P a := by
  cases x <;> simp [Safe, NoPanicAnd, NoPanic]

theorem safe_pure {P : α → Prop} {a : α} : (pure a : Task Op Ans (Fault ε) α).Safe P ↔ P a :=
  Iff.rfl

theorem Safe.bind {P : α → Prop} {Q : β → Prop} {t : Task Op Ans (Fault ε) α}
    {f : α → Task Op Ans (Fault ε) β} (ht : t.Safe P) (hf : ∀ a, P a → (f a).Safe Q) :
    (t >>= f).Safe Q :=
  Meets.bind ht hf fun _ he => he

theorem safe_lift_bind {Q : β → Prop} {x : Outcome ε α} {f : α → Task Op Ans (Fault ε) β}
    (hx : NoPanic x) (hf : ∀ a, x = .ok a → (f a).Safe Q) : (lift x >>= f).Safe Q :=
  Safe.bind (P := fun a => x = .ok a) (safe_lift.2 ⟨hx, fun _ h => h⟩) hf

theorem safe_perform_bind {Q : β → Prop} {op : Op} {f : Ans op → Task Op Ans (Fault ε) β}
    (hf : ∀ x, (f x).Safe Q) : (perform op >>= f).Safe Q := ⟨trivial, fun x _ => hf x⟩

/-- The rule of a caught error: the rest has to be safe for the result and for every error. -/
theorem Safe.attempt_bind {P : α → Prop} {Q : β → Prop} {t : Task Op Ans (Fault ε) α}
    {f : Except ε α → Task Op Ans (Fault ε) β} (ht : t.Safe P)
    (hok : ∀ a, P a → (f (.ok a)).Safe Q) (herr : ∀ e, (f (.error e)).Safe Q) :
    (t.attempt >>= f).Safe Q := by
  have hcaught : t.attempt.Safe fun r => ∀ a, r = .ok a → P a := by
    refine meets_attempt.2 (ht.mono fun r hr => ?_)
    cases r with
    | ok a => exact fun _ h => Except.ok.inj h ▸ hr
    | error e =>
      cases e with
      | err e => exact fun _ h => nomatch h
      | panic => exact hr
  refine hcaught.bind fun r hr => ?_
  cases r with
  | ok a => exact hok a (hr a rfl)
  | error e => exact herr e

theorem safe_forM {κ : Type} {f : κ → Task Op Ans (Fault ε) Unit} :
    ∀ {xs : List κ}, (∀ x ∈ xs, (f x).Safe fun _ => True) → (xs.forM f).Safe fun _ => True
  | [], _ => trivial
  | x :: _, h => (h x List.mem_cons_self).bind fun _ _ =>
      safe_forM fun y hy => h y (List.mem_cons_of_mem x hy)

theorem safe_foldlM {σ κ : Type} {f : σ → κ → Task Op Ans (Fault ε) σ} :
    ∀ {xs : List κ}, (∀ s, ∀ x ∈ xs, (f s x).Safe fun _ => True) →
      ∀ s, (xs.foldlM f s).Safe fun _ => True
  | [], _, _ => trivial
  | x :: _, h, s => (h s x List.mem_cons_self).bind fun s' _ =>
      safe_foldlM (fun t y hy => h t y (List.mem_cons_of_mem x hy)) s'

/-! ## Tasks that decide -/

/-- The result satisfies `P`, or an error is returned and nothing satisfies `P`. -/
def Decides (P : α → Prop) : Except (Fault ε) α → Prop
  | .ok a => P a
  | .error (.err _) => ∀ a, ¬ P a
  | .error .panic => False

theorem eq_ok_of_decides {P : Unit → Prop} {r : Except (Fault ε) Unit} (h : Decides P r)
    (hP : P ⟨⟩) : r = .ok ⟨⟩ := by
  cases r with
  | ok _ => rfl
  | error e =>
    cases e with
    | err e => exact absurd hP (h ⟨⟩)
    | panic => exact h.elim

theorem meets_decides_mono {P Q : α → Prop} {t : Task Op Ans (Fault ε) α}
    (h : t.Meets c (Decides P)) (hPQ : ∀ a, P a ↔ Q a) : t.Meets c (Decides Q) := by
  have heq : P = Q := funext fun a => propext (hPQ a)
  rwa [← heq]

/-- The rule of sequence: what the rest decides holds of nothing when the first part refuses. -/
theorem meets_decides_bind {P : α → Prop} {Q : β → Prop} {t : Task Op Ans (Fault ε) α}
    {f : α → Task Op Ans (Fault ε) β} (ht : t.Meets c (Decides P))
    (hf : ∀ a, P a → (f a).Meets c (Decides Q)) (hneed : ∀ b, Q b → ∃ a, P a) :
    (t >>= f).Meets c (Decides Q) := by
  refine ht.bind hf fun e he => ?_
  cases e with
  | err e =>
    intro b hb
    obtain ⟨a, ha⟩ := hneed b hb
    exact he a ha
  | panic => exact he

theorem meets_decides_forM {κ : Type} {P : κ → Prop} {f : κ → Task Op Ans (Fault ε) Unit} :
    ∀ {xs : List κ}, (∀ x ∈ xs, (f x).Meets c (Decides fun _ => P x)) →
      (xs.forM f).Meets c (Decides fun _ => ∀ x ∈ xs, P x)
  | [], _ => show ∀ x ∈ [], P x from List.forall_mem_nil _
  | x :: xs, h => by
    change (f x >>= fun _ => xs.forM f).Meets c _
    refine meets_decides_bind (h x List.mem_cons_self) (fun _ hx => ?_)
      fun _ hall => ⟨⟨⟩, hall x List.mem_cons_self⟩
    refine meets_decides_mono (meets_decides_forM fun y hy => h y (List.mem_cons_of_mem x hy))
      fun _ => ?_
    rw [List.forall_mem_cons, and_iff_right hx]

/-- The rule of a caught error: it says that nothing satisfies `P`. -/
theorem meets_decides_attempt_bind {P : α → Prop} {post : Except (Fault ε) β → Prop}
    {t : Task Op Ans (Fault ε) α} {f : Except ε α → Task Op Ans (Fault ε) β}
    (ht : t.Meets c (Decides P)) (hok : ∀ a, P a → (f (.ok a)).Meets c post)
    (herr : ∀ e, (∀ a, ¬ P a) → (f (.error e)).Meets c post) :
    (t.attempt >>= f).Meets c post := by
  refine meets_bind.2 (meets_attempt.2 (Meets.mono (fun r hr => ?_) ht))
  cases r with
  | ok a => exact hok a hr
  | error e =>
    cases e with
    | err e => exact herr e hr
    | panic => exact hr.elim

/-! ## Tasks that succeed -/

/-- There is a result, and it satisfies `P`. -/
def Succeeds (P : α → Prop) : Except ε α → Prop
  | .ok a => P a
  | .error _ => False

theorem succeeds_iff {P : α → Prop} {r : Except ε α} : Succeeds P r ↔ ∃ a, r = .ok a ∧ P a := by
  cases r <;> simp [Succeeds]

/-- Every run of the task succeeds, with a result that satisfies `P`. -/
abbrev Returns (c : Contract Op Ans) (P : α → Prop) (t : Task Op Ans ε α) : Prop :=
  t.Meets c (Succeeds P)

theorem returns_lift {P : α → Prop} {x : Except ε α} :
    (lift x : Task Op Ans ε α).Returns c P ↔ ∃ a, x = .ok a ∧ P a := succeeds_iff

theorem Returns.mono {P Q : α → Prop} {t : Task Op Ans ε α} (ht : t.Returns c P)
    (h : ∀ a, P a → Q a) : t.Returns c Q := by
  refine Meets.mono (fun r hr => ?_) ht
  obtain ⟨a, rfl, ha⟩ := succeeds_iff.1 hr
  exact h a ha

theorem Returns.bind {P : α → Prop} {Q : β → Prop} {t : Task Op Ans ε α}
    {f : α → Task Op Ans ε β} (ht : t.Returns c P) (hf : ∀ a, P a → (f a).Returns c Q) :
    (t >>= f).Returns c Q := by
  refine Meets.bind ht hf fun e he => ?_
  exact he

/-- A task that decides for one value returns it. -/
theorem returns_of_decides {P : α → Prop} {t : Task Op Ans (Fault ε) α} {a : α}
    (h : t.Meets c (Decides P)) (ha : P a) : t.Returns c P := by
  refine Meets.mono (fun r hr => ?_) h
  cases r with
  | ok b => exact hr
  | error e =>
    cases e with
    | err e => exact hr a ha
    | panic => exact hr

end Task

end Lib
