import Mathlib.Data.List.Nodup
import Mathlib.Data.List.Range
import Mathlib.Logic.Function.Basic
import Mathlib.Logic.Relation

/-!
# Reconnecting the websocket client

`PubsubClientWithReconnect` in `api.rs` and its caller `subscribe_and_wait_for_signature` in `rpc.rs`:
any number of callers load the client, fail to subscribe on it and replace it, in any order of their
steps. Clients are numbered in the order in which they were installed, so a new one is told from
every older one as its pointer is.
-/

namespace FogoSessions.Paymaster.Reconnect

variable {κ : Type}

/-- A subscription that failed: the client it was made on, and the client that was installed when it
    failed. -/
structure Failure where
  client : Nat
  installed : Nat
deriving DecidableEq

/-- Where a caller is in the code. -/
inductive Phase where
  /-- before `pubsub.client.load()` -/
  | start (reconnect : Bool)
  /-- in `signature_subscribe` -/
  | subscribing (reconnect : Bool) (pubsubClient : Nat)
  /-- before the first `load_full` in `reconnect_pubsub` -/
  | failed (failure : Failure)
  /-- in `reconnect_lock.lock()` -/
  | waiting (failure : Failure) (oldClient : Nat)
  /-- before the second `load_full` -/
  | locked (failure : Failure) (oldClient : Nat)
  /-- in `PubsubClient::new` -/
  | connecting (failure : Failure)
  /-- `reconnect_pubsub` returns and releases the lock -/
  | returning (ok : Bool)
  | done
deriving DecidableEq

/-- The phases between taking the lock and releasing it. -/
def Phase.HasLock : Phase → Prop
  | locked _ _ | connecting _ | returning _ => True
  | _ => False

/-- The client the caller's subscription has failed on, before it enters `reconnect_pubsub`. -/
def Phase.failedOn : Phase → Option Nat
  | failed failure => some failure.client
  | _ => none

/-- A client that was replaced, by whom and why. -/
structure Replacement (κ : Type) where
  caller : κ
  failure : Failure
  replaced : Nat
deriving DecidableEq

/-- `PubsubClientWithReconnect`, its callers, and the replacements so far, newest first. -/
structure State (κ : Type) where
  client : Nat
  reconnectLock : Option κ
  callers : κ → Phase
  replacements : List (Replacement κ)

/-- What a caller does next; the flags are what the websocket server decides. -/
inductive Move where
  | load
  | signatureSubscribe (ok : Bool)
  | loadFull
  | lock
  | compare
  | connect (ok : Bool)
  | unlock
  | drop
deriving DecidableEq

namespace State

/-- The first client is installed and nobody has called. -/
def init : State κ := ⟨0, none, fun _ => .start true, []⟩

variable [DecidableEq κ]

/-- The caller goes on to another phase. -/
def goto (s : State κ) (k : κ) (phase : Phase) : State κ :=
  { s with callers := Function.update s.callers k phase }

@[simp] theorem goto_client {s : State κ} {k : κ} {phase : Phase} :
    (s.goto k phase).client = s.client := rfl

@[simp] theorem goto_reconnectLock {s : State κ} {k : κ} {phase : Phase} :
    (s.goto k phase).reconnectLock = s.reconnectLock := rfl

@[simp] theorem goto_replacements {s : State κ} {k : κ} {phase : Phase} :
    (s.goto k phase).replacements = s.replacements := rfl

@[simp] theorem goto_same {s : State κ} {k : κ} {phase : Phase} :
    (s.goto k phase).callers k = phase := Function.update_self ..

theorem goto_of_ne {s : State κ} {k k' : κ} {phase : Phase} (h : k' ≠ k) :
    (s.goto k phase).callers k' = s.callers k' := Function.update_of_ne h ..

end State

variable [DecidableEq κ]

/-- A step in `subscribe_and_wait_for_signature`; after a reconnection it calls itself, with
    `reconnect` false. -/
def subscribeAndWaitForSignature (s : State κ) (k : κ) : Phase → Move → Option (State κ)
  | .start reconnect, .load => some (s.goto k (.subscribing reconnect s.client))
  | .subscribing _ _, .signatureSubscribe true => some (s.goto k .done)
  | .subscribing reconnect client, .signatureSubscribe false =>
    some (s.goto k (if reconnect then .failed ⟨client, s.client⟩ else .done))
  | _, _ => none

/-- A step in `reconnect_pubsub`. -/
def reconnectPubsub (s : State κ) (k : κ) : Phase → Move → Option (State κ)
  | .failed failure, .loadFull => some (s.goto k (.waiting failure s.client))
  | .waiting failure oldClient, .lock =>
    if s.reconnectLock = none then
      some { s.goto k (.locked failure oldClient) with reconnectLock := some k }
    else none
  | .locked failure oldClient, .compare =>
    some (s.goto k (if oldClient = s.client then .connecting failure else .returning true))
  | .connecting failure, .connect true =>
    some
      { s.goto k (.returning true) with
        client := s.client + 1
        replacements := ⟨k, failure, s.client⟩ :: s.replacements }
  | .connecting _, .connect false => some (s.goto k (.returning false))
  | .returning ok, .unlock =>
    some { s.goto k (if ok then .start false else .done) with reconnectLock := none }
  | _, _ => none

/-- The request is dropped while it waits for something, and with it the lock if it is held. -/
def dropRequest (s : State κ) (k : κ) : Phase → Move → Option (State κ)
  | .subscribing _ _, .drop => some (s.goto k .done)
  | .waiting _ _, .drop => some (s.goto k .done)
  | .connecting _, .drop => some { s.goto k .done with reconnectLock := none }
  | _, _ => none

def step (s : State κ) (k : κ) (move : Move) : Option (State κ) :=
  (subscribeAndWaitForSignature s k (s.callers k) move).or
    ((reconnectPubsub s k (s.callers k) move).or (dropRequest s k (s.callers k) move))

/-- One caller makes one step that meets the condition. -/
def Next (meets : State κ → κ → Move → Prop) (s s' : State κ) : Prop :=
  ∃ k move, meets s k move ∧ step s k move = some s'

/-- The states of all runs whose steps meet the condition. -/
def Reached (meets : State κ → κ → Move → Prop) (s : State κ) : Prop :=
  Relation.ReflTransGen (Next meets) .init s

/-- A broken client is replaced at most once: the failures on a client cause one replacement at
    most, and what is replaced was installed when the failure happened. -/
structure ReplacedOnce (s : State κ) : Prop where
  once : ∀ client, (s.replacements.countP fun r => r.failure.client == client) ≤ 1
  installed : ∀ r ∈ s.replacements, r.replaced ≤ r.failure.installed

/-- A caller enters `reconnect_pubsub` while the client that its subscription failed on is still
    installed. -/
def Current (s : State κ) (k : κ) : Move → Prop
  | .loadFull => ∀ client ∈ (s.callers k).failedOn, s.client = client
  | _ => True

instance (s : State κ) (k : κ) : (move : Move) → Decidable (Current s k move)
  | .loadFull => inferInstanceAs (Decidable (∀ client ∈ (s.callers k).failedOn, s.client = client))
  | .load | .signatureSubscribe _ | .lock | .compare | .connect _ | .unlock | .drop =>
    inferInstanceAs (Decidable True)

/-! ## The invariant -/

/-- What holds of a caller while every caller finds the client it failed on. -/
def Phase.Holds (s : State κ) (k : κ) : Phase → Prop
  | .start _ | .done => True
  | .subscribing _ client => client ≤ s.client
  | .failed failure => failure.client ≤ failure.installed ∧ failure.client ≤ s.client
  | .waiting failure oldClient => failure.client ≤ failure.installed ∧ oldClient = failure.client
  | .locked failure oldClient =>
    failure.client ≤ failure.installed ∧ oldClient = failure.client ∧ s.reconnectLock = some k
  | .connecting failure =>
    failure.client ≤ failure.installed ∧ s.client = failure.client ∧ s.reconnectLock = some k
  | .returning _ => s.reconnectLock = some k

omit [DecidableEq κ] in
/-- What holds of a caller still holds when others have moved. -/
theorem Phase.Holds.other {s s' : State κ} {k : κ} {phase : Phase} (h : phase.Holds s k)
    (hclient : s.client ≤ s'.client)
    (hlock : s.reconnectLock = some k → s'.reconnectLock = some k ∧ s'.client = s.client) :
    phase.Holds s' k := by
  cases phase with
  | start | done => trivial
  | subscribing => exact Nat.le_trans h hclient
  | failed => exact ⟨h.1, Nat.le_trans h.2 hclient⟩
  | waiting => exact h
  | locked => exact ⟨h.1, h.2.1, (hlock h.2.2).1⟩
  | connecting =>
    obtain ⟨hlock', hsame⟩ := hlock h.2.2
    exact ⟨h.1, hsame.trans h.2.1, hlock'⟩
  | returning => exact (hlock h).1

/-- The clients were replaced one after another, each by a caller that had failed on it. -/
structure Inv (s : State κ) : Prop where
  callers : ∀ k, (s.callers k).Holds s k
  holder : ∀ k, s.reconnectLock = some k → (s.callers k).HasLock
  replaced : s.replacements.map Replacement.replaced = (List.range s.client).reverse
  caused : ∀ r ∈ s.replacements, r.failure.client = r.replaced ∧ r.replaced ≤ r.failure.installed

namespace Inv

variable {s s' : State κ} {k : κ} {phase : Phase}

omit [DecidableEq κ] in
theorem init : Inv (State.init : State κ) where
  callers _ := trivial
  holder _ h := nomatch h
  replaced := rfl
  caused _ h := absurd h List.not_mem_nil

/-- The caller moves on and neither takes nor releases the lock. -/
theorem goto (h : Inv s) (hphase : phase.Holds s k) (hlock : (s.callers k).HasLock → phase.HasLock) :
    Inv (s.goto k phase) where
  callers k' := by
    by_cases hk : k' = k
    · subst hk
      rw [State.goto_same]
      exact hphase.other (Nat.le_refl _) fun hlock => ⟨hlock, rfl⟩
    · rw [State.goto_of_ne hk]
      exact (h.callers k').other (Nat.le_refl _) fun hlock => ⟨hlock, rfl⟩
  holder k' hk' := by
    by_cases hk : k' = k
    · subst hk
      rw [State.goto_same]
      exact hlock (h.holder k' hk')
    · rw [State.goto_of_ne hk]
      exact h.holder k' hk'
  replaced := h.replaced
  caused := h.caused

/-- The caller takes the lock. -/
theorem lock (h : Inv s) (hnone : s.reconnectLock = none) {failure : Failure} {oldClient : Nat}
    (hk : s.callers k = .waiting failure oldClient) :
    Inv { s.goto k (.locked failure oldClient) with reconnectLock := some k } where
  callers k' := by
    by_cases hne : k' = k
    · subst hne
      show ((s.goto k' _).callers k').Holds _ k'
      rw [State.goto_same]
      have hwaiting := h.callers k'
      rw [hk] at hwaiting
      exact ⟨hwaiting.1, hwaiting.2, rfl⟩
    · show ((s.goto k _).callers k').Holds _ k'
      rw [State.goto_of_ne hne]
      refine (h.callers k').other (Nat.le_refl _) fun hheld => ?_
      rw [hnone] at hheld
      cases hheld
  holder k' hk' := by
    cases hk'
    show ((s.goto k _).callers k).HasLock
    rw [State.goto_same]
    trivial
  replaced := h.replaced
  caused := h.caused

/-- The caller releases the lock. -/
theorem unlock (h : Inv s) (hheld : s.reconnectLock = some k) (hphase : phase = .start false ∨ phase = .done) :
    Inv { s.goto k phase with reconnectLock := none } where
  callers k' := by
    by_cases hne : k' = k
    · subst hne
      show ((s.goto k' _).callers k').Holds _ k'
      rw [State.goto_same]
      rcases hphase with rfl | rfl <;> trivial
    · show ((s.goto k _).callers k').Holds _ k'
      rw [State.goto_of_ne hne]
      refine (h.callers k').other (Nat.le_refl _) fun hheld' => ?_
      exact absurd (Option.some.inj (hheld'.symm.trans hheld)) hne
  holder k' hk' := nomatch hk'
  replaced := h.replaced
  caused := h.caused

/-- The caller that holds the lock replaces the client it failed on. -/
theorem replace (h : Inv s) {failure : Failure} (hk : s.callers k = .connecting failure) :
    Inv
      { s.goto k (.returning true) with
        client := s.client + 1
        replacements := ⟨k, failure, s.client⟩ :: s.replacements } := by
  have hconnecting := h.callers k
  rw [hk] at hconnecting
  obtain ⟨hle, hclient, hheld⟩ := hconnecting
  constructor
  · intro k'
    by_cases hne : k' = k
    · subst hne
      show ((s.goto k' _).callers k').Holds _ k'
      rw [State.goto_same]
      exact hheld
    · show ((s.goto k _).callers k').Holds _ k'
      rw [State.goto_of_ne hne]
      refine (h.callers k').other (Nat.le_succ _) fun hheld' => ?_
      exact absurd (Option.some.inj (hheld'.symm.trans hheld)) hne
  · intro k' hk'
    cases hheld.symm.trans hk'
    show ((s.goto k _).callers k).HasLock
    rw [State.goto_same]
    trivial
  · rw [List.map_cons, h.replaced, List.range_succ, List.reverse_append]
    rfl
  · exact List.forall_mem_cons.2 ⟨⟨hclient.symm, hclient ▸ hle⟩, h.caused⟩

/-- One step that meets the condition. -/
theorem step (h : Inv s) {move : Move} (hmeets : Current s k move)
    (hstep : Reconnect.step s k move = some s') : Inv s' := by
  have hphase := h.callers k
  rcases Option.or_eq_some_iff.1 hstep with hsubscribe | ⟨-, hrest⟩
  · unfold subscribeAndWaitForSignature at hsubscribe
    split at hsubscribe
    · rename_i hk
      cases hsubscribe
      exact h.goto (Nat.le_refl _) (by rw [hk]; exact id)
    · rename_i hk
      cases hsubscribe
      exact h.goto trivial (by rw [hk]; exact False.elim)
    · rename_i reconnect client hk
      cases hsubscribe
      rw [hk] at hphase
      refine h.goto ?_ (by rw [hk]; exact False.elim)
      cases reconnect with
      | false => trivial
      | true => exact ⟨hphase, hphase⟩
    · cases hsubscribe
  rcases Option.or_eq_some_iff.1 hrest with hreconnect | ⟨-, hdrop⟩
  · unfold reconnectPubsub at hreconnect
    split at hreconnect
    · rename_i failure hk
      cases hreconnect
      rw [hk] at hphase
      have hcurrent : s.client = failure.client := hmeets failure.client (by rw [hk]; rfl)
      exact h.goto ⟨hphase.1, hcurrent⟩ (by rw [hk]; exact False.elim)
    · rename_i failure oldClient hk
      obtain ⟨hnone, hlocked⟩ := Option.ite_none_right_eq_some.1 hreconnect
      cases hlocked
      exact h.lock hnone hk
    · rename_i failure oldClient hk
      cases hreconnect
      rw [hk] at hphase
      obtain ⟨hle, hold, hheld⟩ := hphase
      apply h.goto
      · split
        · rename_i hsame
          exact ⟨hle, hsame.symm.trans hold, hheld⟩
        · exact hheld
      · intro _
        split <;> trivial
    · rename_i failure hk
      cases hreconnect
      exact h.replace hk
    · rename_i failure hk
      cases hreconnect
      rw [hk] at hphase
      exact h.goto hphase.2.2 fun _ => trivial
    · rename_i ok hk
      cases hreconnect
      rw [hk] at hphase
      apply h.unlock hphase
      cases ok with
      | false => exact Or.inr rfl
      | true => exact Or.inl rfl
    · cases hreconnect
  · unfold dropRequest at hdrop
    split at hdrop
    · rename_i hk
      cases hdrop
      exact h.goto trivial (by rw [hk]; exact False.elim)
    · rename_i hk
      cases hdrop
      exact h.goto trivial (by rw [hk]; exact False.elim)
    · rename_i hk
      cases hdrop
      rw [hk] at hphase
      exact h.unlock hphase.2.2 (Or.inr rfl)
    · cases hdrop

theorem reached (h : Reached Current s) : Inv s := by
  induction h with
  | refl => exact init
  | tail _ hnext ih =>
    obtain ⟨k, move, hmeets, hstep⟩ := hnext
    exact ih.step hmeets hstep

omit [DecidableEq κ] in
theorem replacedOnce (h : Inv s) : ReplacedOnce s where
  once client := by
    have hmap : s.replacements.map (fun r => r.failure.client) =
        s.replacements.map Replacement.replaced :=
      List.map_congr_left fun r hr => (h.caused r hr).1
    have hnodup : (s.replacements.map fun r => r.failure.client).Nodup := by
      rw [hmap, h.replaced, List.nodup_reverse]
      exact List.nodup_range
    have hcount := List.nodup_iff_count_le_one.1 hnodup client
    rwa [List.count_eq_countP, List.countP_map] at hcount
  installed r hr := (h.caused r hr).2

end Inv

/-! ## A newer client is read -/

theorem Phase.failedOn_eq_some {phase : Phase} {client : Nat} :
    phase.failedOn = some client ↔ ∃ failure, phase = .failed failure ∧ failure.client = client := by
  cases phase <;> simp [failedOn]

/-- Steps after which the lock is free, and that change nothing for a caller that waits for it. -/
structure Freed (k : κ) (s s' : State κ) : Prop where
  path : Relation.ReflTransGen (Next Current) s s'
  lock_eq : s'.reconnectLock = none
  client_eq : s'.client = s.client
  replacements_eq : s'.replacements = s.replacements
  caller_eq : s'.callers k = s.callers k

section

variable {s s' : State κ} {k holder : κ}

theorem Freed.cons (hnext : Next Current s s') (hclient : s'.client = s.client)
    (hreplacements : s'.replacements = s.replacements) (hcaller : s'.callers k = s.callers k)
    {t : State κ} (h : Freed k s' t) : Freed k s t where
  path := .head hnext h.path
  lock_eq := h.lock_eq
  client_eq := h.client_eq.trans hclient
  replacements_eq := h.replacements_eq.trans hreplacements
  caller_eq := h.caller_eq.trans hcaller

theorem freed_of_next {phase : Phase} (hne : k ≠ holder) {move : Move}
    (hstep : step s holder move = some { s.goto holder phase with reconnectLock := none })
    (hmeets : Current s holder move) :
    Freed k s { s.goto holder phase with reconnectLock := none } where
  path := .single ⟨holder, move, hmeets, hstep⟩
  lock_eq := rfl
  client_eq := rfl
  replacements_eq := rfl
  caller_eq := State.goto_of_ne hne

theorem exists_freed_returning {ok : Bool} (hne : k ≠ holder)
    (hholder : s.callers holder = .returning ok) : ∃ t, Freed k s t := by
  have hstep : step s holder .unlock =
      some { s.goto holder (if ok then .start false else .done) with reconnectLock := none } := by
    simp only [step, hholder]
    rfl
  exact ⟨_, freed_of_next hne hstep trivial⟩

theorem exists_freed_connecting {failure : Failure} (hne : k ≠ holder)
    (hholder : s.callers holder = .connecting failure) : ∃ t, Freed k s t := by
  have hstep : step s holder .drop = some { s.goto holder .done with reconnectLock := none } := by
    simp only [step, hholder]
    rfl
  exact ⟨_, freed_of_next hne hstep trivial⟩

/-- Whoever holds the lock can give it back without replacing the client. -/
theorem exists_freed (hne : k ≠ holder) (hholder : (s.callers holder).HasLock) :
    ∃ t, Freed k s t := by
  cases hphase : s.callers holder with
  | returning ok => exact exists_freed_returning hne hphase
  | connecting failure => exact exists_freed_connecting hne hphase
  | locked failure oldClient =>
    have hstep : step s holder .compare = some (s.goto holder
        (if oldClient = s.client then .connecting failure else .returning true)) := by
      simp only [step, hphase]
      rfl
    have hnext : Next Current s (s.goto holder _) := ⟨holder, .compare, trivial, hstep⟩
    obtain ⟨t, ht⟩ : ∃ t, Freed k (s.goto holder
        (if oldClient = s.client then .connecting failure else .returning true)) t := by
      by_cases hsame : oldClient = s.client
      · rw [if_pos hsame]
        exact exists_freed_connecting hne State.goto_same
      · rw [if_neg hsame]
        exact exists_freed_returning hne State.goto_same
    exact ⟨t, ht.cons hnext rfl rfl (State.goto_of_ne hne)⟩
  | start | subscribing | failed | waiting | done =>
    rw [hphase] at hholder
    exact hholder.elim

/-- A caller that waits with the installed client may get to replace it. -/
theorem exists_replaced {failure : Failure} (hlock : s.reconnectLock = none)
    (hk : s.callers k = .waiting failure s.client) :
    ∃ t, Relation.ReflTransGen (Next Current) s t ∧
      t.replacements = ⟨k, failure, s.client⟩ :: s.replacements := by
  let s₁ : State κ := { s.goto k (.locked failure s.client) with reconnectLock := some k }
  have hlocked : step s k .lock = some s₁ := by
    simp only [step, hk, subscribeAndWaitForSignature, reconnectPubsub, hlock]
    rfl
  have hphase₁ : s₁.callers k = .locked failure s.client := State.goto_same
  let s₂ : State κ := s₁.goto k (.connecting failure)
  have hcompared : step s₁ k .compare = some s₂ := by
    simp only [step, hphase₁, subscribeAndWaitForSignature, reconnectPubsub, Option.none_or,
      Option.some_or]
    rw [if_pos (show s.client = s₁.client from rfl)]
  have hphase₂ : s₂.callers k = .connecting failure := State.goto_same
  let s₃ : State κ :=
    { s₂.goto k (.returning true) with
      client := s₂.client + 1
      replacements := ⟨k, failure, s₂.client⟩ :: s₂.replacements }
  have hconnected : step s₂ k (.connect true) = some s₃ := by
    simp only [step, hphase₂, subscribeAndWaitForSignature, reconnectPubsub]
    rfl
  refine ⟨s₃, ?_, rfl⟩
  exact .head ⟨k, .lock, trivial, hlocked⟩ (.head ⟨k, .compare, trivial, hcompared⟩
    (.single ⟨k, .connect true, trivial, hconnected⟩))

/-- A caller that enters `reconnect_pubsub` when the client it failed on is gone can replace a client
    that it has not failed on. -/
theorem Inv.exists_replacedTwice (h : Inv s) {failure : Failure} (hk : s.callers k = .failed failure)
    (hne : s.client ≠ failure.client) :
    ∃ t, Relation.ReflTransGen (Next Current) (s.goto k (.waiting failure s.client)) t ∧
      ¬ ReplacedOnce t := by
  have hfailed := h.callers k
  rw [hk] at hfailed
  have hlt : failure.client < s.client := Nat.lt_of_le_of_ne hfailed.2 hne.symm
  obtain ⟨t, ht⟩ : ∃ t, Freed k (s.goto k (.waiting failure s.client)) t := by
    cases hlock : s.reconnectLock with
    | none => exact ⟨_, .refl, hlock, rfl, rfl, rfl⟩
    | some holder =>
      have hheld := h.holder holder hlock
      have hdistinct : k ≠ holder := by
        rintro rfl
        rw [hk] at hheld
        exact hheld
      refine exists_freed hdistinct ?_
      rwa [State.goto_of_ne hdistinct.symm]
  have hwaiting : t.callers k = .waiting failure t.client := by
    rw [ht.caller_eq, State.goto_same, ht.client_eq]
    rfl
  obtain ⟨t', hpath, hreplacements⟩ := exists_replaced ht.lock_eq hwaiting
  refine ⟨t', ht.path.trans hpath, fun honce => ?_⟩
  -- the client was replaced before, by a caller that had failed on it
  have hmem : failure.client ∈ s.replacements.map Replacement.replaced := by
    rw [h.replaced, List.mem_reverse, List.mem_range]
    exact hlt
  obtain ⟨r, hr, hreplaced⟩ := List.mem_map.1 hmem
  have hcount := honce.once failure.client
  rw [hreplacements, ht.replacements_eq, List.countP_cons_of_pos (by simp)] at hcount
  have hpos : 0 < s.replacements.countP fun r => r.failure.client == failure.client := by
    apply List.countP_pos_iff.2
    exact ⟨r, hr, by rw [(h.caused r hr).1, hreplaced]; exact beq_self_eq_true _⟩
  rw [State.goto_replacements] at hcount
  omega

end

/-- **A broken client is replaced at most once** in every run in which callers enter
    `reconnect_pubsub` while the client they failed on is still installed; and where one enters it
    later, the run can go on to replace a client nobody has failed on. -/
theorem replacedOnce_iff_current :
    (∀ s : State κ, Reached Current s → ReplacedOnce s) ∧
    (∀ (s s' : State κ) (k : κ), Reached Current s → step s k .loadFull = some s' →
      ((∀ t, Relation.ReflTransGen (Next Current) s' t → ReplacedOnce t) ↔
        Current s k .loadFull)) := by
  constructor
  · intro s h
    exact (Inv.reached h).replacedOnce
  · intro s s' k h hstep
    have hinv := Inv.reached h
    constructor
    · intro hkeeps client hclient
      by_contra hne
      obtain ⟨failure, hk, rfl⟩ := Phase.failedOn_eq_some.1 hclient
      have hwaits : step s k .loadFull = some (s.goto k (.waiting failure s.client)) := by
        simp only [step, hk]
        rfl
      cases hwaits.symm.trans hstep
      obtain ⟨t, hpath, hnot⟩ := hinv.exists_replacedTwice hk hne
      exact hnot (hkeeps t hpath)
    · intro hcurrent t hpath
      have hreached : Reached Current t := (h.tail ⟨k, .loadFull, hcurrent, hstep⟩).trans hpath
      exact (Inv.reached hreached).replacedOnce

/-! ## Two callers -/

/-- A schedule, if all its steps can be taken and meet the condition. -/
def exec (meets : State κ → κ → Move → Prop) [∀ s k move, Decidable (meets s k move)] (s : State κ) :
    List (κ × Move) → Option (State κ)
  | [] => some s
  | (k, move) :: moves =>
    if meets s k move then (step s k move).bind fun s' => exec meets s' moves else none

theorem reached_exec {meets : State κ → κ → Move → Prop} [∀ s k move, Decidable (meets s k move)]
    {s s' : State κ} {moves : List (κ × Move)} (h : Reached meets s)
    (hexec : exec meets s moves = some s') : Reached meets s' := by
  induction moves generalizing s with
  | nil =>
    cases hexec
    exact h
  | cons entry moves ih =>
    obtain ⟨k, move⟩ := entry
    obtain ⟨hmeets, hrun⟩ := Option.ite_none_right_eq_some.1 hexec
    obtain ⟨s₁, hstep, hrest⟩ := Option.bind_eq_some_iff.1 hrun
    exact ih (h.tail ⟨k, move, hmeets, hstep⟩) hrest

/-- Both callers fail on the first client and ask for it to be replaced; then the one replaces it, and
    the other finds it replaced. -/
def promptSchedule : List (Bool × Move) :=
  [(true, .load), (false, .load), (true, .signatureSubscribe false),
    (false, .signatureSubscribe false), (true, .loadFull), (false, .loadFull), (true, .lock),
    (true, .compare), (true, .connect true), (true, .unlock), (false, .lock), (false, .compare),
    (false, .unlock)]

theorem replacedOnce_prompt :
    ∃ s : State Bool, exec Current State.init promptSchedule = some s ∧
      s.replacements = [⟨true, ⟨0, 0⟩, 0⟩] ∧ ReplacedOnce s := by
  have hrun : (exec Current State.init promptSchedule).map State.replacements =
      some [⟨true, ⟨0, 0⟩, 0⟩] := by
    decide
  obtain ⟨s, hexec, hreplacements⟩ := Option.map_eq_some_iff.1 hrun
  exact ⟨s, hexec, hreplacements, replacedOnce_iff_current.1 s (reached_exec .refl hexec)⟩

/-- Both callers fail on the first client; the one has replaced it when the other asks for the
    client to replace. -/
def lateSchedule : List (Bool × Move) :=
  [(true, .load), (false, .load), (true, .signatureSubscribe false),
    (false, .signatureSubscribe false), (true, .loadFull), (true, .lock), (true, .compare),
    (true, .connect true), (true, .unlock), (false, .loadFull), (false, .lock), (false, .compare),
    (false, .connect true)]

/-- The second replacement is of the client that the first one installed. -/
theorem not_replacedOnce :
    ¬ ∀ (κ : Type) (_ : DecidableEq κ) (s : State κ),
      Reached (fun _ _ _ => True) s → ReplacedOnce s := by
  intro hall
  have hrun : (exec (fun _ _ _ => True) State.init lateSchedule).map State.replacements =
      some [⟨false, ⟨0, 0⟩, 1⟩, ⟨true, ⟨0, 0⟩, 0⟩] := by
    decide
  obtain ⟨s, hexec, hreplacements⟩ := Option.map_eq_some_iff.1 hrun
  have honce := hall Bool _ s (reached_exec .refl hexec)
  have hle := honce.installed ⟨false, ⟨0, 0⟩, 1⟩ (by rw [hreplacements]; exact List.mem_cons_self)
  exact absurd hle (by decide)

end FogoSessions.Paymaster.Reconnect
