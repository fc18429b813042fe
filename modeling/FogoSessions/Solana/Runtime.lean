import FogoSessions.Solana.Ed25519Program
import FogoSessions.Solana.Instruction
import FogoSessions.Solana.Ledger
import Mathlib.Data.List.Forall2

/-!
# The runtime

Transactions run one after another, each a list of instructions run in order; a failed transaction
leaves no trace. The instructions of the programs under study run as those programs say and are
recorded in a log, newest first. Everything else, other programs and their invocations of the
programs under study included, runs as it likes within `Frame`; so does what a program gets back when
it invokes another one.
-/

namespace FogoSessions.Solana

open Lib

/-- What a program sees besides its accounts: the instructions of the transaction with the index of
    the current one (the instructions sysvar) and the time (the clock sysvar). -/
structure Context where
  instructions : List Instruction
  index : Nat
  now : Int64

/-- The programs under study: what an instruction of one of them does to the ledger, `none` when it
    fails. -/
structure Programs where
  ids : List Pubkey
  process : Context → Instruction → Ledger → Option Ledger

/-- An executed instruction of the programs under study. -/
structure Event where
  context : Context
  instruction : Instruction
  before : Ledger
  after : Ledger

structure World where
  ledger : Ledger
  now : Int64
  log : List Event

section

variable [Addressing] [Ed25519]

/-- The ed25519 instructions of the transaction succeed. -/
def Verified (instructions : List Instruction) : Prop :=
  ∀ ix ∈ instructions, ix.programId = Ids.ed25519Program →
    Ed25519Program.verify ix.data (instructions.map Instruction.data) = .ok ⟨⟩

/-- Nobody but the programs themselves signs for an address derived for them. -/
def Signed (ids : List Pubkey) (ix : Instruction) : Prop :=
  ∀ account ∈ ix.accounts, account.isSigner = true → CanSign ids account.pubkey

/-- The runtime lets the transaction in. -/
structure Admissible (ids : List Pubkey) (instructions : List Instruction) : Prop where
  verified : Verified instructions
  signed : ∀ ix ∈ instructions, Signed ids ix

/-- The first `n` instructions of a transaction and a part of the next one have run: on the ledger
    `l` they made these events and the last ledger. -/
inductive Exec (P : Programs) (now : Int64) (instructions : List Instruction) (l : Ledger) :
    Nat → List Event → Ledger → Prop where
  /-- the transaction's fee is taken -/
  | start {l' : Ledger} : Frame P.ids l l' → Exec P now instructions l 0 [] l'
  /-- an instruction of the programs under study -/
  | program {n : Nat} {es : List Event} {l' l'' : Ledger} {ix : Instruction} :
      Exec P now instructions l n es l' → instructions[n]? = some ix → ix.programId ∈ P.ids →
      P.process ⟨instructions, n, now⟩ ix l' = some l'' →
      Exec P now instructions l (n + 1) (⟨⟨instructions, n, now⟩, ix, l', l''⟩ :: es) l''
  /-- another program writes to the ledger -/
  | write {n : Nat} {es : List Event} {l' l'' : Ledger} {ix : Instruction} :
      Exec P now instructions l n es l' → instructions[n]? = some ix → ix.programId ∉ P.ids →
      Frame P.ids l' l'' → Exec P now instructions l n es l''
  /-- another program invokes a program under study -/
  | invoke {n : Nat} {es : List Event} {l' l'' : Ledger} {ix inner : Instruction} :
      Exec P now instructions l n es l' → instructions[n]? = some ix → ix.programId ∉ P.ids →
      inner.programId ∈ P.ids → Signed P.ids inner →
      P.process ⟨instructions, n, now⟩ inner l' = some l'' →
      Exec P now instructions l n (⟨⟨instructions, n, now⟩, inner, l', l''⟩ :: es) l''
  /-- another program's instruction is done -/
  | done {n : Nat} {es : List Event} {l' : Ledger} {ix : Instruction} :
      Exec P now instructions l n es l' → instructions[n]? = some ix → ix.programId ∉ P.ids →
      Exec P now instructions l (n + 1) es l'

/-- The states between transactions, from the empty ledger on. -/
inductive Reachable (P : Programs) : World → Prop where
  | init (now : Int64) : Reachable P ⟨.empty, now, []⟩
  | tick {w : World} {now : Int64} : Reachable P w → w.now ≤ now → Reachable P { w with now }
  | transaction {w : World} {instructions : List Instruction} {es : List Event} {l' : Ledger} :
      Reachable P w → Admissible P.ids instructions →
      Exec P w.now instructions w.ledger instructions.length es l' →
      Reachable P ⟨l'.purge, w.now, es ++ w.log⟩

/-- The states a program can see: also the ones in the middle of a transaction. -/
inductive Observed (P : Programs) : World → Prop where
  | mk {w : World} {instructions : List Instruction} {n : Nat} {es : List Event} {l' : Ledger} :
      Reachable P w → Admissible P.ids instructions → Exec P w.now instructions w.ledger n es l' →
      Observed P ⟨l', w.now, es ++ w.log⟩

variable {P : Programs}

theorem Reachable.observed {w : World} (h : Reachable P w) : Observed P w :=
  have hnone : Admissible P.ids [] := ⟨by rintro ix ⟨⟩, by rintro ix ⟨⟩⟩
  .mk h hnone (.start Frame.refl)

/-! ## Invariants -/

/-- An instruction of the programs under study that ran on the world. -/
structure Invoked (P : Programs) (w : World) (e : Event) : Prop where
  now_eq : e.context.now = w.now
  before_eq : e.before = w.ledger
  verified : Verified e.context.instructions
  signed : Signed P.ids e.instruction
  ids : e.instruction.programId ∈ P.ids
  process : P.process e.context e.instruction e.before = some e.after

/-- What holds of the empty ledger and is kept by every step. -/
structure Invariant (P : Programs) (I : World → Prop) : Prop where
  init : ∀ now, I ⟨.empty, now, []⟩
  tick : ∀ w now, I w → w.now ≤ now → I { w with now }
  frame : ∀ w l', I w → Frame P.ids w.ledger l' → I { w with ledger := l' }
  purge : ∀ w, I w → I { w with ledger := w.ledger.purge }
  invoke : ∀ w e, Observed P w → I w → Invoked P w e →
    I { w with ledger := e.after, log := e :: w.log }

/-- What an invariant says before a transaction it says at every point of the transaction. -/
theorem Invariant.exec {I : World → Prop} (hI : Invariant P I) {w : World}
    {instructions : List Instruction} (hw : Reachable P w)
    (hadmissible : Admissible P.ids instructions) (h : I w) {n : Nat} {es : List Event} {l' : Ledger}
    (hexec : Exec P w.now instructions w.ledger n es l') : I ⟨l', w.now, es ++ w.log⟩ := by
  induction hexec with
  | start hframe => exact hI.frame w _ h hframe
  | @program n es l' l'' ix hexec hix hid hprocess ih =>
    have hsigned := hadmissible.signed ix (List.mem_of_getElem? hix)
    exact hI.invoke _ ⟨⟨instructions, n, w.now⟩, ix, l', l''⟩ (.mk hw hadmissible hexec) ih
      ⟨rfl, rfl, hadmissible.verified, hsigned, hid, hprocess⟩
  | write hexec hix hid hframe ih => exact hI.frame _ _ ih hframe
  | @invoke n es l' l'' ix inner hexec hix hid hinner hsigned hprocess ih =>
    exact hI.invoke _ ⟨⟨instructions, n, w.now⟩, inner, l', l''⟩ (.mk hw hadmissible hexec) ih
      ⟨rfl, rfl, hadmissible.verified, hsigned, hinner, hprocess⟩
  | done hexec hix hid ih => exact ih

theorem Invariant.reachable {I : World → Prop} (hI : Invariant P I) {w : World}
    (hw : Reachable P w) : I w := by
  induction hw with
  | init now => exact hI.init now
  | tick hw hle ih => exact hI.tick _ _ ih hle
  | transaction hw hadmissible hexec ih => exact hI.purge _ (hI.exec hw hadmissible ih hexec)

/-- The invariant rule: an invariant holds in every state a program can see. -/
theorem Invariant.observed {I : World → Prop} (hI : Invariant P I) {w : World}
    (hw : Observed P w) : I w := by
  cases hw with
  | mk hw hadmissible hexec => exact hI.exec hw hadmissible (hI.reachable hw) hexec

/-! ## The log -/

/-- Every event of the log ran on a state a program could see, whose log is what is older than the
    event. -/
theorem Observed.history {w : World} (hw : Observed P w) :
    ∀ newer e older, w.log = newer ++ e :: older →
      ∃ w', Observed P w' ∧ w'.log = older ∧ w'.now ≤ w.now ∧ Invoked P w' e := by
  refine Invariant.observed (I := fun w => ∀ newer e older, w.log = newer ++ e :: older →
    ∃ w', Observed P w' ∧ w'.log = older ∧ w'.now ≤ w.now ∧ Invoked P w' e) ?_ hw
  constructor
  · rintro now newer e older hlog
    simp at hlog
  · intro w now ih hle newer e older hlog
    obtain ⟨w', hw', hold, hnow, he⟩ := ih newer e older hlog
    exact ⟨w', hw', hold, Int64.le_trans hnow hle, he⟩
  · intro w l' ih _ newer e older hlog
    exact ih newer e older hlog
  · intro w ih newer e older hlog
    exact ih newer e older hlog
  · intro w e hw ih he newer e' older hlog
    cases newer with
    | nil =>
      obtain ⟨rfl, rfl⟩ := List.cons.inj hlog
      exact ⟨w, hw, rfl, Int64.le_refl _, he⟩
    | cons _ newer =>
      obtain ⟨-, htail⟩ := List.cons.inj hlog
      exact ih newer e' older htail

/-! ## The instructions of the transaction itself -/

/-- The instruction is one of the transaction, and not one that another program invoked. -/
def Event.IsOwn (e : Event) : Prop := e.context.instructions[e.context.index]? = some e.instruction

instance (e : Event) : Decidable e.IsOwn := inferInstanceAs (Decidable (_ = _))

/-- The event ran the instruction. -/
structure Event.Runs (P : Programs) (now : Int64) (ix : Instruction) (e : Event) : Prop where
  instruction_eq : e.instruction = ix
  now_eq : e.context.now = now
  process : P.process e.context e.instruction e.before = some e.after

omit [Ed25519] in
/-- The instructions of the transaction that are for the programs under study leave one event each,
    in their order. -/
theorem Exec.own {now : Int64} {instructions : List Instruction} {l l' : Ledger} {n : Nat}
    {es : List Event} (h : Exec P now instructions l n es l') :
    List.Forall₂ (Event.Runs P now)
      ((instructions.take n).filter fun ix => ix.programId ∈ P.ids)
      (es.filter fun e => e.IsOwn).reverse := by
  induction h with
  | start => exact .nil
  | @program n es l' l'' ix hexec hix hid hprocess ih =>
    have hown : Event.IsOwn ⟨⟨instructions, n, now⟩, ix, l', l''⟩ := hix
    rw [List.take_add_one, hix, List.filter_append, List.filter_cons_of_pos (by simp [hown]),
      List.reverse_cons]
    refine List.rel_append ih ?_
    rw [Option.toList_some, List.filter_cons_of_pos (by simp [hid]), List.filter_nil]
    exact .cons ⟨rfl, rfl, hprocess⟩ .nil
  | write hexec hix hid hframe ih => exact ih
  | @invoke n es l' l'' ix inner hexec hix hid hinner hsigned hprocess ih =>
    -- the instruction at this place is another program's
    have hother : ¬ Event.IsOwn ⟨⟨instructions, n, now⟩, inner, l', l''⟩ := by
      intro hown
      obtain rfl : ix = inner := Option.some.inj (hix.symm.trans hown)
      exact hid hinner
    rw [List.filter_cons_of_neg (by simp [hother])]
    exact ih
  | @done n es l' ix hexec hix hid ih =>
    rw [List.take_add_one, hix, List.filter_append, Option.toList_some,
      List.filter_cons_of_neg (by simp [hid]), List.filter_nil, List.append_nil]
    exact ih

end

/-! ## Invoking other programs -/

/-- Invocations by the programs under study. The runtime lets no invoked program call back into them,
    so all that runs is other programs' code. -/
class Invocation [Addressing] (ids : List Pubkey) where
  /-- `invoke_signed` -/
  invoke : Ledger → Instruction → Option Ledger
  invoke_frame : ∀ {l l' : Ledger} {ix : Instruction}, invoke l ix = some l' → Frame ids l l'
  /-- only accounts that are handed over as writable change -/
  invoke_other : ∀ {l l' : Ledger} {ix : Instruction}, invoke l ix = some l' →
    ∀ key, (∀ account ∈ ix.accounts, account.pubkey = key → account.isWritable = false) →
      l' key = l key

end FogoSessions.Solana
