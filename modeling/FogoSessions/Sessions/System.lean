import FogoSessions.DomainRegistry.Effects
import FogoSessions.Lib.History
import FogoSessions.SessionManager.Effects
import FogoSessions.Tollbooth.Program

/-!
# The sessions of a chain

The session manager, the domain registry and the tollbooth as programs of one runtime: the events
their instructions leave in the log, and what each of them did to the ledger.
-/

namespace FogoSessions.Sessions

open Lib Solana Sdk Intents DomainRegistry SessionManager

def programIds : List Pubkey :=
  [ProgramIds.sessionManager, ProgramIds.domainRegistry, ProgramIds.tollbooth]

theorem system_not_mem : Ids.systemProgram ∉ programIds := by decide

theorem token_not_mem : Ids.tokenProgram ∉ programIds := by decide

theorem sessionManager_mem : ProgramIds.sessionManager ∈ programIds := by decide

theorem domainRegistry_mem : ProgramIds.domainRegistry ∈ programIds := by decide

section

variable [Addressing] [SystemProgram] [TokenProgram] [TokenMetadata] [Chrono] [LegacyOffchain]

def process (ctx : Context) (ix : Instruction) (l : Ledger) : Option Ledger :=
  if ix.programId = ProgramIds.sessionManager then (SessionManager.process ctx ix l).toOption
  else if ix.programId = ProgramIds.domainRegistry then (DomainRegistry.process ix l).toOption
  else if ix.programId = ProgramIds.tollbooth then (Tollbooth.process ctx ix l).toOption
  else none

/-- The session manager, the domain registry and the tollbooth. -/
def programs : Programs where
  ids := programIds
  process := process

end

/-! ## Events -/

/-- The address of an account of the instruction. -/
def account (e : Event) (i : Nat) : Option Pubkey :=
  e.instruction.accounts[i]?.map AccountMeta.pubkey

/-- The event is a command of the session manager. -/
def IsCommand (command : Command) (e : Event) : Prop :=
  e.instruction.programId = ProgramIds.sessionManager ∧
    Command.decode e.instruction.data = some command

/-- Which account of a command is the session's. -/
def sessionIndex : Command → Nat
  | .startSession => 2
  | .revokeSession | .closeSession => 0

/-- The event is a command on the session account. -/
def IsOn (command : Command) (key : Pubkey) (e : Event) : Prop :=
  IsCommand command e ∧ account e (sessionIndex command) = some key

abbrev IsStart : Pubkey → Event → Prop := IsOn .startSession

abbrev IsRevoke : Pubkey → Event → Prop := IsOn .revokeSession

abbrev IsClose : Pubkey → Event → Prop := IsOn .closeSession

/-- The event is an instruction of the registry with these arguments. -/
def IsRegistry (args : Args) (e : Event) : Prop :=
  e.instruction.programId = ProgramIds.domainRegistry ∧ Args.decode e.instruction.data = .ok args

/-- An `add_program` of the program to the domain. -/
def Adds (domain : String) (programId : Pubkey) (e : Event) : Prop :=
  IsRegistry (.addProgram domain) e ∧ account e 3 = some programId

/-- A `remove_program` of the program from the domain. -/
def Removes (domain : String) (programId : Pubkey) (e : Event) : Prop :=
  IsRegistry (.removeProgram domain) e ∧ account e 3 = some programId

/-- An instruction of the tollbooth. -/
def IsToll (e : Event) : Prop := e.instruction.programId = ProgramIds.tollbooth

/-- The program was added to the domain and not removed from it since. -/
def IsRegistered (domain : String) (programId : Pubkey) (log : List Event) : Prop :=
  ∃ e older, Adds domain programId e ∧ Since (fun x => ¬ Removes domain programId x) e older log

theorem IsCommand.unique {c c' : Command} {e : Event} (h : IsCommand c e) (h' : IsCommand c' e) :
    c = c' := Option.some.inj (h.2.symm.trans h'.2)

theorem IsOn.unique {c c' : Command} {key key' : Pubkey} {e : Event} (h : IsOn c key e)
    (h' : IsOn c' key' e) : c = c' ∧ key = key' := by
  obtain rfl := h.1.unique h'.1
  exact ⟨rfl, Option.some.inj (h.2.symm.trans h'.2)⟩

theorem IsRegistry.unique {args args' : Args} {e : Event} (h : IsRegistry args e)
    (h' : IsRegistry args' e) : args = args' := Except.ok.inj (h.2.symm.trans h'.2)

theorem IsCommand.not_isRegistry {c : Command} {args : Args} {e : Event} (h : IsCommand c e) :
    ¬ IsRegistry args e := by
  intro h'
  have hid := h.1.symm.trans h'.1
  revert hid
  decide

theorem IsCommand.not_isToll {c : Command} {e : Event} (h : IsCommand c e) : ¬ IsToll e := by
  intro h'
  have hid := h.1.symm.trans h'
  revert hid
  decide

theorem IsRegistry.not_isToll {args : Args} {e : Event} (h : IsRegistry args e) : ¬ IsToll e := by
  intro h'
  have hid := h.1.symm.trans h'
  revert hid
  decide

theorem isRegistered_cons {domain : String} {programId : Pubkey} {e : Event} {log : List Event} :
    IsRegistered domain programId (e :: log) ↔
      Adds domain programId e ∨ ¬ Removes domain programId e ∧ IsRegistered domain programId log :=
  Since.exists_cons

/-! ## What an event did -/

variable [Addressing] [SystemProgram] [TokenProgram] [TokenMetadata] [Chrono] [LegacyOffchain]

/-- What an event did: its instruction, and how the ledger before it became the ledger after it. -/
inductive Action (e : Event) : Prop where
  | start (s : Start) : IsStart s.accounts.session e → CanSign programIds s.accounts.session →
      s.Checked e.context e.instruction.accounts e.before →
      FrameExcept programIds s.accounts.session e.before e.after →
      Vacant e.before s.accounts.session → Holds e.after s.accounts.session s.session → Action e
  | revoke (key : Pubkey) (session : Session) (sessionInfo : SessionInfo) : IsRevoke key e →
      loadSession e.before key = .ok session → revokedInfo session.sessionInfo = .ok sessionInfo →
      FrameExcept programIds key e.before e.after →
      (0 < (e.before key).lamports → Holds e.after key { session with sessionInfo }) → Action e
  | close (key : Pubkey) (session : Session) (user : Pubkey) (mints : List Pubkey) :
      IsClose key e → loadSession e.before key = .ok session →
      session.isLive e.context.now = .ok false →
      mintsToRevoke session.sessionInfo = .ok (user, mints) →
      FrameExcept programIds key e.before e.after → Vacant e.after key →
      (∀ mint ∈ mints, NotDelegate e.after (associatedTokenAddress user mint) key) → Action e
  | config (args : Args) : IsRegistry args e → (∀ domain, args ≠ .addProgram domain) →
      (∀ domain, args ≠ .removeProgram domain) →
      Rewritten programIds configAddress e.before e.after →
      ((e.before configAddress).data = [] ∨ (e.before configAddress).data.length = 40 →
        (e.after configAddress).data.length = 40) → Action e
  | add (domain : String) (programId : Pubkey) (before : List DomainProgram) :
      Adds domain programId e →
      ⟨programId, derivedAddress [programSignerSeed] programId⟩ ∉ before →
      RecordChanged programIds domain before
        (before ++ [⟨programId, derivedAddress [programSignerSeed] programId⟩]) e.before e.after →
      Action e
  | remove (domain : String) (p : DomainProgram) (before after : List DomainProgram) (index : Nat) :
      Removes domain p.programId e → before[index]? = some p →
      after.Perm (before.eraseIdx index) →
      RecordChanged programIds domain before after e.before e.after → Action e
  | toll (toll : Tollbooth.Toll) : IsToll e → toll.Paid e.context e.instruction e.before e.after →
      Frame programIds e.before e.after → Action e

theorem Action.of_process {ctx : Context} {ix : Instruction} {l l' : Ledger}
    (hsigned : Signed programIds ix) (h : process ctx ix l = some l') : Action ⟨ctx, ix, l, l'⟩ := by
  unfold process at h
  split at h
  · rename_i hid
    have hok := toOption_eq_some.1 h
    unfold SessionManager.process at hok
    split at hok
    · rename_i hcommand
      obtain ⟨s, hchecked, hframe, hvacant, hholds⟩ :=
        startSession_eq_ok system_not_mem token_not_mem hok
      obtain ⟨hkey, ⟨account, hmem, haccount, hsigner⟩, -⟩ := tryAccounts_eq_ok hchecked.accounts_eq
      exact .start s ⟨⟨hid, hcommand⟩, hkey⟩ (haccount ▸ hsigned account hmem hsigner) hchecked
        hframe hvacant hholds
    · rename_i hcommand
      obtain ⟨key, session, info, hkey, hload, hrevoked, hframe, hholds⟩ := revokeSession_eq_ok hok
      rw [List.head?_eq_getElem?] at hkey
      exact .revoke key session info ⟨⟨hid, hcommand⟩, hkey⟩ hload hrevoked hframe hholds
    · rename_i hcommand
      obtain ⟨key, session, user, mints, hkey, hload, hlive, hmints, hframe, hvacant, hdelegates⟩ :=
        closeSession_eq_ok token_not_mem hok
      rw [List.head?_eq_getElem?] at hkey
      exact .close key session user mints ⟨⟨hid, hcommand⟩, hkey⟩ hload hlive hmints hframe hvacant
        hdelegates
    · cases hok
  · split at h
    · rename_i hid
      have hok := toOption_eq_some.1 h
      simp only [DomainRegistry.process, bind_eq_ok] at hok
      obtain ⟨args, hargs, hok⟩ := hok
      cases args with
      | initializeConfig =>
        obtain ⟨hrewritten, hlen⟩ := initializeConfig_eq_ok system_not_mem hok
        exact .config _ ⟨hid, hargs⟩ (by simp) (by simp) hrewritten fun _ => hlen
      | updateAuthority newAuthority =>
        obtain ⟨hrewritten, hlen, hnonempty⟩ := updateAuthority_eq_ok hok
        exact .config _ ⟨hid, hargs⟩ (by simp) (by simp) hrewritten fun hbefore =>
          hlen.trans (hbefore.resolve_left hnonempty)
      | addProgram domain =>
        obtain ⟨programId, before, haccount, hnew, hchanged⟩ := addProgram_eq_ok system_not_mem hok
        exact .add domain programId before ⟨⟨hid, hargs⟩, haccount⟩ hnew hchanged
      | removeProgram domain =>
        obtain ⟨programId, before, index, p, after, haccount, hp, rfl, hperm, hchanged⟩ :=
          removeProgram_eq_ok system_not_mem hok
        exact .remove domain p before after index ⟨⟨hid, hargs⟩, haccount⟩ hp hperm hchanged
    · split at h
      · rename_i hid
        obtain ⟨toll, hpaid⟩ := Tollbooth.process_eq_ok (toOption_eq_some.1 h)
        exact .toll toll hid hpaid (hpaid.move.writes.frame token_not_mem)
      · cases h

/-- Every event of the log is one of the actions. -/
theorem action [Ed25519] {w : World} {e : Event} (h : Invoked programs w e) : Action e :=
  .of_process h.signed h.process

end FogoSessions.Sessions
