import FogoSessions.IntentTransfer.Settlement
import FogoSessions.Sessions.Authorization

/-!
# The intent transfer program on a chain

The program in the runtime: what its events carried out and registered, and which of them wrote last to
each of its accounts.
-/

namespace FogoSessions.IntentTransfer

open Lib Solana Intents

/-! ## Events -/

def BridgeMessage.nonce : BridgeMessage → UInt64
  | ntt message => message.nonce

/-- The nonce in a text of the kind's grammar. -/
def Kind.nonceOf (kind : Kind) (text : Bytes) : Option UInt64 :=
  match kind with
  | transfer => (Message.tryFrom text).toOption.map Message.nonce
  | bridge => (BridgeMessage.tryFrom text).toOption.map BridgeMessage.nonce

/-- The grammar of the texts that an instruction carries out. -/
def Command.kind : Command → Option Kind
  | sendTokens | sendNative => some .transfer
  | bridgeNttTokens _ => some .bridge
  | registerNttConfig | registerFeeConfig _ => none

/-- A signed text that is carried out. -/
structure Execution where
  kind : Kind
  signer : Pubkey
  text : Bytes
  nonce : UInt64
deriving DecidableEq

/-- The signed text in front of the instruction, whatever it says. -/
def signedText [LegacyOffchain] (ctx : Context) : Except (IntentError Unit) (Intent Bytes) :=
  Intent.load (fun text => .ok text) ctx.instructions ctx.index

/-- What the event carried out. -/
def execution [LegacyOffchain] (e : Event) : Option Execution := do
  let command ← (Command.decode e.instruction.data).toOption
  let kind ← command.kind
  let intent ← (signedText e.context).toOption
  let nonce ← kind.nonceOf intent.message
  return { kind, signer := intent.signer, text := intent.message, nonce }

/-- What the event registered. -/
def registration (e : Event) : Option Registration :=
  match Command.decode e.instruction.data with
  | .ok (.registerFeeConfig config) => do
    let mint ← e.instruction.accounts[2]?
    return .fee mint.pubkey config
  | .ok .registerNttConfig => do
    let mint ← e.instruction.accounts[2]?
    let manager ← e.instruction.accounts[4]?
    return .ntt mint.pubkey ⟨manager.pubkey⟩
  | _ => none

/-- The text of an intent is what its message was parsed from. -/
theorem load_text [LegacyOffchain] {M : Type} {parse : Bytes → Except Unit M} {ctx : Context}
    {intent : Intent M} (h : Intent.load parse ctx.instructions ctx.index = .ok intent) :
    ∃ text, signedText ctx = .ok ⟨intent.signer, text⟩ ∧ parse text = .ok intent.message := by
  simp only [Intent.load, bind_eq_ok, okOr_eq_ok] at h
  obtain ⟨ix, hix, htry⟩ := h
  unfold Intent.tryFrom at htry
  split at htry
  · rename_i hid
    simp only [bind_eq_ok, mapErr_eq_ok, Intent.tryFromData, pure_eq_ok] at htry
    obtain ⟨data, hdata, _, hcheck, message, hparse, rfl⟩ := htry
    refine ⟨data.message.toVec, ?_, hparse⟩
    unfold signedText Intent.load Intent.tryFrom Intent.tryFromData
    rw [hix, okOr_some, ok_bind, if_pos hid, hdata]
    exact bind_eq_ok.2 ⟨data, rfl, bind_eq_ok.2 ⟨_, hcheck, rfl⟩⟩
  · cases htry

theorem execution_eq_some [LegacyOffchain] {e : Event} {command : Command} {kind : Kind}
    {signer : Pubkey} {text : Bytes} {nonce : UInt64}
    (hcommand : Command.decode e.instruction.data = .ok command) (hkind : command.kind = some kind)
    (htext : signedText e.context = .ok ⟨signer, text⟩) (hnonce : kind.nonceOf text = some nonce) :
    execution e = some ⟨kind, signer, text, nonce⟩ := by
  simp only [execution, Option.bind_eq_bind, Option.bind_eq_some_iff, toOption_eq_some]
  exact ⟨command, hcommand, kind, hkind, _, htext, nonce, hnonce, rfl⟩

/-! ## The program in the runtime -/

section

variable [Addressing] [SystemProgram] [TokenProgram] [AssociatedTokenProgram] [TokenMetadata]
  [Invocation programIds] [LegacyOffchain]

/-- The intent transfer program. -/
def programs : Programs where
  ids := programIds
  process ctx ix l := (process ctx ix l).toOption

/-- What carrying out a signed text did to the accounts. -/
inductive Settles (x : Execution) (e : Event) : Prop where
  | tokens (message : Message) : Command.decode e.instruction.data = .ok .sendTokens →
      Message.tryFrom x.text = .ok message →
      TokensSent x.signer message e.instruction.accounts e.before e.after → Settles x e
  | native (message : Message) : Command.decode e.instruction.data = .ok .sendNative →
      Message.tryFrom x.text = .ok message →
      NativeSent x.signer message e.instruction.accounts e.before e.after → Settles x e
  | bridge (args : BridgeNttTokensArgs) (message : NttMessage) :
      Command.decode e.instruction.data = .ok (.bridgeNttTokens args) →
      BridgeMessage.tryFrom x.text = .ok (.ntt message) →
      Bridged x.signer message e.instruction.accounts e.before e.after → Settles x e

/-- What an event did: it carried out a signed text, or it registered a configuration. -/
inductive Action (e : Event) : Prop where
  | execution (x : Execution) : execution e = some x → registration e = none →
      Advances (nonceAddress x.kind x.signer) x.nonce e.before e.after →
      (SystemProgram.Solvent → Settles x e) → Action e
  | registration (r : Registration) : registration e = some r → IntentTransfer.execution e = none →
      r.Done e.instruction.accounts e.before e.after → Action e

theorem Action.of_process {ctx : Context} {ix : Instruction} {l l' : Ledger}
    (h : IntentTransfer.process ctx ix l = .ok l') : Action ⟨ctx, ix, l, l'⟩ := by
  simp only [IntentTransfer.process, bind_eq_ok] at h
  obtain ⟨command, hcommand, h⟩ := h
  cases command with
  | sendTokens =>
    obtain ⟨intent, hintent, hadvances, hsent⟩ := sendTokens_eq_ok h
    obtain ⟨text, htext, hparse⟩ := load_text hintent
    refine .execution _ (execution_eq_some hcommand rfl htext ?_) ?_ hadvances
      fun _ => .tokens _ hcommand hparse hsent
    · rw [Kind.nonceOf, hparse]
      rfl
    · rw [IntentTransfer.registration, hcommand]
  | sendNative =>
    obtain ⟨intent, hintent, hadvances, hsent⟩ := sendNative_eq_ok h
    obtain ⟨text, htext, hparse⟩ := load_text hintent
    refine .execution _ (execution_eq_some hcommand rfl htext ?_) ?_ hadvances
      fun hsolvent => .native _ hcommand hparse (hsent hsolvent)
    · rw [Kind.nonceOf, hparse]
      rfl
    · rw [IntentTransfer.registration, hcommand]
  | bridgeNttTokens args =>
    obtain ⟨signer, message, hintent, hadvances, hbridged⟩ := bridgeNttTokens_eq_ok h
    obtain ⟨text, htext, hparse⟩ := load_text hintent
    refine .execution _ (execution_eq_some hcommand rfl htext ?_) ?_ hadvances
      fun _ => .bridge _ _ hcommand hparse hbridged
    · rw [Kind.nonceOf, hparse]
      rfl
    · rw [IntentTransfer.registration, hcommand]
  | registerNttConfig =>
    obtain ⟨mint, manager, hmint, hmanager, hdone⟩ := registerNttConfig_eq_ok h
    refine .registration _ ?_ ?_ hdone
    · rw [IntentTransfer.registration, hcommand]
      simp only [hmint, hmanager]
      rfl
    · rw [IntentTransfer.execution, hcommand]
      rfl
  | registerFeeConfig config =>
    obtain ⟨mint, hmint, hdone⟩ := registerFeeConfig_eq_ok h
    refine .registration _ ?_ ?_ hdone
    · rw [IntentTransfer.registration, hcommand]
      simp only [hmint]
      rfl
    · rw [IntentTransfer.execution, hcommand]
      rfl

variable [Ed25519] {w : World} {e : Event}

/-- Every event of the log is one of the two. -/
theorem action (h : Invoked programs w e) : Action e := .of_process (toOption_eq_some.1 h.process)

/-! ## Custody -/

/-- The event wrote to an account of the program's. -/
def Writes (key : Pubkey) (e : Event) : Prop :=
  (∃ x, execution e = some x ∧ nonceAddress x.kind x.signer = key) ∨
    ∃ r, registration e = some r ∧ r.address = key

/-- The accounts of the program are in its custody. -/
theorem custodian (seeds : List Bytes) :
    Custodian programs (derivedAddress seeds ProgramIds.intentTransfer)
      (Writes (derivedAddress seeds ProgramIds.intentTransfer)) where
  derived := not_canSign seeds
  system := system_not_mem
  quiet w e _ he hquiet := by
    cases action he with
    | execution x hx _ hadvances _ =>
      refine hadvances.kept _ ?_
      rintro heq
      exact hquiet (.inl ⟨x, hx, heq.symm⟩)
    | registration r hr _ hdone =>
      refine hdone.kept _ ?_
      rintro heq
      exact hquiet (.inr ⟨r, hr, heq.symm⟩)
  writes w e _ he hwrites := by
    cases action he with
    | execution x hx hnone hadvances _ =>
      obtain ⟨x', hx', hkey⟩ | ⟨r, hr, -⟩ := hwrites
      · obtain rfl := Option.some.inj (hx.symm.trans hx')
        exact hkey ▸ ⟨hadvances.owner_mem, hadvances.lamports_pos⟩
      · cases hnone.symm.trans hr
    | registration r hr hnone hdone =>
      obtain ⟨x, hx, -⟩ | ⟨r', hr', hkey⟩ := hwrites
      · cases hnone.symm.trans hx
      · obtain rfl := Option.some.inj (hr.symm.trans hr')
        exact hkey ▸ ⟨hdone.owner_mem, hdone.lamports_pos⟩

end

end FogoSessions.IntentTransfer
