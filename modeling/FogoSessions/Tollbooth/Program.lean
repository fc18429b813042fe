import FogoSessions.Lib.Borsh
import FogoSessions.ProgramIds
import FogoSessions.Sdk.Session
import FogoSessions.Solana.AnchorSpl
import FogoSessions.Solana.Runtime

/-!
# The tollbooth program

`tollbooth/src/lib.rs`: the user of a session pays a toll to the recipient of the session's domain.
-/

namespace FogoSessions.Tollbooth

open Lib Solana Sdk

inductive TollboothError where
  | invalidSource
  | invalidDestination
deriving DecidableEq

abbrev Error := ProgramError TollboothError

/-- `TOLL_RECIPIENT_SEED`. -/
def tollRecipientSeed : Bytes := utf8 "toll_recipient"

/-- `TOLL_RECIPIENT_ID`. -/
def tollRecipientId : UInt8 := 0

/-- `PROGRAM_SIGNER_SEED`. -/
def programSignerSeed : Bytes := utf8 "fogo_session_program_signer"

/-- The arguments of `pay_toll`. -/
structure PayToll where
  amount : UInt64
  recipientId : UInt8
deriving DecidableEq

def PayToll.decode : Decoder PayToll := do
  let amount ← Decoder.u64
  let recipientId ← Decoder.u8
  return { amount, recipientId }

/-- `PayToll::DISCRIMINATOR`. -/
def PayToll.discriminator : Bytes := [0]

variable [Addressing] [TokenProgram]

omit [TokenProgram] in
/-- The address that the tolls of a domain go to. -/
def tollRecipient (domainHash : DomainHash) : Pubkey :=
  derivedAddress [tollRecipientSeed, [tollRecipientId], domainHash.bytes] ProgramIds.tollbooth

def payToll (ctx : Context) (accounts : List AccountMeta) (amount : UInt64) (l : Ledger) :
    Except Error Ledger :=
  match accounts with
  | session :: programSigner :: source :: destination :: mint :: tokenProgram :: _ => do
    let sessionData ← Anchor.account l session.pubkey ProgramIds.sessionManager
      (Anchor.tryDeserialize Session.discriminator Session.codec)
    let sourceData ← AnchorSpl.tokenAccount l source.pubkey
    let destinationData ← AnchorSpl.tokenAccount l destination.pubkey
    let _ ← AnchorSpl.mint l mint.pubkey
    Anchor.program tokenProgram Ids.tokenProgram
    Anchor.signerConstraint session
    Anchor.seeds programSigner [programSignerSeed] ProgramIds.tollbooth
    Anchor.writable source
    AnchorSpl.tokenMint sourceData mint.pubkey
    Anchor.writable destination
    AnchorSpl.tokenMint destinationData mint.pubkey
    let user ← mapErr (fun _ => .foreign)
      (sessionData.getUserChecked ProgramIds.tollbooth ctx.now)
    require (associatedTokenAddress user mint.pubkey = source.pubkey) (.custom .invalidSource)
    let domainHash ← mapErr (fun _ => .foreign) (sessionData.getDomainHashChecked ctx.now)
    require (associatedTokenAddress (tollRecipient domainHash) mint.pubkey = destination.pubkey)
      (.custom .invalidDestination)
    okOr (TokenProgram.transfer l source.pubkey destination.pubkey session.pubkey
      (some programSigner.pubkey) amount) .invoked
  | _ => .error (.anchor .accountNotEnoughKeys)

/-- The arguments of an instruction; what follows them is ignored. -/
def Args.decode (data : Bytes) : Except Error PayToll :=
  if data.take 1 = PayToll.discriminator then
    match PayToll.decode (data.drop 1) with
    | .ok (args, _) => .ok args
    | .error _ => .error (.anchor .instructionDidNotDeserialize)
  else .error (.anchor .instructionFallbackNotFound)

def process (ctx : Context) (ix : Instruction) (l : Ledger) : Except Error Ledger := do
  let args ← Args.decode ix.data
  payToll ctx ix.accounts args.amount l

/-! ## What a paid toll is -/

/-- A toll, as the program reads it: who pays with which session, for which domain, and how much. -/
structure Toll where
  sessionKey : Pubkey
  session : Session
  user : Pubkey
  domainHash : DomainHash
  mint : Pubkey
  amount : UInt64

/-- The program took the toll. -/
structure Toll.Paid (toll : Toll) (ctx : Context) (ix : Instruction) (l l' : Ledger) : Prop where
  owner_eq : (l toll.sessionKey).owner = ProgramIds.sessionManager
  session_eq : Anchor.tryDeserialize Session.discriminator Session.codec
    (l toll.sessionKey).data = .ok toll.session
  user_eq : toll.session.getUserChecked ProgramIds.tollbooth ctx.now = .ok toll.user
  domainHash_eq : toll.session.getDomainHashChecked ctx.now = .ok toll.domainHash
  sessionKey_eq : ix.accounts[0]?.map AccountMeta.pubkey = some toll.sessionKey
  mint_eq : ix.accounts[4]?.map AccountMeta.pubkey = some toll.mint
  args_eq : ∃ args, Args.decode ix.data = .ok args ∧ args.amount = toll.amount
  move : TokenMove TokenProgram.unpackAccount toll.mint (associatedTokenAddress toll.user toll.mint)
    (associatedTokenAddress (tollRecipient toll.domainHash) toll.mint) toll.amount l l'

/-- The instruction names the token accounts that the program derives for the toll. -/
structure Toll.Named (toll : Toll) (ix : Instruction) (l : Ledger) : Prop where
  source_eq : ix.accounts[2]?.map AccountMeta.pubkey =
    some (associatedTokenAddress toll.user toll.mint)
  destination_eq : ix.accounts[3]?.map AccountMeta.pubkey =
    some (associatedTokenAddress (tollRecipient toll.domainHash) toll.mint)
  destination_account : ∃ a, tokenAccountAt l
    (associatedTokenAddress (tollRecipient toll.domainHash) toll.mint) = some a

theorem process_paid {ctx : Context} {ix : Instruction} {l l' : Ledger}
    (h : process ctx ix l = .ok l') : ∃ toll : Toll, toll.Paid ctx ix l l' ∧ toll.Named ix l := by
  simp only [process, bind_eq_ok] at h
  obtain ⟨args, hargs, h⟩ := h
  unfold payToll at h
  split at h
  · rename_i session programSigner source destination mint tokenProgram rest haccounts
    simp only [bind_eq_ok, mapErr_eq_ok, okOr_eq_ok, AnchorSpl.tokenMint, require_eq_ok] at h
    obtain ⟨sessionData, hsession, sourceData, hsource, destinationData, hdestination, -, -, -, -,
      -, -, -, -, -, -, -, hmint, -, -, -, -, user, huser, -, hfrom, domainHash, hdomain, -, hto,
      htransfer⟩ := h
    obtain ⟨howner, hdata⟩ := Anchor.account_eq_ok hsession
    obtain ⟨mint', hmove⟩ := TokenProgram.transfer_eq_some htransfer
    obtain ⟨a, ha, hmint', -⟩ := hmove.source_eq
    obtain ⟨-, hunpack⟩ := tokenAccountAt_eq_some.1 (AnchorSpl.tokenAccount_eq_ok hsource)
    obtain rfl := Option.some.inj (ha.symm.trans hunpack)
    obtain rfl : mint' = mint.pubkey := hmint'.symm.trans hmint
    have hpaid : Toll.Paid ⟨session.pubkey, sessionData, user, domainHash, mint.pubkey, args.amount⟩
        ctx ix l l' := by
      refine ⟨howner, hdata, huser, hdomain, ?_, ?_, ⟨args, hargs, rfl⟩, ?_⟩
      · rw [haccounts]
        rfl
      · rw [haccounts]
        rfl
      · rw [hfrom, hto]
        exact hmove
    refine ⟨_, hpaid, ?_, ?_, destinationData, ?_⟩
    · rw [haccounts, hfrom]
      rfl
    · rw [haccounts, hto]
      rfl
    · rw [hto]
      exact AnchorSpl.tokenAccount_eq_ok hdestination
  · cases h

theorem process_eq_ok {ctx : Context} {ix : Instruction} {l l' : Ledger}
    (h : process ctx ix l = .ok l') : ∃ toll : Toll, toll.Paid ctx ix l l' := by
  obtain ⟨toll, hpaid, -⟩ := process_paid h
  exact ⟨toll, hpaid⟩

end FogoSessions.Tollbooth
