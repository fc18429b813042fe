import FogoSessions.DomainRegistry.Record

/-!
# The domain registry program

`domain-registry/src/lib.rs`: an authority decides which programs the sessions of a domain may
interact with.
-/

namespace FogoSessions.DomainRegistry

open Lib Solana

inductive DomainRegistryError where
  | invalidDomainRecordPda
  | programAlreadyAdded
  | programNotFound
deriving DecidableEq

/-- The result of an instruction: the ledger after it. -/
abbrev Result := Except (ProgramError DomainRegistryError) Ledger

/-- `CONFIG_SEED`. -/
def configSeed : Bytes := utf8 "config"

/-- `PROGRAM_SIGNER_SEED`. -/
def programSignerSeed : Bytes := utf8 "fogo_session_program_signer"

structure Config where
  authority : Pubkey
deriving DecidableEq

namespace Config

def discriminator : Bytes := [155, 12, 170, 224, 30, 250, 204, 130]

def codec : Codec Config := .iso (fun key => ⟨key⟩) Config.authority (fun _ => rfl) (.fixed 32)

end Config

variable [Addressing] [SystemProgram]

/-- Where the registry keeps its configuration. -/
def configAddress : Pubkey := derivedAddress [configSeed] ProgramIds.domainRegistry

/-- The configuration account of an instruction, and that the authority is its own. -/
def loadConfig (l : Ledger) (config authority : AccountMeta) :
    Except (ProgramError DomainRegistryError) Config := do
  Anchor.signer authority
  Anchor.seeds config [configSeed] ProgramIds.domainRegistry
  let value ← Anchor.account l config.pubkey ProgramIds.domainRegistry
    (Anchor.tryDeserialize Config.discriminator Config.codec)
  require (value.authority = authority.pubkey) (.anchor .constraintHasOne)
  return value

/-- Writes the configuration back, at the end of an instruction. -/
def exitConfig (l : Ledger) (config : Pubkey) (value : Config) : Result := do
  let data ← mapErr .anchor
    (Anchor.trySerialize Config.discriminator Config.codec value (l config).data)
  return l.setData config data

/-- `initialize`. -/
def initializeConfig (accounts : List AccountMeta) (l : Ledger) : Result :=
  match accounts with
  | authority :: config :: systemProgram :: _ => do
    Anchor.signer authority
    Anchor.writable authority
    Anchor.program systemProgram Ids.systemProgram
    Anchor.seeds config [configSeed] ProgramIds.domainRegistry
    Anchor.writable config
    let l ← okOr (createOrFund l authority.pubkey config.pubkey ProgramIds.domainRegistry (8 + 32))
      .invoked
    exitConfig l config.pubkey { authority := authority.pubkey }
  | _ => .error (.anchor .accountNotEnoughKeys)

def updateAuthority (accounts : List AccountMeta) (newAuthority : Pubkey) (l : Ledger) : Result :=
  match accounts with
  | authority :: config :: _ => do
    let _ ← loadConfig l config authority
    Anchor.writable config
    exitConfig l config.pubkey { authority := newAuthority }
  | _ => .error (.anchor .accountNotEnoughKeys)

/-- `create_pda`, for an empty domain record. -/
def createDomainRecordIfNeeded (l : Ledger) (authority domainRecord : Pubkey) : Result :=
  if (l domainRecord).owner = Ids.systemProgram then
    okOr (createOrFund l authority domainRecord ProgramIds.domainRegistry 0) .invoked
  else return l

def addProgram (accounts : List AccountMeta) (domain : String) (l : Ledger) : Result :=
  match accounts with
  | authority :: config :: domainRecord :: programId :: signerPda :: systemProgram :: _ => do
    let _ ← loadConfig l config authority
    Anchor.writable authority
    Anchor.writable domainRecord
    Anchor.seeds signerPda [programSignerSeed] programId.pubkey
    Anchor.program systemProgram Ids.systemProgram
    require (domainRecord.pubkey = getDomainRecordAddress domain) (.custom .invalidDomainRecordPda)
    let l ← createDomainRecordIfNeeded l authority.pubkey domainRecord.pubkey
    let record : ResizableAccountArray := ⟨domainRecord.pubkey, authority.pubkey⟩
    let domainProgram := { programId := programId.pubkey, signerPda := signerPda.pubkey }
    let contained ← record.contains l domainProgram
    require (contained = false) (.custom .programAlreadyAdded)
    record.push l domainProgram
  | _ => .error (.anchor .accountNotEnoughKeys)

def removeProgram (accounts : List AccountMeta) (domain : String) (l : Ledger) : Result :=
  match accounts with
  | authority :: config :: domainRecord :: programId :: systemProgram :: _ => do
    let _ ← loadConfig l config authority
    Anchor.writable authority
    Anchor.writable domainRecord
    Anchor.program systemProgram Ids.systemProgram
    require (domainRecord.pubkey = getDomainRecordAddress domain) (.custom .invalidDomainRecordPda)
    let record : ResizableAccountArray := ⟨domainRecord.pubkey, authority.pubkey⟩
    let index ← record.position l fun program => program.programId = programId.pubkey
    let indexToRemove ← okOr index (.custom .programNotFound)
    record.swapRemove l indexToRemove
  | _ => .error (.anchor .accountNotEnoughKeys)

/-! ## The instructions -/

def initializeDiscriminator : Bytes := [175, 175, 109, 31, 13, 152, 155, 237]
def updateAuthorityDiscriminator : Bytes := [32, 46, 64, 28, 149, 75, 243, 88]
def addProgramDiscriminator : Bytes := [100, 64, 60, 97, 158, 105, 164, 85]
def removeProgramDiscriminator : Bytes := [153, 20, 253, 61, 214, 191, 254, 199]

inductive Args where
  | initializeConfig
  | updateAuthority (newAuthority : Pubkey)
  | addProgram (domain : String)
  | removeProgram (domain : String)
deriving DecidableEq

/-- The arguments after an instruction's discriminator. -/
def readArgs {α : Type} (variant : α → Args) (decode : Decoder α) (bs : Bytes) :
    Except (ProgramError DomainRegistryError) Args :=
  match decode bs with
  | .ok (args, _) => .ok (variant args)
  | .error _ => .error (.anchor .instructionDidNotDeserialize)

/-- Which instruction the data names. -/
def Args.decode (data : Bytes) : Except (ProgramError DomainRegistryError) Args :=
  let body := data.drop 8
  if data.take 8 = initializeDiscriminator then .ok .initializeConfig
  else if data.take 8 = updateAuthorityDiscriminator then
    readArgs .updateAuthority (Decoder.fixed 32) body
  else if data.take 8 = addProgramDiscriminator then readArgs .addProgram Codec.string.decode body
  else if data.take 8 = removeProgramDiscriminator then
    readArgs .removeProgram Codec.string.decode body
  else .error (.anchor .instructionFallbackNotFound)

def process (ix : Instruction) (l : Ledger) : Result := do
  match ← Args.decode ix.data with
  | .initializeConfig => initializeConfig ix.accounts l
  | .updateAuthority newAuthority => updateAuthority ix.accounts newAuthority l
  | .addProgram domain => addProgram ix.accounts domain l
  | .removeProgram domain => removeProgram ix.accounts domain l

end FogoSessions.DomainRegistry
