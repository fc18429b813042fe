import FogoSessions.IntentTransfer.Verify
import FogoSessions.ProgramIds

/-!
# The accounts of the intent transfer program

`intent-transfer/src/nonce.rs`, `config/` and `verify.rs`: the nonce of each user, what transfers
cost in each token, and which program bridges which token. The last two are for the upgrade
authority of the program to say.
-/

namespace FogoSessions.IntentTransfer

open Lib Solana

/-- `INTENT_TRANSFER_SEED`. -/
def intentTransferSeed : Bytes := utf8 "intent_transfer"

/-- An optional account is left out by naming the program itself. -/
def optionalAccount (account : AccountMeta) : Option Pubkey :=
  if account.pubkey = ProgramIds.intentTransfer then none else some account.pubkey

/-! ## Nonces -/

structure Nonce where
  nonce : UInt64
deriving DecidableEq

namespace Nonce

def discriminator : Bytes := [143, 197, 147, 95, 106, 165, 50, 43]

def codec : Codec Nonce := .iso Nonce.mk Nonce.nonce (fun _ => rfl) .u64

/-- The discriminator and `INIT_SPACE`. -/
def space : Nat := 8 + 8

end Nonce

/-- `INTENT_TRANSFER_NONCE_SEED`. -/
def intentTransferNonceSeed : Bytes := utf8 "nonce"

/-- `BRIDGE_NTT_NONCE_SEED`. -/
def bridgeNttNonceSeed : Bytes := utf8 "bridge_ntt_nonce"

/-- The nonce account of an instruction. -/
def initNonce [Addressing] [SystemProgram] (l : Ledger) (payer : Pubkey) (nonce : AccountMeta)
    (seed : Bytes) (user : Pubkey) : Except Error (Nonce × Ledger) :=
  Anchor.initIfNeeded ProgramIds.intentTransfer l payer nonce [seed, user.bytes] Nonce.space
    Nonce.discriminator Nonce.codec

/-- The new nonce is the old one plus one; the addition panics when it overflows. -/
def verifyAndUpdateNonce (nonce : Nonce) (newNonce : UInt64) : Except Error Nonce := do
  let next ← okOr (checkedAdd nonce.nonce 1) .panic
  require (newNonce = next) (.custom .nonceFailure)
  return { nonce with nonce := newNonce }

/-- Writes the nonce back, at the end of an instruction. -/
def exitNonce (l : Ledger) (key : Pubkey) (nonce : Nonce) : Except Error Ledger := do
  let data ← mapErr .anchor
    (Anchor.trySerialize Nonce.discriminator Nonce.codec nonce (l key).data)
  return l.setData key data

def verifySignerMatchesSource (signer sourceOwner : Pubkey) : Except Error Unit :=
  require (signer = sourceOwner) (.custom .signerSourceMismatch)

/-! ## Configuration -/

structure FeeConfig where
  intrachainTransferFee : UInt64
  bridgeTransferFee : UInt64
deriving DecidableEq

namespace FeeConfig

def discriminator : Bytes := [143, 52, 146, 187, 219, 123, 76, 155]

def codec : Codec FeeConfig :=
  .iso (fun (a, b) => ⟨a, b⟩) (fun c => (c.intrachainTransferFee, c.bridgeTransferFee)) (fun _ => rfl)
    (.pair .u64 .u64)

def space : Nat := 8 + 16

/-- `FEE_CONFIG_SEED`. -/
def seed : Bytes := utf8 "fee_config"

end FeeConfig

structure ExpectedNttConfig where
  manager : Pubkey
deriving DecidableEq

namespace ExpectedNttConfig

def discriminator : Bytes := [103, 57, 246, 175, 96, 78, 163, 60]

def codec : Codec ExpectedNttConfig :=
  .iso ExpectedNttConfig.mk ExpectedNttConfig.manager (fun _ => rfl) (.fixed 32)

def space : Nat := 8 + 32

/-- `EXPECTED_NTT_CONFIG_SEED`. -/
def seed : Bytes := utf8 "expected_ntt_config"

end ExpectedNttConfig

def verifyNttManager (nttManagerKey : Pubkey) (expectedNttConfig : ExpectedNttConfig) :
    Except Error Unit :=
  require (nttManagerKey = expectedNttConfig.manager) (.custom .invalidNttManager)

/-- The fee configuration that an instruction names. -/
def loadFeeConfig (l : Ledger) (key : Pubkey) : Except Error FeeConfig :=
  Anchor.account l key ProgramIds.intentTransfer
    (Anchor.tryDeserialize FeeConfig.discriminator FeeConfig.codec)

def loadNttConfig (l : Ledger) (key : Pubkey) : Except Error ExpectedNttConfig :=
  Anchor.account l key ProgramIds.intentTransfer
    (Anchor.tryDeserialize ExpectedNttConfig.discriminator ExpectedNttConfig.codec)

section

variable [Addressing]

def feeConfigAddress (mint : Pubkey) : Pubkey :=
  derivedAddress [FeeConfig.seed, mint.bytes] ProgramIds.intentTransfer

def nttConfigAddress (mint : Pubkey) : Pubkey :=
  derivedAddress [ExpectedNttConfig.seed, mint.bytes] ProgramIds.intentTransfer

end

/-! ## The upgrade authority -/

/-- `bpf_loader_upgradeable::ID`. -/
def bpfLoaderUpgradeable : Pubkey := .ofNat
  0x02a8f6914e88a1b0e210153ef763ae2b00c2b93d16c124d2c0537a1004800000

example : bpfLoaderUpgradeable.toString = "BPFLoaderUpgradeab1e11111111111111111111111" := by
  decide +kernel

/-- `ProgramData`, a state of the loader: its tag, the slot, and the upgrade authority if there still
    is one. -/
structure ProgramData where
  slot : UInt64
  upgradeAuthorityAddress : Option Pubkey
deriving DecidableEq

/-- An optional key, behind a byte that says whether it is there. -/
def optionalKey : Decoder (Option Pubkey) := do
  match ← Decoder.u8 with
  | 0 => return none
  | 1 => some <$> Decoder.fixed 32
  | _ => Decoder.fail (.invalidData "tag for enum is not valid")

def ProgramData.decode : Decoder ProgramData := do
  let tag ← Decoder.u32
  if tag = 3 then
    let slot ← Decoder.u64
    let upgradeAuthorityAddress ← optionalKey
    return { slot, upgradeAuthorityAddress }
  else Decoder.fail (.invalidData "no program data")

/-- `Account<ProgramData>`. -/
def loadProgramData (l : Ledger) (key : Pubkey) : Except Error ProgramData := do
  let data ← Anchor.owned l key bpfLoaderUpgradeable
  match ProgramData.decode data with
  | .ok (programData, _) => return programData
  | .error _ => .error .foreign

section

variable [Addressing]

/-- Where the loader keeps who may upgrade the program. -/
def programDataAddress : Pubkey :=
  derivedAddress [ProgramIds.intentTransfer.bytes] bpfLoaderUpgradeable

/-- `UpgradeAuthority`: the signer is the one who may upgrade the program. -/
def upgradeAuthority (l : Ledger) (signer programData : AccountMeta) : Except Error Pubkey := do
  Anchor.signer signer
  let programDataValue ← loadProgramData l programData.pubkey
  Anchor.writable signer
  let authority ← okOr programDataValue.upgradeAuthorityAddress (.custom .unauthorized)
  Anchor.address signer authority
  Anchor.seeds programData [ProgramIds.intentTransfer.bytes] bpfLoaderUpgradeable
  return signer.pubkey

end

end FogoSessions.IntentTransfer
