import FogoSessions.IntentTransfer.Accounts
import FogoSessions.IntentTransfer.ExecAmount
import FogoSessions.IntentTransfer.Recipient
import FogoSessions.Solana.Runtime

/-!
# The programs that bridge

`intent-transfer/src/bridge/cpi/` and the relay arguments of `bridge_ntt_tokens.rs`: the instructions
with which a bridge transfer is handed on to the NTT manager of the token and to the executor.
-/

namespace FogoSessions.IntentTransfer

open Lib Solana

/-- `AccountMeta::new`. -/
def writableMeta (pubkey : Pubkey) (isSigner : Bool) : AccountMeta := ⟨pubkey, isSigner, true⟩

/-- `AccountMeta::new_readonly`. -/
def readonlyMeta (pubkey : Pubkey) (isSigner : Bool) : AccountMeta := ⟨pubkey, isSigner, false⟩

/-! ## The NTT manager -/

/-- `From<WormholeChainId> for u16`. -/
def WormholeChainId.toU16 : WormholeChainId → UInt16
  | solana => 1
  | fogo => 51

def convertChainIdToWormhole (chainId : String) : Option WormholeChainId :=
  if chainId = "solana" then some .solana
  else if chainId = "fogo" then some .fogo
  else none

structure TransferArgs where
  amount : UInt64
  recipientChain : UInt16
  recipientAddress : FixedBytes 32
  shouldQueue : Bool
deriving DecidableEq

def TransferArgs.serialize (args : TransferArgs) : Bytes :=
  leBytes 8 args.amount.toNat ++ leBytes 2 args.recipientChain.toNat ++ args.recipientAddress.bytes ++
    [args.shouldQueue.toUInt8]

def transferBurnDiscriminator : Bytes := [75, 144, 26, 232, 39, 12, 75, 222]
def releaseWormholeOutboundDiscriminator : Bytes := [202, 87, 51, 173, 142, 160, 188, 204]

/-- The accounts of `TransferBurn`. -/
structure TransferBurn where
  payer : Pubkey
  config : Pubkey
  mint : Pubkey
  source : Pubkey
  tokenProgram : Pubkey
  outboxItem : Pubkey
  outboxRateLimit : Pubkey
  custody : Pubkey
  systemProgram : Pubkey
  inboxRateLimit : Pubkey
  peer : Pubkey
  sessionAuthority : Pubkey
  tokenAuthority : Pubkey
deriving DecidableEq

def TransferBurn.instruction (accounts : TransferBurn) (args : TransferArgs) (programId : Pubkey) :
    Instruction where
  programId := programId
  accounts := [
    writableMeta accounts.payer true,
    readonlyMeta accounts.config false,
    writableMeta accounts.mint false,
    writableMeta accounts.source false,
    readonlyMeta accounts.tokenProgram false,
    writableMeta accounts.outboxItem true,
    writableMeta accounts.outboxRateLimit false,
    writableMeta accounts.custody false,
    readonlyMeta accounts.systemProgram false,
    writableMeta accounts.inboxRateLimit false,
    readonlyMeta accounts.peer false,
    readonlyMeta accounts.sessionAuthority false,
    readonlyMeta accounts.tokenAuthority false]
  data := transferBurnDiscriminator ++ args.serialize

/-- The accounts of `ReleaseWormholeOutbound`. -/
structure ReleaseWormholeOutbound where
  payer : Pubkey
  config : Pubkey
  outboxItem : Pubkey
  transceiver : Pubkey
  wormholeMessage : Pubkey
  emitter : Pubkey
  wormholeBridge : Pubkey
  wormholeFeeCollector : Pubkey
  wormholeSequence : Pubkey
  wormholeProgram : Pubkey
  systemProgram : Pubkey
  clock : Pubkey
  rent : Pubkey
deriving DecidableEq

def ReleaseWormholeOutbound.instruction (accounts : ReleaseWormholeOutbound) (revertOnDelay : Bool)
    (programId : Pubkey) : Instruction where
  programId := programId
  accounts := [
    writableMeta accounts.payer true,
    readonlyMeta accounts.config false,
    writableMeta accounts.outboxItem false,
    readonlyMeta accounts.transceiver false,
    writableMeta accounts.wormholeMessage false,
    readonlyMeta accounts.emitter false,
    writableMeta accounts.wormholeBridge false,
    writableMeta accounts.wormholeFeeCollector false,
    writableMeta accounts.wormholeSequence false,
    readonlyMeta accounts.wormholeProgram false,
    readonlyMeta accounts.systemProgram false,
    readonlyMeta accounts.clock false,
    readonlyMeta accounts.rent false]
  data := releaseWormholeOutboundDiscriminator ++ [revertOnDelay.toUInt8]

/-! ## The executor -/

def nttWithExecutorProgramId : Pubkey := .ofNat
  0x0bb20b7dfaa8d38949e788349eeb2be61415b9c0a576f1cda0c2ebf2dd513e10
def executorProgramId : Pubkey := .ofNat
  0x09b96971583b5903e0281da96548d5d23c651f7a9ccde3ead52b42f6b7dac2d2

example : nttWithExecutorProgramId.toString = "nex1gkSWtRBheEJuQZMqHhbMG5A45qPU76KqnCZNVHR" ∧
    executorProgramId.toString = "execXUrAsMnqMmTHj5m7N1YQgsDz3cwGLYCYyuDRciV" := by
  decide +kernel

def relayNttMessageDiscriminator : Bytes := [192, 85, 112, 237, 55, 33, 49, 150]

structure RelayNttMessageArgs where
  recipientChain : UInt16
  execAmount : UInt64
  signedQuoteBytes : Bytes
  relayInstructions : Bytes
deriving DecidableEq

/-- Bytes behind their length. -/
def lengthPrefixed (bs : Bytes) : Bytes := leBytes 4 bs.length ++ bs

def RelayNttMessageArgs.serialize (args : RelayNttMessageArgs) : Bytes :=
  leBytes 2 args.recipientChain.toNat ++ leBytes 8 args.execAmount.toNat ++
    lengthPrefixed args.signedQuoteBytes ++ lengthPrefixed args.relayInstructions

/-- The accounts of `RelayNttMessage`. -/
structure RelayNttMessage where
  payer : Pubkey
  payee : Pubkey
  nttProgramId : Pubkey
  nttPeer : Pubkey
  nttMessage : Pubkey
  executorProgram : Pubkey
  systemProgram : Pubkey
deriving DecidableEq

def RelayNttMessage.instruction (accounts : RelayNttMessage) (args : RelayNttMessageArgs) :
    Instruction where
  programId := nttWithExecutorProgramId
  accounts := [
    writableMeta accounts.payer true,
    writableMeta accounts.payee false,
    readonlyMeta accounts.nttProgramId false,
    readonlyMeta accounts.nttPeer false,
    readonlyMeta accounts.nttMessage false,
    readonlyMeta accounts.executorProgram false,
    readonlyMeta accounts.systemProgram false]
  data := relayNttMessageDiscriminator ++ args.serialize

/-- The gas instruction of a relay: its tag, the gas limit and the message value. -/
def relayInstructions (gasLimit msgValue : Nat) : Bytes :=
  [1] ++ (leBytes 16 gasLimit).reverse ++ (leBytes 16 msgValue).reverse

def computeRelayNttArgs (toChainIdWormhole : WormholeChainId) (signedQuoteBytes : Bytes)
    (payDestinationAtaRent : Bool) : Except Error RelayNttMessageArgs :=
  if toChainIdWormhole = .solana then do
    let (msgValue, gasLimit) := computeMsgValueAndGasLimitSolana payDestinationAtaRent
    let signedQuote ← mapErr (fun _ => .custom .invalidNttSignedQuote)
      (SignedQuote.codec.decode.tryFromSlice signedQuoteBytes)
    let execAmount ← computeExecAmount toChainIdWormhole signedQuote gasLimit msgValue
    return {
      recipientChain := toChainIdWormhole.toU16
      execAmount
      signedQuoteBytes
      relayInstructions := relayInstructions gasLimit msgValue }
  else .error (.custom .unsupportedToChainId)

end FogoSessions.IntentTransfer
