import FogoSessions.ChainId
import FogoSessions.Intents.Intent
import FogoSessions.IntentTransfer.Message
import FogoSessions.IntentTransfer.Ntt
import FogoSessions.Solana.AnchorSpl

/-!
# The intent transfer program

`intent-transfer/src/lib.rs`, `fees.rs`, `intrachain/processor/` and `bridge/processor/`: sponsors
carry out transfers that users have signed, out of the users' own accounts and for a fee.
-/

namespace FogoSessions.IntentTransfer

open Lib Solana Intents

/-- The result of an instruction: the ledger after it. -/
abbrev Result := Except Error Ledger

/-- `From<IntentError>`. -/
def IntentTransferError.ofIntentError : IntentError Unit → IntentTransferError
  | .noIntentMessageInstruction => .noIntentMessageInstruction
  | .incorrectInstructionProgramId => .incorrectInstructionProgramId
  | .signatureVerificationUnexpectedHeader => .signatureVerificationUnexpectedHeader
  | .parseFailedError _ => .parseFailedError
  | .deserializeFailedError _ => .deserializeFailedError

/-- `clock::ID`. -/
def sysvarClock : Pubkey := .ofNat
  0x06a7d51718c774c928566398691d5eb68b5eb8a39b4b6d5c73555b2100000000

/-- `rent::ID`. -/
def sysvarRent : Pubkey := .ofNat
  0x06a7d517192c5c51218cc94c3d4af17f58daee089ba1fd44e3dbd98a00000000

example : sysvarClock.toString = "SysvarC1ock11111111111111111111111111111111" ∧
    sysvarRent.toString = "SysvarRent111111111111111111111111111111111" := by
  decide +kernel

/-- `FOGO_DECIMALS`. -/
def fogoDecimals : UInt8 := 9

/-- `BRIDGE_NTT_INTERMEDIATE_SEED`. -/
def bridgeNttIntermediateSeed : Bytes := utf8 "bridge_ntt_intermediate"

section

variable [Addressing]

/-- `Account<ChainId>`; its address is checked later on. -/
def loadChainId (l : Ledger) (key : Pubkey) : Except Error ChainId :=
  Anchor.account l key ProgramIds.chainId (Anchor.tryDeserialize ChainId.discriminator ChainId.codec)

/-- The intent of the transaction. -/
def loadIntent [LegacyOffchain] {M : Type} (parse : Bytes → Except Unit M) (ctx : Context) :
    Except Error (Intent M) :=
  mapErr (fun e => .custom (.ofIntentError e)) (Intent.load parse ctx.instructions ctx.index)

/-! ## Fees -/

structure VerifyAndCollectAccounts where
  feeSource : Pubkey
  feeDestination : Pubkey
  feeMint : Pubkey
  feeMintData : Mint
  feeMetadata : Option Pubkey
  intentTransferSetter : Pubkey

/-- The conversion of an amount's text. -/
def amountOf [TokenProgram] (text : String) (decimals : UInt8) : Except Error UInt64 :=
  okOr (TokenProgram.tryUiAmountIntoAmount text decimals) .foreign

/-- The fee is taken if the user has agreed to pay that much. -/
def verifyAndCollectFee [TokenProgram] [TokenMetadata] (accounts : VerifyAndCollectAccounts)
    (feeAmount : UInt64) (intentFeeAmount : String) (feeSymbolOrMint : SymbolOrMint) (l : Ledger) :
    Result := do
  verifySymbolOrMint l feeSymbolOrMint accounts.feeMetadata accounts.feeMint
  let intentFeeAmount ← amountOf intentFeeAmount accounts.feeMintData.decimals
  require (feeAmount ≤ intentFeeAmount) (.custom .insufficientFeeAmount)
  okOr (TokenProgram.transferChecked l accounts.feeSource accounts.feeMint accounts.feeDestination
    accounts.intentTransferSetter feeAmount accounts.feeMintData.decimals) .invoked

/-! ## Sending tokens -/

/-- The accounts of `send_tokens`. -/
structure SendTokens where
  chainId : ChainId
  source : Pubkey
  sourceData : TokenAccount
  destination : Pubkey
  mint : Pubkey
  mintData : Mint
  metadata : Option Pubkey
  nonce : Pubkey
  nonceData : Nonce
  destinationOwner : Pubkey
  feeConfig : FeeConfig
  fees : VerifyAndCollectAccounts

variable [SystemProgram] [TokenProgram]

/-- Accounts are read first, then the missing ones are created, then the constraints are checked. -/
def SendTokens.tryAccounts [AssociatedTokenProgram] (l : Ledger) (accounts : List AccountMeta) :
    Except Error (SendTokens × Ledger) :=
  match accounts with
  | chainId :: sysvarInstructions :: intentTransferSetter :: source :: destination :: mint ::
      metadata :: nonce :: sponsor :: destinationOwner :: feeSource :: feeDestination :: feeMint ::
      feeMetadata :: feeConfig :: systemProgram :: tokenProgram :: associatedTokenProgram :: _ => do
    let chainIdData ← loadChainId l chainId.pubkey
    let sourceData ← AnchorSpl.tokenAccount l source.pubkey
    let mintData ← AnchorSpl.mint l mint.pubkey
    Anchor.signer sponsor
    let feeSourceData ← AnchorSpl.tokenAccount l feeSource.pubkey
    let feeMintData ← AnchorSpl.mint l feeMint.pubkey
    let feeConfigData ← loadFeeConfig l feeConfig.pubkey
    Anchor.program systemProgram Ids.systemProgram
    Anchor.program tokenProgram Ids.tokenProgram
    Anchor.program associatedTokenProgram Ids.associatedTokenProgram
    let l ← AnchorSpl.initAssociatedIfNeeded l sponsor.pubkey destination.pubkey
      destinationOwner.pubkey mint.pubkey
    Anchor.writable destination
    let (nonceData, l) ← initNonce l sponsor.pubkey nonce intentTransferNonceSeed sourceData.owner
    let l ← AnchorSpl.initAssociatedIfNeeded l sponsor.pubkey feeDestination.pubkey sponsor.pubkey
      feeMint.pubkey
    Anchor.writable feeDestination
    Anchor.seeds chainId [ChainId.seed] ProgramIds.chainId
    Anchor.address sysvarInstructions Ids.sysvarInstructions
    Anchor.seeds intentTransferSetter [intentTransferSeed] ProgramIds.intentTransfer
    Anchor.writable source
    AnchorSpl.tokenMint sourceData mint.pubkey
    Anchor.writable sponsor
    Anchor.writable feeSource
    AnchorSpl.tokenMint feeSourceData feeMint.pubkey
    AnchorSpl.tokenAuthority feeSourceData sourceData.owner
    Anchor.seeds feeConfig [FeeConfig.seed, feeMint.pubkey.bytes] ProgramIds.intentTransfer
    let self : SendTokens :=
      { chainId := chainIdData
        source := source.pubkey
        sourceData
        destination := destination.pubkey
        mint := mint.pubkey
        mintData
        metadata := optionalAccount metadata
        nonce := nonce.pubkey
        nonceData
        destinationOwner := destinationOwner.pubkey
        feeConfig := feeConfigData
        fees :=
          { feeSource := feeSource.pubkey
            feeDestination := feeDestination.pubkey
            feeMint := feeMint.pubkey
            feeMintData
            feeMetadata := optionalAccount feeMetadata
            intentTransferSetter := intentTransferSetter.pubkey } }
    return (self, l)
  | _ => .error (.anchor .accountNotEnoughKeys)

def sendTokens [AssociatedTokenProgram] [TokenMetadata] [LegacyOffchain] (ctx : Context)
    (accounts : List AccountMeta) (l : Ledger) : Result := do
  let (self, l) ← SendTokens.tryAccounts l accounts
  let intent ← loadIntent Message.tryFrom ctx
  require (self.chainId.chainId = intent.message.chainId) (.custom .chainIdMismatch)
  verifySymbolOrMint l intent.message.symbolOrMint self.metadata self.mint
  verifySignerMatchesSource intent.signer self.sourceData.owner
  require (intent.message.recipient = self.destinationOwner) (.custom .recipientMismatch)
  let nonce ← verifyAndUpdateNonce self.nonceData intent.message.nonce
  let amount ← amountOf intent.message.amount self.mintData.decimals
  let l ← okOr (TokenProgram.transferChecked l self.source self.mint self.destination
    self.fees.intentTransferSetter amount self.mintData.decimals) .invoked
  let l ← verifyAndCollectFee self.fees self.feeConfig.intrachainTransferFee
    intent.message.feeAmount intent.message.feeSymbolOrMint l
  exitNonce l self.nonce nonce

/-! ## Sending the native token -/

/-- The accounts of `send_native`. The ones for a fee are only looked at: no fee is taken. -/
structure SendNative where
  chainId : ChainId
  intentTransferSetter : Pubkey
  source : Pubkey
  destination : Pubkey
  nonce : Pubkey
  nonceData : Nonce

def SendNative.tryAccounts (l : Ledger) (accounts : List AccountMeta) :
    Except Error (SendNative × Ledger) :=
  match accounts with
  | chainId :: sysvarInstructions :: intentTransferSetter :: source :: destination :: nonce ::
      sponsor :: _feeSource :: _feeDestination :: feeMint :: _feeMetadata :: feeConfig ::
      systemProgram :: tokenProgram :: associatedTokenProgram :: _ => do
    let chainIdData ← loadChainId l chainId.pubkey
    Anchor.signer sponsor
    let _ ← AnchorSpl.mint l feeMint.pubkey
    let _ ← loadFeeConfig l feeConfig.pubkey
    Anchor.program systemProgram Ids.systemProgram
    Anchor.program tokenProgram Ids.tokenProgram
    Anchor.program associatedTokenProgram Ids.associatedTokenProgram
    let (nonceData, l) ← initNonce l sponsor.pubkey nonce intentTransferNonceSeed source.pubkey
    Anchor.seeds chainId [ChainId.seed] ProgramIds.chainId
    Anchor.address sysvarInstructions Ids.sysvarInstructions
    Anchor.seeds intentTransferSetter [intentTransferSeed] ProgramIds.intentTransfer
    Anchor.writable source
    Anchor.writable destination
    Anchor.writable sponsor
    Anchor.seeds feeConfig [FeeConfig.seed, feeMint.pubkey.bytes] ProgramIds.intentTransfer
    let self : SendNative :=
      { chainId := chainIdData
        intentTransferSetter := intentTransferSetter.pubkey
        source := source.pubkey
        destination := destination.pubkey
        nonce := nonce.pubkey
        nonceData }
    return (self, l)
  | _ => .error (.anchor .accountNotEnoughKeys)

def sendNative [LegacyOffchain] (ctx : Context) (accounts : List AccountMeta) (l : Ledger) :
    Result := do
  let (self, l) ← SendNative.tryAccounts l accounts
  let intent ← loadIntent Message.tryFrom ctx
  require (self.chainId.chainId = intent.message.chainId) (.custom .chainIdMismatch)
  require (intent.message.symbolOrMint = .symbol "FOGO") (.custom .symbolMismatch)
  verifySignerMatchesSource intent.signer self.source
  require (intent.message.recipient = self.destination) (.custom .recipientMismatch)
  let nonce ← verifyAndUpdateNonce self.nonceData intent.message.nonce
  let amount ← amountOf intent.message.amount fogoDecimals
  let l ← okOr (SystemProgram.intentTransfer l self.source self.destination
    self.intentTransferSetter amount.toNat) .invoked
  exitNonce l self.nonce nonce

/-! ## Bridging tokens -/

/-- The accounts of `Ntt`. -/
structure Ntt where
  clock : Pubkey
  rent : Pubkey
  nttManager : Pubkey
  nttConfig : Pubkey
  nttInboxRateLimit : Pubkey
  nttSessionAuthority : Pubkey
  nttTokenAuthority : Pubkey
  wormholeMessage : Pubkey
  transceiver : Pubkey
  emitter : Pubkey
  wormholeBridge : Pubkey
  wormholeFeeCollector : Pubkey
  wormholeSequence : Pubkey
  wormholeProgram : Pubkey
  executorProgram : Pubkey
  nttPeer : Pubkey
  nttOutboxItem : Pubkey
  nttOutboxRateLimit : Pubkey
  nttCustody : Pubkey
  payeeNttWithExecutor : Pubkey

def Ntt.tryAccounts (accounts : List AccountMeta) : Except Error Ntt :=
  match accounts with
  | clock :: rent :: nttManager :: nttConfig :: nttInboxRateLimit :: nttSessionAuthority ::
      nttTokenAuthority :: wormholeMessage :: transceiver :: emitter :: wormholeBridge ::
      wormholeFeeCollector :: wormholeSequence :: wormholeProgram :: nttWithExecutorProgram ::
      executorProgram :: nttPeer :: nttOutboxItem :: nttOutboxRateLimit :: nttCustody ::
      payeeNttWithExecutor :: _ => do
    require (clock.pubkey = sysvarClock) .foreign
    require (rent.pubkey = sysvarRent) .foreign
    Anchor.signer nttOutboxItem
    Anchor.writable nttInboxRateLimit
    Anchor.writable wormholeMessage
    Anchor.writable wormholeBridge
    Anchor.writable wormholeFeeCollector
    Anchor.writable wormholeSequence
    Anchor.address nttWithExecutorProgram nttWithExecutorProgramId
    Anchor.address executorProgram executorProgramId
    Anchor.writable nttOutboxItem
    Anchor.writable nttOutboxRateLimit
    Anchor.writable nttCustody
    Anchor.writable payeeNttWithExecutor
    return {
      clock := clock.pubkey
      rent := rent.pubkey
      nttManager := nttManager.pubkey
      nttConfig := nttConfig.pubkey
      nttInboxRateLimit := nttInboxRateLimit.pubkey
      nttSessionAuthority := nttSessionAuthority.pubkey
      nttTokenAuthority := nttTokenAuthority.pubkey
      wormholeMessage := wormholeMessage.pubkey
      transceiver := transceiver.pubkey
      emitter := emitter.pubkey
      wormholeBridge := wormholeBridge.pubkey
      wormholeFeeCollector := wormholeFeeCollector.pubkey
      wormholeSequence := wormholeSequence.pubkey
      wormholeProgram := wormholeProgram.pubkey
      executorProgram := executorProgram.pubkey
      nttPeer := nttPeer.pubkey
      nttOutboxItem := nttOutboxItem.pubkey
      nttOutboxRateLimit := nttOutboxRateLimit.pubkey
      nttCustody := nttCustody.pubkey
      payeeNttWithExecutor := payeeNttWithExecutor.pubkey }
  | _ => .error (.anchor .accountNotEnoughKeys)

/-- The accounts of `bridge_ntt_tokens`. -/
structure BridgeNttTokens where
  fromChainId : ChainId
  source : Pubkey
  sourceData : TokenAccount
  intermediateTokenAccount : Pubkey
  mint : Pubkey
  mintData : Mint
  metadata : Option Pubkey
  expectedNttConfig : ExpectedNttConfig
  nonce : Pubkey
  nonceData : Nonce
  sponsor : Pubkey
  feeConfig : FeeConfig
  fees : VerifyAndCollectAccounts
  ntt : Ntt

def BridgeNttTokens.tryAccounts [AssociatedTokenProgram] (l : Ledger) (accounts : List AccountMeta) :
    Except Error (BridgeNttTokens × Ledger) :=
  match accounts with
  | fromChainId :: sysvarInstructions :: intentTransferSetter :: source ::
      intermediateTokenAccount :: mint :: metadata :: expectedNttConfig :: nonce :: sponsor ::
      feeSource :: feeDestination :: feeMint :: feeMetadata :: feeConfig :: systemProgram ::
      tokenProgram :: associatedTokenProgram :: ntt => do
    let fromChainIdData ← loadChainId l fromChainId.pubkey
    let sourceData ← AnchorSpl.tokenAccount l source.pubkey
    let mintData ← AnchorSpl.mint l mint.pubkey
    let expectedNttConfigData ← loadNttConfig l expectedNttConfig.pubkey
    Anchor.signer sponsor
    let feeSourceData ← AnchorSpl.tokenAccount l feeSource.pubkey
    let feeMintData ← AnchorSpl.mint l feeMint.pubkey
    let feeConfigData ← loadFeeConfig l feeConfig.pubkey
    Anchor.program systemProgram Ids.systemProgram
    Anchor.program tokenProgram Ids.tokenProgram
    Anchor.program associatedTokenProgram Ids.associatedTokenProgram
    let ntt ← Ntt.tryAccounts ntt
    let l ← AnchorSpl.initTokenIfNeeded ProgramIds.intentTransfer l sponsor.pubkey
      intermediateTokenAccount [bridgeNttIntermediateSeed, source.pubkey.bytes] mint.pubkey
      intentTransferSetter.pubkey
    Anchor.writable intermediateTokenAccount
    let (nonceData, l) ← initNonce l sponsor.pubkey nonce bridgeNttNonceSeed sourceData.owner
    let l ← AnchorSpl.initAssociatedIfNeeded l sponsor.pubkey feeDestination.pubkey sponsor.pubkey
      feeMint.pubkey
    Anchor.writable feeDestination
    Anchor.seeds fromChainId [ChainId.seed] ProgramIds.chainId
    Anchor.address sysvarInstructions Ids.sysvarInstructions
    Anchor.seeds intentTransferSetter [intentTransferSeed] ProgramIds.intentTransfer
    Anchor.writable source
    AnchorSpl.tokenMint sourceData mint.pubkey
    Anchor.writable mint
    Anchor.seeds expectedNttConfig [ExpectedNttConfig.seed, mint.pubkey.bytes]
      ProgramIds.intentTransfer
    Anchor.writable sponsor
    Anchor.writable feeSource
    AnchorSpl.tokenMint feeSourceData feeMint.pubkey
    AnchorSpl.tokenAuthority feeSourceData sourceData.owner
    Anchor.seeds feeConfig [FeeConfig.seed, feeMint.pubkey.bytes] ProgramIds.intentTransfer
    let self : BridgeNttTokens :=
      { fromChainId := fromChainIdData
        source := source.pubkey
        sourceData
        intermediateTokenAccount := intermediateTokenAccount.pubkey
        mint := mint.pubkey
        mintData
        metadata := optionalAccount metadata
        expectedNttConfig := expectedNttConfigData
        nonce := nonce.pubkey
        nonceData
        sponsor := sponsor.pubkey
        feeConfig := feeConfigData
        fees :=
          { feeSource := feeSource.pubkey
            feeDestination := feeDestination.pubkey
            feeMint := feeMint.pubkey
            feeMintData
            feeMetadata := optionalAccount feeMetadata
            intentTransferSetter := intentTransferSetter.pubkey }
        ntt }
    return (self, l)
  | _ => .error (.anchor .accountNotEnoughKeys)

structure BridgeNttTokensArgs where
  signedQuoteBytes : FixedBytes 165
  payDestinationAtaRent : Bool
deriving DecidableEq

namespace BridgeNttTokens

def transferBurn (self : BridgeNttTokens) : TransferBurn where
  payer := self.sponsor
  config := self.ntt.nttConfig
  mint := self.mint
  source := self.intermediateTokenAccount
  tokenProgram := Ids.tokenProgram
  outboxItem := self.ntt.nttOutboxItem
  outboxRateLimit := self.ntt.nttOutboxRateLimit
  custody := self.ntt.nttCustody
  systemProgram := Ids.systemProgram
  inboxRateLimit := self.ntt.nttInboxRateLimit
  peer := self.ntt.nttPeer
  sessionAuthority := self.ntt.nttSessionAuthority
  tokenAuthority := self.ntt.nttTokenAuthority

def releaseWormholeOutbound (self : BridgeNttTokens) : ReleaseWormholeOutbound where
  payer := self.sponsor
  config := self.ntt.nttConfig
  outboxItem := self.ntt.nttOutboxItem
  transceiver := self.ntt.transceiver
  wormholeMessage := self.ntt.wormholeMessage
  emitter := self.ntt.emitter
  wormholeBridge := self.ntt.wormholeBridge
  wormholeFeeCollector := self.ntt.wormholeFeeCollector
  wormholeSequence := self.ntt.wormholeSequence
  wormholeProgram := self.ntt.wormholeProgram
  systemProgram := Ids.systemProgram
  clock := self.ntt.clock
  rent := self.ntt.rent

def relayNttMessage (self : BridgeNttTokens) : RelayNttMessage where
  payer := self.sponsor
  payee := self.ntt.payeeNttWithExecutor
  nttProgramId := self.ntt.nttManager
  nttPeer := self.ntt.nttPeer
  nttMessage := self.ntt.nttOutboxItem
  executorProgram := self.ntt.executorProgram
  systemProgram := Ids.systemProgram

end BridgeNttTokens

/-- The transfer is handed to the NTT manager, released and paid for, in this order. -/
def BridgeNttTokens.handOver [Invocation [ProgramIds.intentTransfer]] (self : BridgeNttTokens)
    (args : BridgeNttTokensArgs) (toChainIdWormhole : WormholeChainId) (transferArgs : TransferArgs)
    (l : Ledger) : Result := do
  let invoke (l : Ledger) (ix : Instruction) : Result :=
    okOr (Invocation.invoke [ProgramIds.intentTransfer] l ix) .invoked
  let l ← invoke l (self.transferBurn.instruction transferArgs self.ntt.nttManager)
  let l ← invoke l (self.releaseWormholeOutbound.instruction true self.ntt.nttManager)
  let relayNttArgs ← computeRelayNttArgs toChainIdWormhole args.signedQuoteBytes.bytes
    args.payDestinationAtaRent
  invoke l (self.relayNttMessage.instruction relayNttArgs)

def BridgeNttTokens.processNttBridge [Invocation [ProgramIds.intentTransfer]] [TokenMetadata]
    (self : BridgeNttTokens) (nttMessage : NttMessage) (signer : Pubkey) (args : BridgeNttTokensArgs)
    (l : Ledger) : Result := do
  require (self.fromChainId.chainId = nttMessage.fromChainId) (.custom .chainIdMismatch)
  verifySymbolOrMint l nttMessage.symbolOrMint self.metadata self.mint
  verifySignerMatchesSource signer self.sourceData.owner
  let nonce ← verifyAndUpdateNonce self.nonceData nttMessage.nonce
  verifyNttManager self.ntt.nttManager self.expectedNttConfig
  let amount ← amountOf nttMessage.amount self.mintData.decimals
  let l ← okOr (TokenProgram.transferChecked l self.source self.mint self.intermediateTokenAccount
    self.fees.intentTransferSetter amount self.mintData.decimals) .invoked
  let toChainIdWormhole ← okOr (convertChainIdToWormhole nttMessage.toChainId)
    (.custom .unsupportedToChainId)
  let recipientAddress ← parseRecipientAddress nttMessage.recipientAddress
  let transferArgs : TransferArgs :=
    { amount
      recipientChain := toChainIdWormhole.toU16
      recipientAddress
      shouldQueue := false }
  let l ← okOr (TokenProgram.approve l self.intermediateTokenAccount self.ntt.nttSessionAuthority
    self.fees.intentTransferSetter amount) .invoked
  let l ← self.handOver args toChainIdWormhole transferArgs l
  let l ← okOr (TokenProgram.closeAccount l self.intermediateTokenAccount self.sponsor
    self.fees.intentTransferSetter) .invoked
  let l ← verifyAndCollectFee self.fees self.feeConfig.bridgeTransferFee nttMessage.feeAmount
    nttMessage.feeSymbolOrMint l
  exitNonce l self.nonce nonce

def bridgeNttTokens [AssociatedTokenProgram] [Invocation [ProgramIds.intentTransfer]] [TokenMetadata]
    [LegacyOffchain] (ctx : Context) (accounts : List AccountMeta) (args : BridgeNttTokensArgs)
    (l : Ledger) : Result := do
  let (self, l) ← BridgeNttTokens.tryAccounts l accounts
  let intent ← loadIntent BridgeMessage.tryFrom ctx
  match intent.message with
  | .ntt nttMessage => self.processNttBridge nttMessage intent.signer args l

/-! ## Configuration -/

/-- Writes a configuration to its account, which is created when it is missing. -/
def registerConfig {T : Type} (discriminator : Bytes) (codec : Codec T) (space : Nat) (seed : Bytes)
    (update : T → T) (l : Ledger) (signer programData mint config systemProgram : AccountMeta) :
    Result := do
  let authority ← upgradeAuthority l signer programData
  let _ ← AnchorSpl.mint l mint.pubkey
  Anchor.program systemProgram Ids.systemProgram
  let (value, l) ← Anchor.initIfNeeded ProgramIds.intentTransfer l authority config
    [seed, mint.pubkey.bytes] space discriminator codec
  let data ← mapErr .anchor
    (Anchor.trySerialize discriminator codec (update value) (l config.pubkey).data)
  return l.setData config.pubkey data

def registerNttConfig (accounts : List AccountMeta) (l : Ledger) : Result :=
  match accounts with
  | signer :: programData :: mint :: expectedNttConfig :: nttManager :: systemProgram :: _ =>
    registerConfig ExpectedNttConfig.discriminator ExpectedNttConfig.codec ExpectedNttConfig.space
      ExpectedNttConfig.seed (fun config => { config with manager := nttManager.pubkey }) l signer
      programData mint expectedNttConfig systemProgram
  | _ => .error (.anchor .accountNotEnoughKeys)

def registerFeeConfig (accounts : List AccountMeta) (feeConfigArgs : FeeConfig) (l : Ledger) :
    Result :=
  match accounts with
  | signer :: programData :: mint :: feeConfig :: systemProgram :: _ =>
    registerConfig FeeConfig.discriminator FeeConfig.codec FeeConfig.space FeeConfig.seed
      (fun _ => feeConfigArgs) l signer programData mint feeConfig systemProgram
  | _ => .error (.anchor .accountNotEnoughKeys)

end

/-! ## The instructions -/

inductive Command where
  | sendTokens
  | bridgeNttTokens (args : BridgeNttTokensArgs)
  | registerNttConfig
  | registerFeeConfig (feeConfig : FeeConfig)
  | sendNative
deriving DecidableEq

/-- `bool`: one byte, 0 or 1. -/
def decodeBool : Decoder Bool := do
  match ← Decoder.u8 with
  | 0 => return false
  | 1 => return true
  | _ => Decoder.fail (.invalidData "Invalid bool representation")

def BridgeNttTokensArgs.decode : Decoder BridgeNttTokensArgs := do
  let signedQuoteBytes ← Decoder.fixed 165
  let payDestinationAtaRent ← decodeBool
  return { signedQuoteBytes, payDestinationAtaRent }

/-- The arguments of an instruction; what follows them is ignored. -/
def readArgs {α : Type} (variant : α → Command) (decode : Decoder α) (bs : Bytes) :
    Except Error Command :=
  match decode bs with
  | .ok (args, _) => .ok (variant args)
  | .error _ => .error (.anchor .instructionDidNotDeserialize)

/-- Which instruction the data names, by its first byte. -/
def Command.decode (data : Bytes) : Except Error Command :=
  match data with
  | 0 :: _ => .ok .sendTokens
  | 1 :: args => readArgs .bridgeNttTokens BridgeNttTokensArgs.decode args
  | 2 :: _ => .ok .registerNttConfig
  | 3 :: args => readArgs .registerFeeConfig FeeConfig.codec.decode args
  | 4 :: _ => .ok .sendNative
  | _ => .error (.anchor .instructionFallbackNotFound)

def process [Addressing] [SystemProgram] [TokenProgram] [AssociatedTokenProgram] [TokenMetadata]
    [Invocation [ProgramIds.intentTransfer]] [LegacyOffchain] (ctx : Context) (ix : Instruction)
    (l : Ledger) : Result := do
  match ← Command.decode ix.data with
  | .sendTokens => sendTokens ctx ix.accounts l
  | .bridgeNttTokens args => bridgeNttTokens ctx ix.accounts args l
  | .registerNttConfig => registerNttConfig ix.accounts l
  | .registerFeeConfig feeConfig => registerFeeConfig ix.accounts feeConfig l
  | .sendNative => sendNative ctx ix.accounts l

end FogoSessions.IntentTransfer
