import FogoSessions.ChainId
import FogoSessions.DomainRegistry.Record
import FogoSessions.Intents.Intent
import FogoSessions.Lib.Word
import FogoSessions.SessionManager.Message
import FogoSessions.Solana.Runtime
import FogoSessions.Solana.TokenProgram

/-!
# The session manager program

`session-manager/src/lib.rs`, `clock.rs`, `system_program.rs` and `token/`: sessions are started from
a signed intent, revoked by their own key and closed by anyone once they have expired.
-/

namespace FogoSessions.SessionManager

open Lib Solana Sdk Intents DomainRegistry

inductive SessionManagerError where
  | noIntentMessageInstruction
  | incorrectInstructionProgramId
  | signatureVerificationUnexpectedHeader
  | invalidVersion
  | parseFailedError
  | deserializeFailedError
  | chainIdMismatch
  | sessionKeyMismatch
  | missingAccount
  | metadataMismatch
  | symbolMismatch
  | mintMismatch
  | associatedTokenAccountMismatch
  | amountConversionFailed
  | domainRecordMismatch
  | sponsorMismatch
  | sessionIsLive
  | sessionTooLong
deriving DecidableEq

/-- `From<IntentError>`. -/
def SessionManagerError.ofIntentError : IntentError Unit → SessionManagerError
  | .noIntentMessageInstruction => .noIntentMessageInstruction
  | .incorrectInstructionProgramId => .incorrectInstructionProgramId
  | .signatureVerificationUnexpectedHeader => .signatureVerificationUnexpectedHeader
  | .parseFailedError _ => .parseFailedError
  | .deserializeFailedError _ => .deserializeFailedError

abbrev Error := ProgramError SessionManagerError

/-- `SESSION_SETTER_SEED`. -/
def sessionSetterSeed : Bytes := utf8 "session_setter"

/-- `MAX_SESSION_DURATION`: 8 days. -/
def maxSessionDuration : Int64 := 8 * 24 * 60 * 60

/-- The expiration as a timestamp, unless it is too far in the future. -/
def checkExpiration (now : UnixTimestamp) (expiration : DateTime) : Except Error UnixTimestamp := do
  let timestamp := expiration.timestamp
  require (timestamp ≤ saturatingAddI64 now maxSessionDuration) (.custom .sessionTooLong)
  return timestamp

/-- Reads a session account. -/
def loadSession (l : Ledger) (key : Pubkey) [Addressing] : Except Error Session :=
  Anchor.account l key ProgramIds.sessionManager
    (Anchor.tryDeserialize Session.discriminator Session.codec)

/-- The length of a session account. -/
def sessionLen (session : Session) : Except Error Nat := do
  let bytes ← mapErr (fun _ => .foreign) (Session.codec.encode session)
  return 8 + bytes.length

/-- Writes a session to its account. -/
def storeSession (l : Ledger) (key : Pubkey) (session : Session) : Except Error Ledger := do
  let data ← mapErr .anchor
    (Anchor.trySerialize Session.discriminator Session.codec session (l key).data)
  return l.setData key data

section

variable [Addressing] [SystemProgram] [TokenProgram] [TokenMetadata] [Chrono] [LegacyOffchain]

/-! ## Approvals -/

structure PendingApproval where
  userAccount : Pubkey
  mintAccount : Pubkey
  amount : UInt64
  mintDecimals : UInt8
deriving DecidableEq

/-- `accounts_iter.next()`. -/
def nextAccount (accounts : List Pubkey) : Except Error (Pubkey × List Pubkey) :=
  match accounts with
  | account :: rest => .ok (account, rest)
  | [] => .error (.custom .missingAccount)

/-- `Metadata::find_pda`. -/
def metadataAddress (mint : Pubkey) : Pubkey :=
  derivedAddress [utf8 "metadata", Ids.tokenMetadataProgram.bytes, mint.bytes]
    Ids.tokenMetadataProgram

/-- Symbols in the metadata account are padded to 10 characters. -/
def padSymbol (symbol : String) : String :=
  symbol ++ String.ofList (List.replicate (10 - symbol.length) '\x00')

/-- The user's token account and the mint, as the remaining accounts name them. -/
def resolveAccounts (l : Ledger) (symbolOrMint : SymbolOrMint) (accounts : List Pubkey) :
    Except Error (Pubkey × Pubkey × List Pubkey) := do
  match symbolOrMint with
  | .symbol symbol =>
    let (userAccount, accounts) ← nextAccount accounts
    let (mintAccount, accounts) ← nextAccount accounts
    let (metadataAccount, accounts) ← nextAccount accounts
    require (metadataAccount = metadataAddress mintAccount) (.custom .metadataMismatch)
    let metadataSymbol ← okOr (TokenMetadata.symbol (l metadataAccount).data) .foreign
    require (metadataSymbol = padSymbol symbol) (.custom .symbolMismatch)
    return (userAccount, mintAccount, accounts)
  | .mint mint =>
    let (userAccount, accounts) ← nextAccount accounts
    let (mintAccount, accounts) ← nextAccount accounts
    require (mint = mintAccount) (.custom .mintMismatch)
    return (userAccount, mintAccount, accounts)

def UiTokenAmount.intoAmountInternal (uiTokenAmount : UiTokenAmount) (decimals : UInt8) :
    Except Error UInt64 :=
  okOr (TokenProgram.tryUiAmountIntoAmount uiTokenAmount.text decimals)
    (.custom .amountConversionFailed)

/-- The approval that a token of the intent asks for. -/
def resolveApproval (l : Ledger) (user : Pubkey) (symbolOrMint : SymbolOrMint)
    (uiTokenAmount : UiTokenAmount) (accounts : List Pubkey) :
    Except Error (PendingApproval × List Pubkey) := do
  let (userAccount, mintAccount, accounts) ← resolveAccounts l symbolOrMint accounts
  require (userAccount = associatedTokenAddress user mintAccount)
    (.custom .associatedTokenAccountMismatch)
  let mintData ← okOr (TokenProgram.unpackMint (l mintAccount).data) .foreign
  let amount ← uiTokenAmount.intoAmountInternal mintData.decimals
  return ({ userAccount, mintAccount, amount, mintDecimals := mintData.decimals }, accounts)

def convertRemainingAccountsAndTokenLimitsToPendingApprovals (l : Ledger) (user : Pubkey) :
    List (SymbolOrMint × UiTokenAmount) → List Pubkey → Except Error (List PendingApproval)
  | [], _ => .ok []
  | (symbolOrMint, uiTokenAmount) :: tokens, accounts => do
    let (approval, accounts) ← resolveApproval l user symbolOrMint uiTokenAmount accounts
    let approvals ← convertRemainingAccountsAndTokenLimitsToPendingApprovals l user tokens accounts
    return approval :: approvals

/-- Delegates token accounts to the session key. -/
def approveTokens (l : Ledger) (session sessionSetter : Pubkey)
    (pendingApprovals : List PendingApproval) : Except Error Ledger :=
  pendingApprovals.foldlM
    (fun l p => okOr (TokenProgram.approveChecked l p.userAccount p.mintAccount session
      sessionSetter p.amount p.mintDecimals) .invoked) l

/-! ## Starting a session -/

/-- The accounts of `start_session`. -/
structure StartSession where
  sponsor : Pubkey
  chainId : ChainId
  session : Pubkey
  domainRegistry : Pubkey
  sessionSetter : Pubkey
  remainingAccounts : List Pubkey

def StartSession.tryAccounts (l : Ledger) (accounts : List AccountMeta) :
    Except Error StartSession :=
  match accounts with
  | sponsor :: chainId :: session :: sysvarInstructions :: domainRegistry :: sessionSetter ::
      tokenProgram :: systemProgram :: remaining => do
    Anchor.signer sponsor
    Anchor.writable sponsor
    let chainId ← ChainId.load l chainId
    Anchor.signer session
    Anchor.writable session
    Anchor.address sysvarInstructions Ids.sysvarInstructions
    Anchor.seeds sessionSetter [sessionSetterSeed] ProgramIds.sessionManager
    Anchor.program tokenProgram Ids.tokenProgram
    Anchor.program systemProgram Ids.systemProgram
    return {
      sponsor := sponsor.pubkey
      chainId
      session := session.pubkey
      domainRegistry := domainRegistry.pubkey
      sessionSetter := sessionSetter.pubkey
      remainingAccounts := remaining.map AccountMeta.pubkey }
  | _ => .error (.anchor .accountNotEnoughKeys)

namespace StartSession

def getDomainPrograms (self : StartSession) (l : Ledger) (domain : String) :
    Except Error (List AuthorizedProgram) := do
  require (self.domainRegistry = getDomainRecordAddress domain) (.custom .domainRecordMismatch)
  let domainRecord : ResizableAccountArray := ⟨self.domainRegistry, self.sponsor⟩
  domainRecord.toVec l

/-- `system_program::initialize_account`. -/
def initializeAccount (l : Ledger) (payer newAccount : Pubkey) (space : Nat) : Except Error Ledger :=
  okOr (createOrFund l payer newAccount ProgramIds.sessionManager space) .invoked

def initializeAndStoreSession (self : StartSession) (l : Ledger) (session : Session) :
    Except Error Ledger := do
  let space ← sessionLen session
  let l ← initializeAccount l self.sponsor self.session space
  storeSession l self.session session

/-- The approvals the intent asks for: none when any token may be spent. -/
def pendingApprovals (self : StartSession) (l : Ledger) (signer : Pubkey) (tokens : Tokens) :
    Except Error (List PendingApproval) :=
  match tokens with
  | .specific tokens =>
    convertRemainingAccountsAndTokenLimitsToPendingApprovals l signer tokens self.remainingAccounts
  | .all => .ok []

/-- What the session records of the tokens. -/
def authorizedTokensWithMints (tokens : Tokens) (pendingApprovals : List PendingApproval) :
    AuthorizedTokensWithMints :=
  match tokens with
  | .specific _ => .specific (pendingApprovals.map PendingApproval.mintAccount)
  | .all => .all

/-- The session an intent starts, in the layout of the intent's minor version. -/
def buildSession (self : StartSession) (intent : Intent Message) (expiration : UnixTimestamp)
    (tokens : AuthorizedTokensWithMints) (programDomains : List AuthorizedProgram) :
    Except Error Session :=
  let info : ActiveSessionInfo AuthorizedTokensWithMints :=
    { user := intent.signer
      authorizedPrograms := .specific programDomains
      authorizedTokens := tokens
      extra := intent.message.extra
      expiration }
  let session (sessionInfo : SessionInfo) : Session :=
    { sponsor := self.sponsor, major := intent.message.version.major, sessionInfo }
  match intent.message.version.minor with
  | 1 => .ok (session (.v1 { info with authorizedTokens := tokens.asRef }))
  | 2 => .ok (session (.v2 (.active { info with authorizedTokens := tokens.asRef })))
  | 3 => .ok (session (.v3 (.active info)))
  | 4 => .ok (session (.v4 (.active
      { domainHash := domainHash intent.message.domain, activeSessionInfo := info })))
  | _ => .error (.custom .invalidVersion)

end StartSession

def startSession (ctx : Context) (accounts : List AccountMeta) (l : Ledger) :
    Except Error Ledger := do
  let self ← StartSession.tryAccounts l accounts
  let intent ← mapErr (fun e => .custom (.ofIntentError e))
    (Intent.load Message.tryFrom ctx.instructions ctx.index)
  require (self.chainId.chainId = intent.message.chainId) (.custom .chainIdMismatch)
  require (self.session = intent.message.sessionKey) (.custom .sessionKeyMismatch)
  let expiration ← checkExpiration ctx.now intent.message.expires
  let pendingApprovals ← self.pendingApprovals l intent.signer intent.message.tokens
  let tokens := StartSession.authorizedTokensWithMints intent.message.tokens pendingApprovals
  let l ← approveTokens l self.session self.sessionSetter pendingApprovals
  let programDomains ← self.getDomainPrograms l intent.message.domain
  let session ← self.buildSession intent expiration tokens programDomains
  self.initializeAndStoreSession l session

/-! ## Revoking a session -/

/-- What is left of a session when it is revoked; revoking twice changes nothing. -/
def revokedInfo : SessionInfo → Except Error SessionInfo
  | .invalid | .v1 _ => .error (.custom .invalidVersion)
  | .v2 (.active info) => .ok (.v2 (.revoked info.expiration))
  | .v2 (.revoked expiration) => .ok (.v2 (.revoked expiration))
  | .v3 (.active info) => .ok (.v3 (.revoked
      { user := info.user
        expiration := info.expiration
        authorizedTokensWithMints := info.authorizedTokens }))
  | .v3 (.revoked info) => .ok (.v3 (.revoked info))
  | .v4 (.active info) => .ok (.v4 (.revoked
      { user := info.activeSessionInfo.user
        expiration := info.activeSessionInfo.expiration
        authorizedTokensWithMints := info.activeSessionInfo.authorizedTokens }))
  | .v4 (.revoked info) => .ok (.v4 (.revoked info))

/-- Gives the account the length of its session and the sponsor the lamports that are too many. -/
def reallocateAndRefundRent (l : Ledger) (key sponsor : Pubkey) (session : Session) :
    Except Error Ledger := do
  let newLen ← sessionLen session
  let l ← Anchor.realloc ProgramIds.sessionManager l key newLen
  let newRent := SystemProgram.minimumBalance newLen
  let currentRent := (l key).lamports
  if newRent < currentRent then do
    let l := l.setLamports key newRent
    let lamports := (l sponsor).lamports + (currentRent - newRent)
    require (lamports ≤ u64Max) .arithmeticOverflow
    return l.setLamports sponsor lamports
  else return l

def revokeSession (accounts : List AccountMeta) (l : Ledger) : Except Error Ledger :=
  match accounts with
  | session :: sponsor :: systemProgram :: _ => do
    let value ← loadSession l session.pubkey
    Anchor.program systemProgram Ids.systemProgram
    Anchor.writable session
    Anchor.signerConstraint session
    Anchor.writable sponsor
    require (value.sponsor = sponsor.pubkey) (.custom .sponsorMismatch)
    let sessionInfo ← revokedInfo value.sessionInfo
    let value := { value with sessionInfo }
    let l ← reallocateAndRefundRent l session.pubkey sponsor.pubkey value
    storeSession l session.pubkey value
  | _ => .error (.anchor .accountNotEnoughKeys)

/-! ## Closing a session -/

/-- The user and the mints whose approvals have to be revoked when the session is closed. -/
def mintsToRevoke : SessionInfo → Except Error (Pubkey × List Pubkey)
  | .v3 (.active info) => .ok (info.user, withMints info.authorizedTokens)
  | .v3 (.revoked info) => .ok (info.user, withMints info.authorizedTokensWithMints)
  | .v4 (.active info) =>
    .ok (info.activeSessionInfo.user, withMints info.activeSessionInfo.authorizedTokens)
  | .v4 (.revoked info) => .ok (info.user, withMints info.authorizedTokensWithMints)
  | .v2 (.active info) | .v1 info =>
    -- V2 and V1 sessions can only be closed if they have no token limits
    match info.authorizedTokens with
    | .specific => .error (.custom .invalidVersion)
    | .all => .ok (info.user, [])
  | .v2 (.revoked _) | .invalid => .error (.custom .invalidVersion)
where
  withMints : AuthorizedTokensWithMints → List Pubkey
    | .specific mints => mints
    | .all => []

/-- The account, when the session key is its delegate. -/
def pendingRevocation (l : Ledger) (user sessionPubkey : Pubkey) (pair : Pubkey × Pubkey) :
    Except Error (Option Pubkey) := do
  let (mint, userAccount) := pair
  require (userAccount = associatedTokenAddress user mint) (.custom .associatedTokenAccountMismatch)
  if (l userAccount).owner = Ids.tokenProgram then do
    let account ← okOr (TokenProgram.unpackAccount (l userAccount).data) .foreign
    return if account.delegate = some sessionPubkey then some userAccount else none
  else return none

def convertRemainingAccountsAndMintsToRevokeToPendingRevocations (l : Ledger)
    (accounts mints : List Pubkey) (user sessionPubkey : Pubkey) : Except Error (List Pubkey) := do
  require (mints.length ≤ accounts.length) (.custom .missingAccount)
  (mints.zip accounts).filterMapM (pendingRevocation l user sessionPubkey)

/-- Takes the delegation of token accounts back. -/
def revokeTokens (l : Ledger) (sessionSetter : Pubkey) (pendingRevocations : List Pubkey) :
    Except Error Ledger :=
  pendingRevocations.foldlM
    (fun l userAccount => okOr (TokenProgram.revoke l userAccount sessionSetter) .invoked) l

def closeSession (ctx : Context) (accounts : List AccountMeta) (l : Ledger) : Except Error Ledger :=
  match accounts with
  | session :: sponsor :: sessionSetter :: tokenProgram :: systemProgram :: remaining => do
    let value ← loadSession l session.pubkey
    Anchor.program tokenProgram Ids.tokenProgram
    Anchor.program systemProgram Ids.systemProgram
    Anchor.writable session
    let live ← mapErr (fun _ => .foreign) (value.isLive ctx.now)
    require (live = false) (.custom .sessionIsLive)
    require (session.pubkey ≠ sponsor.pubkey) (.anchor .constraintClose)
    Anchor.writable sponsor
    require (value.sponsor = sponsor.pubkey) (.custom .sponsorMismatch)
    Anchor.seeds sessionSetter [sessionSetterSeed] ProgramIds.sessionManager
    let (user, mints) ← mintsToRevoke value.sessionInfo
    let pendingRevocations ← convertRemainingAccountsAndMintsToRevokeToPendingRevocations l
      (remaining.map AccountMeta.pubkey) mints user session.pubkey
    let l ← revokeTokens l sessionSetter.pubkey pendingRevocations
    return Anchor.close l session.pubkey sponsor.pubkey
  | _ => .error (.anchor .accountNotEnoughKeys)

/-! ## The instructions -/

inductive Command where
  | startSession
  | revokeSession
  | closeSession
deriving DecidableEq

/-- Which instruction the data names; what follows the discriminator is ignored. -/
def Command.decode (data : Bytes) : Option Command :=
  match data with
  | 0 :: _ => some .startSession
  | 1 :: _ => some .revokeSession
  | 2 :: _ => some .closeSession
  | _ => none

def process (ctx : Context) (ix : Instruction) (l : Ledger) : Except Error Ledger :=
  match Command.decode ix.data with
  | some .startSession => startSession ctx ix.accounts l
  | some .revokeSession => revokeSession ix.accounts l
  | some .closeSession => closeSession ctx ix.accounts l
  | none => .error (.anchor .instructionFallbackNotFound)

end

end FogoSessions.SessionManager
