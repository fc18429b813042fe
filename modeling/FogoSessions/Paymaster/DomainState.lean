import FogoSessions.DomainRegistry.Record
import FogoSessions.Paymaster.Config

/-!
# Domain states and the sponsor handler

`api.rs`: the state the paymaster keeps for each domain, how it is built from the configuration and
refreshed, and the request handler that validates, signs and sends a transaction.
-/

namespace FogoSessions.Paymaster

open Lib Solana

structure DomainState where
  domainRegistryKey : Pubkey
  sponsors : List Pubkey
  sponsors_nonempty : sponsors ≠ []
  enablePreflightSimulation : Bool
  txVariations : NameMap ParsedTransactionVariation
  nextAutoassignedSponsorIndex : Nat

variable [External]

/-! ## Validation -/

namespace DomainState

omit [External] in
/-- The (signature, key) pairs of the signers other than the fee payer. -/
def otherSigners (transaction : TransactionToValidate) : List (Signature × Pubkey) :=
  (transaction.signatures.zip transaction.message.staticAccountKeys).drop 1

def verifyOtherSigners (transaction : TransactionToValidate) : Outcome ErrorReply Unit :=
  let messageBytes := External.serialize transaction.message
  (otherSigners transaction).forM fun (signature, pubkey) =>
    require (Ed25519.verifyStrict pubkey messageBytes signature)
      (.err (badRequest s!"Missing or invalid signature for account {pubkey}"))

def validateTransactionAgainstVariation (self : DomainState) (transaction : TransactionToValidate)
    (txVariation : ParsedTransactionVariation) (sponsor : Pubkey) : Handler Unit :=
  match txVariation with
  | .v0 variation => .lift (variation.validateTransaction transaction)
  | .v1 variation =>
    variation.validateTransaction transaction
      { domainRegistry := self.domainRegistryKey, sponsor }

omit [External] in
/-- The variations that a request may match: all of them, or the one it names. -/
def candidates (self : DomainState) (variationName : Option String) :
    List ParsedTransactionVariation :=
  (self.txVariations.entries.filter fun entry => variationName.all (entry.1 = ·)).map (·.2)

/-- Validates against one variation, and returns it. -/
def tryVariation (self : DomainState) (transaction : TransactionToValidate) (sponsor : Pubkey)
    (variation : ParsedTransactionVariation) : Handler ParsedTransactionVariation := do
  self.validateTransactionAgainstVariation transaction variation sponsor
  return variation

omit [External] in
/-- The first success among futures that complete in this order. -/
def firstOk {α : Type} (e : ErrorReply) : List (Handler α) → Handler α
  | [] => reply e
  | future :: futures => do
    match ← future.attempt with
    | .ok a => return a
    | .error _ => firstOk e futures

omit [External] in
/-- `futures::future::select_ok`, with the error reply for when all futures fail. -/
def selectOk {α : Type} (e : ErrorReply) (futures : List (Handler α)) : Handler α := do
  let order ← call (.selectOk futures.length)
  firstOk e (order.filterMap (futures[·]?))

def validateTransaction (self : DomainState) (transaction : TransactionToValidate)
    (sponsor : Pubkey) (variationName : Option String) : Handler ParsedTransactionVariation := do
  .lift (verifyOtherSigners transaction)
  let validationFutures := (self.candidates variationName).map (self.tryVariation transaction sponsor)
  match validationFutures, variationName with
  | [], some name => reply (badRequest s!"No transaction variation named '{name}' for domain")
  | [], none => reply (badRequest "No transaction variations configured for domain")
  | future :: _, some _ => future
  | futures, none =>
    selectOk (badRequest "Transaction does not match any allowed variations") futures

end DomainState

/-! ## The state of all domains -/

/-- The state of one configured domain. -/
def getDomainState? (mnemonic : String) (d : Domain) : Except String (String × DomainState) := do
  let sponsors := (List.range d.numberOfSigners.toNat).map fun i =>
    External.sponsorPubkey mnemonic d.domain (UInt8.ofNat i)
  let txVariations ← Domain.intoParsedTransactionVariations d.txVariations d.enableSessionManagement
  return (d.domain,
    { domainRegistryKey := DomainRegistry.getDomainRecordAddress d.domain
      sponsors
      sponsors_nonempty := by
        have hpos : d.numberOfSigners.toNat ≠ 0 := fun h =>
          d.numberOfSigners_pos (UInt8.toNat_inj.1 h)
        simpa [sponsors] using hpos
      enablePreflightSimulation := d.enablePreflightSimulation
      txVariations
      nextAutoassignedSponsorIndex := 0 })

def getDomainStateMap (domains : List Domain) (mnemonic : String) :
    Except String (NameMap DomainState) := do
  let states ← domains.mapM (getDomainState? mnemonic)
  return states.foldl (fun map state => map.insert state.1 state.2) ∅

/-- One round of the config refresher: the states are replaced, or kept when the new configuration
    fails. -/
def refresh (current : NameMap DomainState) (domains : List Domain) (mnemonic : String) :
    NameMap DomainState :=
  match getDomainStateMap domains mnemonic with
  | .ok newDomains => newDomains
  | .error _ => current

/-! ## The sponsor handler -/

/-- `PACKET_DATA_SIZE`. -/
def packetDataSize : Nat := 1232

structure ServerState where
  domains : NameMap DomainState
  balances : Pubkey → Option UInt64
  minimumBalanceLamports : UInt64
  feeCoefficients : FeeCoefficients

structure SponsorAndSendRequest where
  domain : Option String
  origin : Option String
  variation : Option String
  transaction : String

omit [External] in
def getDomainName (domainExplicit origin : Option String) : Except ErrorReply String :=
  okOr (domainExplicit.or origin)
    (badRequest "The http origin header or query parameter domain is required")

omit [External] in
def getDomainState (domains : NameMap DomainState) (domainQueryParameter : String) :
    Except ErrorReply DomainState :=
  okOr (domains.lookup domainQueryParameter) (badRequest
    (s!"The domain {domainQueryParameter} is not registered with the paymaster, please either set "
      ++ "the domain property in FogoSessionProvider to match your production domain or reach out "
      ++ "to the Fogo team to get a paymaster configuration for your app"))

/-- The transaction in the request's payload. -/
def decodeTransaction (payload : String) : Except ErrorReply VersionedTransaction := do
  let bytes ← okOr (External.decodeBase64 payload)
    (badRequest "Failed to deserialize transaction")
  require (bytes.length ≤ packetDataSize)
    (badRequest s!"Transaction is too large: {bytes.length} > {packetDataSize}")
  okOr (External.decodeTransaction bytes) (badRequest "Failed to deserialize transaction")

omit [External] in
/-- An unknown balance counts as enough. -/
def isEnoughBalance (balance : Option UInt64) (minimumBalanceLamports : UInt64) : Bool :=
  balance.all (minimumBalanceLamports ≤ ·)

/-- The error of a request whose fee payer is not a sponsor of the domain. -/
def notASponsor (domainState : DomainState) (feePayer : Pubkey) : ErrorReply :=
  let expected := ",".intercalate (domainState.sponsors.map toString)
  badRequest (s!"Transaction fee payer must be one of the sponsors: expected one of {expected}, "
    ++ s!"got {feePayer}")

omit [External] in
/-- `SignedVersionedTransaction::new`: puts the fee payer's signature in its slot. -/
def signedVersionedTransaction (transaction : VersionedTransaction) (signature : Signature) :
    Except ErrorReply VersionedTransaction :=
  match transaction.signatures with
  | [] => .error (badRequest "Transaction must have at least one signature slot")
  | _ :: signatures => .ok { transaction with signatures := signature :: signatures }

def sponsorAndSendHandler (state : ServerState) (request : SponsorAndSendRequest) :
    Handler ConfirmationResult := do
  let domain ← .lift (mapErr .err (getDomainName request.domain request.origin))
  let domainState ← .lift (mapErr .err (getDomainState state.domains domain))
  let transaction ← .lift (mapErr .err (decodeTransaction request.transaction))
  let feePayer ← .lift (mapErr .err (okOr transaction.message.staticAccountKeys.head?
    (badRequest "The transaction must have a fee payer")))
  .lift (require (isEnoughBalance (state.balances feePayer) state.minimumBalanceLamports)
    (.err ⟨.serviceUnavailable, s!"Paymaster wallet {feePayer} is out of funds"⟩))
  let transactionSponsor ← .lift (mapErr .err (okOr (domainState.sponsors.find? (· = feePayer))
    (notASponsor domainState feePayer)))
  let transactionToValidate ← TransactionToValidate.parse transaction state.feeCoefficients
  let _ ← domainState.validateTransaction transactionToValidate transactionSponsor request.variation
  let signature ← call (.signMessage transactionSponsor (External.serialize transaction.message))
  let signedTransaction ← .lift (mapErr .err (signedVersionedTransaction transaction signature))
  let result ← call (.sendAndConfirm signedTransaction (¬ domainState.enablePreflightSimulation))
  .lift (mapErr .err result)

end FogoSessions.Paymaster
