import FogoSessions.Lib.Task
import FogoSessions.Solana.Address
import FogoSessions.Solana.Ed25519Program
import FogoSessions.Solana.Message

/-!
# What the paymaster calls

The paymaster's requests run concurrently and share a cache of address lookup tables; they read the
chain through an RPC node and sign with the sponsors' keys. Each of these is an operation whose
answer the paymaster does not control.
-/

namespace FogoSessions.Paymaster

open Lib Solana

/-- The HTTP status codes the paymaster replies with. -/
inductive StatusCode where
  | badRequest
  | internalServerError
  | serviceUnavailable
  | badGateway
  | notFound
deriving DecidableEq

/-- An error reply, `(StatusCode, String)`. -/
structure ErrorReply where
  status : StatusCode
  message : String
deriving DecidableEq

def badRequest (message : String) : ErrorReply := ⟨.badRequest, message⟩

/-- The third-party code the paymaster relies on. -/
class External extends Ed25519, Addressing where
  /-- the base64 decoder -/
  decodeBase64 : String → Option Bytes
  /-- the bincode decoder of transactions -/
  decodeTransaction : Bytes → Option VersionedTransaction
  /-- `VersionedMessage::serialize` -/
  serialize : VersionedMessage → Bytes
  /-- `AddressLookupTable::deserialize`, to the table's addresses -/
  deserializeLookupTable : Bytes → Except String (List Pubkey)
  /-- `keccak::hash` -/
  keccak : Bytes → FixedBytes 32
  /-- `libsecp256k1::recover` after parsing the signature and the recovery id: the recovered key in
      its 65-byte form -/
  secp256k1Recover : FixedBytes 32 → FixedBytes 64 → UInt8 → Except String (FixedBytes 65)
  /-- the key of the `i`-th sponsor of a domain, derived from the mnemonic -/
  sponsorPubkey : String → String → UInt8 → Pubkey

/-- A stand-in for the third-party code, for the runs that call none of it. -/
@[reducible] def External.uncalled : External where
  verifyStrict _ _ _ := false
  sha256 _ := .ofNat 0
  onCurve _ := false
  findProgramAddress _ _ := (.ofNat 0, 255)
  derived_off_curve _ _ := rfl
  decodeBase64 _ := none
  decodeTransaction _ := none
  serialize _ := []
  deserializeLookupTable _ := .error ""
  keccak _ := .ofNat 0
  secp256k1Recover _ _ _ := .error ""
  sponsorPubkey _ _ _ := .ofNat 0

inductive Op where
  /-- Reads the cached content of a lookup table. -/
  | lookupTableCacheGet (table : Pubkey)
  /-- Fetches an account's data from the RPC node. -/
  | rpcGetAccount (account : Pubkey)
  /-- Replaces the cached content of a lookup table. -/
  | lookupTableCacheInsert (table : Pubkey) (addresses : List Pubkey)
  /-- Runs that many futures concurrently; the answer is the order in which they complete. -/
  | selectOk (futures : Nat)
  /-- Signs a message with a sponsor's key. -/
  | signMessage (sponsor : Pubkey) (message : Bytes)
  /-- Sends a signed transaction and waits for its confirmation. -/
  | sendAndConfirm (transaction : VersionedTransaction) (skipPreflight : Bool)
deriving DecidableEq

/-- What became of a transaction that was sent. -/
inductive ConfirmationResult where
  | success (signature : Signature)
  | failed (signature : Signature) (error : String)
deriving DecidableEq

@[reducible] def Ans : Op → Type
  | .lookupTableCacheGet _ => Option (List Pubkey)
  | .rpcGetAccount _ => Except String Bytes
  | .lookupTableCacheInsert _ _ => Unit
  | .selectOk _ => List Nat
  | .signMessage _ _ => Signature
  | .sendAndConfirm _ _ => Except ErrorReply ConfirmationResult

/-- A step of a request handler. -/
abbrev Handler (α : Type) := Task Op Ans (Fault ErrorReply) α

/-- Calls an operation. -/
def call (op : Op) : Handler (Ans op) := .perform op

/-- Reply with an error. -/
def reply {α : Type} (e : ErrorReply) : Handler α := .lift (.error (.err e))

end FogoSessions.Paymaster
