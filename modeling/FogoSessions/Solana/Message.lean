import FogoSessions.Lib.Result
import FogoSessions.Solana.Pubkey

/-!
# Transaction messages

The versioned transaction format. Nothing here is sanitized: any index may be out of range, and any
number of keys, signatures and instructions may occur.
-/

namespace FogoSessions.Solana

open Lib

/-- A transaction signature. -/
abbrev Signature := FixedBytes 64

/-- An instruction that names its program and its accounts by index. -/
structure CompiledInstruction where
  programIdIndex : UInt8
  accounts : List UInt8
  data : Bytes
deriving DecidableEq

/-- The key at the instruction's program id index; the index is not checked. -/
def CompiledInstruction.programId {ε : Type} (ix : CompiledInstruction) (keys : List Pubkey) :
    Outcome ε Pubkey :=
  index keys ix.programIdIndex.toNat

/-- How many of the keys sign, and how many of these and of the others are readonly. -/
structure MessageHeader where
  numRequiredSignatures : UInt8
  numReadonlySignedAccounts : UInt8
  numReadonlyUnsignedAccounts : UInt8
deriving DecidableEq

/-- The entries of a lookup table that a message uses. -/
structure MessageAddressTableLookup where
  accountKey : Pubkey
  writableIndexes : List UInt8
  readonlyIndexes : List UInt8
deriving DecidableEq

/-- A message that lists all its keys. -/
structure LegacyMessage where
  header : MessageHeader
  accountKeys : List Pubkey
  recentBlockhash : FixedBytes 32
  instructions : List CompiledInstruction
deriving DecidableEq

/-- A message that also takes keys from lookup tables. -/
structure V0Message where
  header : MessageHeader
  accountKeys : List Pubkey
  recentBlockhash : FixedBytes 32
  instructions : List CompiledInstruction
  addressTableLookups : List MessageAddressTableLookup
deriving DecidableEq

/-- A message of either version. -/
inductive VersionedMessage where
  | legacy (message : LegacyMessage)
  | v0 (message : V0Message)
deriving DecidableEq

namespace VersionedMessage

def header : VersionedMessage → MessageHeader
  | legacy m => m.header
  | v0 m => m.header

/-- The keys that the message lists itself; the first ones sign. -/
def staticAccountKeys : VersionedMessage → List Pubkey
  | legacy m => m.accountKeys
  | v0 m => m.accountKeys

def instructions : VersionedMessage → List CompiledInstruction
  | legacy m => m.instructions
  | v0 m => m.instructions

/-- A legacy message has no lookups, not even an empty list of them. -/
def addressTableLookups : VersionedMessage → Option (List MessageAddressTableLookup)
  | legacy _ => none
  | v0 m => some m.addressTableLookups

end VersionedMessage

/-- A message with the signatures of its first keys, in order. -/
structure VersionedTransaction where
  signatures : List Signature
  message : VersionedMessage
deriving DecidableEq

end FogoSessions.Solana
