import FogoSessions.Lib.Borsh
import FogoSessions.Solana.Pubkey

/-!
# Off-chain messages

`solana-intents/src/offchain_message.rs`: the versions 0 and 1 of the off-chain message format,
read in two stages, the wire format first and then its constraints.
-/

namespace FogoSessions.Intents

open Lib Solana

/-- `b"\xffsolana offchain"`. -/
def expectedSigningDomain : Bytes := 0xff :: utf8 "solana offchain"

/-- How the text of a message of version 0 is restricted. -/
inductive MessageFormat where
  | restrictedAscii
  | limitedUtf8
  | extendedUtf8
deriving DecidableEq

/-! ## The wire format -/

/-- A message of version 0 as it is on the wire. -/
structure OffchainMessageHeaderV0 where
  applicationDomain : FixedBytes 32
  messageFormat : MessageFormat
  signers : List Pubkey
  message : Bytes
deriving DecidableEq

/-- A message of version 1 as it is on the wire; the text runs to the end. -/
structure OffchainMessageHeaderV1 where
  signers : List Pubkey
  message : Bytes
deriving DecidableEq

/-- The version is the tag that is read first. -/
inductive OffchainMessageHeader where
  | v0 (header : OffchainMessageHeaderV0)
  | v1 (header : OffchainMessageHeaderV1)
deriving DecidableEq

/-- What is signed. -/
structure OffchainMessageFormat where
  signingDomain : FixedBytes 16
  header : OffchainMessageHeader
deriving DecidableEq

/-- `vec_with_len`: a vector after its length, the length read by `len`. -/
def vecWithLen {α : Type} (len : Decoder Nat) (elem : Decoder α) : Decoder (List α) := do
  let n ← len
  elem.many n

def MessageFormat.decode : Decoder MessageFormat := do
  match ← Decoder.u8 with
  | 0 => return .restrictedAscii
  | 1 => return .limitedUtf8
  | 2 => return .extendedUtf8
  | _ => Decoder.fail (.invalidData "Unexpected variant tag")

def OffchainMessageHeaderV0.decode : Decoder OffchainMessageHeaderV0 := do
  let applicationDomain ← Decoder.fixed 32
  let messageFormat ← MessageFormat.decode
  let signers ← vecWithLen (UInt8.toNat <$> Decoder.u8) (Decoder.fixed 32)
  let message ← vecWithLen (UInt16.toNat <$> Decoder.u16) Decoder.u8
  return { applicationDomain, messageFormat, signers, message }

def OffchainMessageHeaderV1.decode : Decoder OffchainMessageHeaderV1 := do
  let signers ← vecWithLen (UInt8.toNat <$> Decoder.u8) (Decoder.fixed 32)
  let message ← Decoder.readToEnd
  return { signers, message }

def OffchainMessageHeader.decode : Decoder OffchainMessageHeader := do
  match ← Decoder.u8 with
  | 0 => .v0 <$> OffchainMessageHeaderV0.decode
  | 1 => .v1 <$> OffchainMessageHeaderV1.decode
  | _ => Decoder.fail (.invalidData "Unexpected variant tag")

def OffchainMessageFormat.decode : Decoder OffchainMessageFormat := do
  let signingDomain ← Decoder.fixed 16
  let header ← OffchainMessageHeader.decode
  return { signingDomain, header }

/-! ## The messages -/

/-- A message of version 0 that meets the constraints of its format. -/
structure OffchainMessageV0 where
  applicationDomain : FixedBytes 32
  signers : List Pubkey
  message : String
deriving DecidableEq

/-- A message of version 1: its signers are sorted and none occurs twice. -/
structure OffchainMessageV1 where
  signers : List Pubkey
  message : String
deriving DecidableEq

/-- A message of either version. -/
inductive OffchainMessage where
  | v0 (message : OffchainMessageV0)
  | v1 (message : OffchainMessageV1)
deriving DecidableEq

def OffchainMessage.getMessage : OffchainMessage → String
  | .v0 m => m.message
  | .v1 m => m.message

/-- What keeps bytes from being a message. -/
inductive MessageDeserializeError where
  | invalidSigningDomain
  | incorrectMessageFormat (error : IoError)
  | messageContainsNonPrintableAscii
  | messageNotUtf8
  | messageTooLong
  | noSigners
  | signersNotSorted
  | duplicateSigners
deriving DecidableEq

/-- The most bytes that a text of the format may have. -/
def maxMessageLen : MessageFormat → Nat
  | .restrictedAscii => 1232
  | .limitedUtf8 => 1232
  | .extendedUtf8 => 65535

/-- From the space to the tilde. -/
def isPrintableAscii (message : Bytes) : Bool := message.all fun chr => 0x20 ≤ chr ∧ chr ≤ 0x7e

/-- `slice::is_sorted`, for keys. -/
def isSorted : List Pubkey → Bool
  | a :: b :: rest => a.le b && isSorted (b :: rest)
  | _ => true

def containsDuplicates (keys : List Pubkey) : Bool := ¬ keys.Nodup

def fromUtf8 (message : Bytes) : Except MessageDeserializeError String :=
  okOr (ofUtf8? message) .messageNotUtf8

/-- The format first, then the length, then the encoding. -/
def OffchainMessageV0.tryFrom (header : OffchainMessageHeaderV0) :
    Except MessageDeserializeError OffchainMessageV0 :=
  if header.messageFormat = .restrictedAscii ∧ ¬ isPrintableAscii header.message then
    .error .messageContainsNonPrintableAscii
  else if header.message.length > maxMessageLen header.messageFormat then
    .error .messageTooLong
  else do
    let message ← fromUtf8 header.message
    return { applicationDomain := header.applicationDomain, signers := header.signers, message }

/-- The signers first, then the encoding. -/
def OffchainMessageV1.tryFrom (header : OffchainMessageHeaderV1) :
    Except MessageDeserializeError OffchainMessageV1 :=
  if header.signers.isEmpty then .error .noSigners
  else if ¬ isSorted header.signers then .error .signersNotSorted
  else if containsDuplicates header.signers then .error .duplicateSigners
  else do
    let message ← fromUtf8 header.message
    return { signers := header.signers, message }

def OffchainMessage.tryFromHeader :
    OffchainMessageHeader → Except MessageDeserializeError OffchainMessage
  | .v0 header => .v0 <$> OffchainMessageV0.tryFrom header
  | .v1 header => .v1 <$> OffchainMessageV1.tryFrom header

/-- The signing domain is compared once the whole has been read. -/
def OffchainMessage.tryFrom (bytes : Bytes) : Except MessageDeserializeError OffchainMessage := do
  let format ← mapErr .incorrectMessageFormat (OffchainMessageFormat.decode.tryFromSlice bytes)
  if format.signingDomain.bytes = expectedSigningDomain then tryFromHeader format.header
  else .error .invalidSigningDomain

end FogoSessions.Intents
