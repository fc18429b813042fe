import FogoSessions.Intents.OffchainMessage
import FogoSessions.Solana.Ed25519Program
import FogoSessions.Solana.Instruction

/-!
# Intents

`solana-intents/src/lib.rs`: an intent is a message and the key that signed it, read from the data
of the ed25519 instruction right before the current one.
-/

namespace FogoSessions.Intents

open Lib Solana

/-- A version-0 message of the `solana_offchain_message` crate. -/
structure LegacyOffchainMessage where
  format : MessageFormat
  message : Bytes
deriving DecidableEq

/-- The `solana_offchain_message` crate's decoder. -/
class LegacyOffchain where
  deserialize : Bytes → Option LegacyOffchainMessage

/-! ## The message -/

inductive Message where
  | raw (message : Bytes)
  | legacyOffchain (message : LegacyOffchainMessage)
  | offchain (message : OffchainMessage)
deriving DecidableEq

/-- `Vec::<u8>::from`: the signed text itself, without the framing around it. -/
def Message.toVec : Message → Bytes
  | .raw message => message
  | .legacyOffchain message => message.message
  | .offchain message => utf8 message.getMessage

/-- `LegacyOffchainMessage::SIGNING_DOMAIN`. -/
def legacySigningDomain : Bytes := 0xff :: utf8 "solana offchain"

/-- `LegacyOffchainMessage::HEADER_LEN`: the signing domain and the version. -/
def legacyHeaderLen : Nat := 17

def getLengthWithHeader (message : LegacyOffchainMessage) : Nat :=
  message.message.length + legacyHeaderLen + 3

def Message.deserialize [LegacyOffchain] (data : Bytes) : Except IoError Message :=
  match OffchainMessage.tryFrom data with
  | .ok message => .ok (.offchain message)
  | .error _ =>
    if slice? data 0 legacySigningDomain.length = some legacySigningDomain then do
      let message ← okOr (LegacyOffchain.deserialize data) (.invalidData "Invalid offchain message")
      if data.length > getLengthWithHeader message then .error (.invalidData "Not all bytes read")
      else return .legacyOffchain message
    else .ok (.raw data)

/-! ## The ed25519 instruction data -/

structure Ed25519InstructionHeader where
  numSignatures : UInt8
  padding : UInt8
  signatureOffset : UInt16
  signatureInstructionIndex : UInt16
  publicKeyOffset : UInt16
  publicKeyInstructionIndex : UInt16
  messageDataOffset : UInt16
  messageDataSize : UInt16
  messageInstructionIndex : UInt16
deriving DecidableEq

/-- `Ed25519InstructionHeader::LEN`. -/
def Ed25519InstructionHeader.len : UInt16 := 1 + 1 + 2 + 2 + 2 + 2 + 2 + 2 + 2

def Ed25519InstructionHeader.decode : Decoder Ed25519InstructionHeader := do
  let numSignatures ← Decoder.u8
  let padding ← Decoder.u8
  let signatureOffset ← Decoder.u16
  let signatureInstructionIndex ← Decoder.u16
  let publicKeyOffset ← Decoder.u16
  let publicKeyInstructionIndex ← Decoder.u16
  let messageDataOffset ← Decoder.u16
  let messageDataSize ← Decoder.u16
  let messageInstructionIndex ← Decoder.u16
  return { numSignatures, padding, signatureOffset, signatureInstructionIndex, publicKeyOffset,
           publicKeyInstructionIndex, messageDataOffset, messageDataSize,
           messageInstructionIndex }

structure Ed25519InstructionData where
  header : Ed25519InstructionHeader
  publicKey : Pubkey
  message : Message

/-- `offset` counts from the start of the instruction data, `body` is what follows the header. -/
def sliceAt (body : Bytes) (offset len : UInt16) : Except IoError Bytes :=
  if offset < Ed25519InstructionHeader.len then .error (.invalidData "offset before header")
  else
    let start := offset - Ed25519InstructionHeader.len
    okOr (slice? body start.toNat len.toNat) (.unexpectedEof "offset out of bounds")

def Ed25519InstructionData.decode [LegacyOffchain] : Decoder Ed25519InstructionData := do
  let header ← Ed25519InstructionHeader.decode
  let remaining ← Decoder.readToEnd
  let publicKeyBytes ← Decoder.lift (sliceAt remaining header.publicKeyOffset 32)
  let publicKey ← Decoder.lift (okOr (FixedBytes.ofBytes? publicKeyBytes)
    (.invalidData "public_key_bytes is 32-byte-slice"))
  let messageBytes ← Decoder.lift
    (sliceAt remaining header.messageDataOffset header.messageDataSize)
  let message ← Decoder.lift (Message.deserialize messageBytes)
  return { header, publicKey, message }

/-! ## The intent -/

inductive IntentError (ε : Type) where
  | noIntentMessageInstruction
  | incorrectInstructionProgramId
  | signatureVerificationUnexpectedHeader
  | parseFailedError (error : ε)
  | deserializeFailedError (error : IoError)
deriving DecidableEq

/-- Exactly one signature, all of whose parts are in the instruction itself. -/
def Ed25519InstructionHeader.check {ε : Type} (header : Ed25519InstructionHeader) :
    Except (IntentError ε) Unit :=
  let expectedHeader : Ed25519InstructionHeader :=
    { numSignatures := 1
      padding := 0
      signatureInstructionIndex := 0xffff
      publicKeyInstructionIndex := 0xffff
      messageInstructionIndex := 0xffff
      messageDataSize := header.messageDataSize
      signatureOffset := header.signatureOffset
      publicKeyOffset := header.publicKeyOffset
      messageDataOffset := header.messageDataOffset }
  require (header = expectedHeader) .signatureVerificationUnexpectedHeader

structure Intent (M : Type) where
  signer : Pubkey
  message : M
deriving DecidableEq

namespace Intent

variable {M ε : Type} [LegacyOffchain]

/-- The intent in the data of an ed25519 instruction; `parse` is the message type's
    `TryFrom<Vec<u8>>`. -/
def tryFromData (parse : Bytes → Except ε M) (data : Ed25519InstructionData) :
    Except (IntentError ε) (Intent M) := do
  data.header.check
  let message ← mapErr .parseFailedError (parse data.message.toVec)
  return { signer := data.publicKey, message }

def tryFrom (parse : Bytes → Except ε M) (instruction : Instruction) :
    Except (IntentError ε) (Intent M) :=
  if instruction.programId = Ids.ed25519Program then do
    let data ← mapErr .deserializeFailedError
      (Ed25519InstructionData.decode.tryFromSlice instruction.data)
    tryFromData parse data
  else .error .incorrectInstructionProgramId

/-- The intent in the instruction before the current one. -/
def load (parse : Bytes → Except ε M) (instructions : List Instruction) (current : Nat) :
    Except (IntentError ε) (Intent M) := do
  let instruction ← okOr (precedingInstruction instructions current) .noIntentMessageInstruction
  tryFrom parse instruction

end Intent

end FogoSessions.Intents
