import FogoSessions.Intents.OffchainWire
import FogoSessions.Intents.Verified
import FogoSessions.Paymaster.IntentTemplate

/-!
# The ed25519 instruction of a signed off-chain message

`sessions-sdk-ts/src/index.ts`: when the wallet signed an off-chain message that lists its own key,
the instruction does not repeat the key but points at it inside the message.
-/

namespace FogoSessions.SdkTs

open Lib Solana Intents

/-- What the wallet-message decoder of `@solana/kit` says of a message; keys are texts there. -/
structure DecodedOffchainMessage where
  version : Nat
  requiredSignatories : List String
deriving DecidableEq

/-- `getOffchainMessageDecoder().decode`, which throws on what it does not accept. -/
class OffchainMessageDecoder where
  decode : Bytes → Option DecodedOffchainMessage

def ed25519HeaderLen : Nat := 16
def ed25519PublicKeyLen : Nat := 32
def ed25519SignatureLen : Nat := 64
def ed25519CurrentInstructionIndex : Nat := 0xffff

/-- The buffer is written field by field, in this order and without gaps; `setUint16` keeps the low
    two bytes. -/
def ed25519InstructionData (signature message : Bytes) (publicKeyOffsetInMessage : Nat) : Bytes :=
  let signatureOffset := ed25519HeaderLen
  let messageDataOffset := signatureOffset + signature.length
  let publicKeyOffsetInInstruction := messageDataOffset + publicKeyOffsetInMessage
  [1, 0] ++ leBytes 2 signatureOffset ++ leBytes 2 ed25519CurrentInstructionIndex ++
    leBytes 2 publicKeyOffsetInInstruction ++ leBytes 2 ed25519CurrentInstructionIndex ++
    leBytes 2 messageDataOffset ++ leBytes 2 message.length ++
    leBytes 2 ed25519CurrentInstructionIndex ++ signature ++ message

/-- Refuses by throwing an error with a text. -/
def buildEd25519InstructionWithOffsets (signature message : Bytes)
    (publicKeyOffsetInMessage : Nat) : Except String Instruction := do
  require (signature.length = ed25519SignatureLen)
    (s!"Signature must be {ed25519SignatureLen} bytes but received {signature.length} bytes")
  require (publicKeyOffsetInMessage + ed25519PublicKeyLen ≤ message.length)
    "Public key offset is out of bounds of signed message"
  return { programId := Ids.ed25519Program, accounts := []
           data := ed25519InstructionData signature message publicKeyOffsetInMessage }

def offchainSigningDomainLen : Nat := 16
def offchainV0SignerListOffset : Nat := offchainSigningDomainLen + 1 + 32 + 1 + 1
def offchainV1SignerListOffset : Nat := offchainSigningDomainLen + 1 + 1

def getOffchainMessagePublicKeyOffset [OffchainMessageDecoder] (signedMessage : Bytes)
    (publicKey : Pubkey) : Option Nat := do
  let address := publicKey.toString
  let message ← OffchainMessageDecoder.decode signedMessage
  let index ← message.requiredSignatories.findIdx? fun signer => signer == address
  let baseOffset :=
    if message.version = 1 then offchainV1SignerListOffset else offchainV0SignerListOffset
  return baseOffset + index * ed25519PublicKeyLen

/-! ## The data is read back -/

theorem getOffchainMessagePublicKeyOffset_signer [OffchainMessageDecoder] {signedMessage : Bytes}
    {message : OffchainMessage} {wallet : Pubkey}
    (haccept : OffchainMessage.tryFrom signedMessage = .ok message)
    (hdecode : OffchainMessageDecoder.decode signedMessage =
      some ⟨message.version, message.signers.map Pubkey.toString⟩)
    (hwallet : wallet ∈ message.signers) :
    ∃ offset, getOffchainMessagePublicKeyOffset signedMessage wallet = some offset ∧
      slice? signedMessage offset 32 = some wallet.bytes := by
  have hsome : ((message.signers.map Pubkey.toString).findIdx?
      fun signer => signer == wallet.toString).isSome := by
    rw [List.findIdx?_isSome, List.any_map, List.any_eq_true]
    exact ⟨wallet, hwallet, by simp⟩
  obtain ⟨index, hindex⟩ := Option.isSome_iff_exists.1 hsome
  obtain ⟨hlt, htext, -⟩ := List.findIdx?_eq_some_iff_getElem.1 hindex
  have hlt' : index < message.signers.length := by simpa using hlt
  have hkey : message.signers[index] = wallet :=
    Pubkey.toString_injective (by simpa using htext)
  have hget : message.signers[index]? = some wallet := by
    rw [List.getElem?_eq_getElem hlt', hkey]
  refine ⟨_, ?_, OffchainMessage.slice?_signer haccept hget⟩
  simp only [getOffchainMessagePublicKeyOffset, hdecode, Option.bind_eq_bind, Option.bind_some,
    hindex, Option.pure_def, Option.some.injEq, ed25519PublicKeyLen]
  rw [Nat.mul_comm index]
  congr 1
  cases message <;> rfl

theorem u16_leBytes (n : Nat) (rest : Bytes) :
    Decoder.u16 (leBytes 2 n ++ rest) = .ok (UInt16.ofNat n, rest) := by
  refine Decoder.u16_eq_ok.2 (congrArg (· ++ rest) ?_)
  have hn : (UInt16.ofNat n).toNat = n % 256 ^ 2 := by simp
  rw [hn, ← leNat_leBytes 2 n]
  have hback := leBytes_leNat (leBytes 2 n)
  rw [length_leBytes] at hback
  exact hback.symm

/-- The header that the buffer starts with. -/
def ed25519Header (signatureLen messageLen publicKeyOffsetInMessage : Nat) :
    Ed25519InstructionHeader where
  numSignatures := 1
  padding := 0
  signatureOffset := UInt16.ofNat ed25519HeaderLen
  signatureInstructionIndex := 0xffff
  publicKeyOffset := UInt16.ofNat (ed25519HeaderLen + signatureLen + publicKeyOffsetInMessage)
  publicKeyInstructionIndex := 0xffff
  messageDataOffset := UInt16.ofNat (ed25519HeaderLen + signatureLen)
  messageDataSize := UInt16.ofNat messageLen
  messageInstructionIndex := 0xffff

theorem header_decode_data (signature message : Bytes) (offset : Nat) :
    Ed25519InstructionHeader.decode (ed25519InstructionData signature message offset) =
      .ok (ed25519Header signature.length message.length offset, signature ++ message) := by
  have hu8 (b : UInt8) (rest : Bytes) : Decoder.u8 (b :: rest) = .ok (b, rest) :=
    Decoder.u8_eq_ok.2 rfl
  simp only [Ed25519InstructionHeader.decode, ed25519InstructionData, List.append_assoc,
    List.cons_append, List.nil_append]
  simp only [Decoder.bind_apply, hu8, u16_leBytes]
  rfl

section

variable {signature message : Bytes} {offset : Nat}

/-- What follows the header is read at offsets that count the header. -/
theorem sliceAt_data {a : Bytes} {start len : Nat}
    (hfits : ed25519HeaderLen + start < 65536) (hlen : len < 65536)
    (h : slice? (signature ++ message) start len = some a) :
    sliceAt (signature ++ message) (UInt16.ofNat (ed25519HeaderLen + start)) (UInt16.ofNat len) =
      .ok a := by
  have hstart : (UInt16.ofNat (ed25519HeaderLen + start)).toNat = ed25519HeaderLen + start := by
    simpa using hfits
  have hl : (UInt16.ofNat len).toNat = len := by simpa using hlen
  refine sliceAt_eq_ok.2 ⟨?_, ?_⟩
  · rw [hstart]
    exact Nat.le_add_right _ _
  · have hrebased : ed25519HeaderLen + start - 16 = start := Nat.add_sub_cancel_left 16 start
    rw [hstart, hl, hrebased]
    exact h

theorem instructionData_decode_data [LegacyOffchain] {key : Pubkey} {m : Message}
    (hsignature : signature.length = ed25519SignatureLen)
    (hfits : ed25519HeaderLen + ed25519SignatureLen + message.length < 65536)
    (hkey : slice? message offset 32 = some key.bytes) (hm : Message.deserialize message = .ok m) :
    Ed25519InstructionData.decode.tryFromSlice (ed25519InstructionData signature message offset) =
      .ok { header := ed25519Header signature.length message.length offset
            publicKey := key, message := m } := by
  obtain ⟨pre, post, hsplit, hpre, hlen⟩ := slice?_eq_some.1 hkey
  have hbound : offset + 32 ≤ message.length := by
    rw [hsplit, List.length_append, List.length_append, hpre, hlen]
    omega
  simp only [ed25519HeaderLen, ed25519SignatureLen] at hfits hsignature
  have hkeyAt : sliceAt (signature ++ message)
      (ed25519Header signature.length message.length offset).publicKeyOffset 32 = .ok key.bytes := by
    have hslice : slice? (signature ++ message) (signature.length + offset) 32 = some key.bytes := by
      rw [slice?_append]
      exact hkey
    simpa [ed25519Header, Nat.add_assoc] using
      sliceAt_data (by simp only [ed25519HeaderLen]; omega) (by decide) hslice
  have hmessageAt : sliceAt (signature ++ message)
      (ed25519Header signature.length message.length offset).messageDataOffset
      (ed25519Header signature.length message.length offset).messageDataSize = .ok message := by
    have hslice : slice? (signature ++ message) signature.length message.length = some message :=
      slice?_eq_some.2 ⟨signature, [], by simp, rfl, rfl⟩
    exact sliceAt_data (by simp only [ed25519HeaderLen]; omega) (by omega) hslice
  refine Decoder.tryFromSlice_eq_ok.2 ?_
  simp only [Ed25519InstructionData.decode, Decoder.bind_eq_ok, Decoder.lift_eq_ok]
  exact ⟨_, _, header_decode_data signature message offset, _, _, rfl, key.bytes, [], ⟨hkeyAt, rfl⟩,
    key, [], ⟨by rw [FixedBytes.ofBytes?_bytes]; rfl, rfl⟩, message, [], ⟨hmessageAt, rfl⟩, m, [],
    ⟨hm, rfl⟩, rfl⟩

end

/-! ## The paymaster's template -/

section

open Paymaster ParsedInstructionConstraint

variable [External]

/-- The template constrains nothing but the fixed fields of the header. -/
theorem intentInstruction_validate {transaction : TransactionToValidate}
    {ix : InstructionWithIndex} {contextualDomainKeys : ContextualDomainKeys}
    {variationName : String} {signature message : Bytes} {offset : Nat}
    (hprogram : ix.instruction.programId transaction.message.staticAccountKeys =
      (.ok Ids.ed25519Program : Outcome ErrorReply Pubkey))
    (hdata : ix.instruction.data = ed25519InstructionData signature message offset) :
    intentInstructionConstraint.validateInstruction transaction ix contextualDomainKeys
      variationName = pure ⟨⟩ := by
  have hslice (pre a post : Bytes) {k : UInt16} (hk : pre.length = k.toNat)
      (h : ed25519InstructionData signature message offset = pre ++ a ++ post) :
      slice? ix.instruction.data k.toNat a.length = some a :=
    slice?_eq_some.2 ⟨pre, post, hdata.trans h, hk, rfl⟩
  have hshort (pre post : Bytes) {k : UInt16} (hk : pre.length = k.toNat)
      (h : ed25519InstructionData signature message offset =
        pre ++ leBytes 2 ed25519CurrentInstructionIndex ++ post) :
      (shortIs k 0xffff).checkData ix = .ok ⟨⟩ :=
    shortIs_checkData.2 (hslice pre _ post hk h)
  have hchecks : ∀ c ∈ intentInstructionConstraint.data, c.checkData ix = .ok ⟨⟩ := by
    simp only [intentInstructionConstraint, List.mem_cons, List.not_mem_nil, or_false]
    rintro c (rfl | rfl | rfl | rfl | rfl)
    · exact byteIs_checkData.2 (hslice [] [1] _ rfl rfl)
    · exact byteIs_checkData.2 (hslice [1] [0] _ rfl rfl)
    · exact hshort ([1, 0] ++ leBytes 2 ed25519HeaderLen) _ rfl rfl
    · exact hshort ([1, 0] ++ leBytes 2 ed25519HeaderLen ++
        leBytes 2 ed25519CurrentInstructionIndex ++
        leBytes 2 (ed25519HeaderLen + signature.length + offset)) _ rfl rfl
    · exact hshort ([1, 0] ++ leBytes 2 ed25519HeaderLen ++
        leBytes 2 ed25519CurrentInstructionIndex ++
        leBytes 2 (ed25519HeaderLen + signature.length + offset) ++
        leBytes 2 ed25519CurrentInstructionIndex ++
        leBytes 2 (ed25519HeaderLen + signature.length) ++ leBytes 2 message.length) _ rfl rfl
  have hall : (intentInstructionConstraint.data.forM fun dataConstraint =>
      mapFault badRequest (dataConstraint.checkData ix)) = .ok ⟨⟩ := by
    refine forM_eq_ok.2 fun c hc => ?_
    rw [hchecks c hc]
    rfl
  unfold validateInstruction
  rw [hprogram, hall]
  rfl

end

/-- **The instruction says what the wallet signed**: its data passes the header check, and decodes
    to the wallet's key and the message, in the intent decoder and in the paymaster's template. -/
theorem buildEd25519Instruction_readBack [LegacyOffchain] [OffchainMessageDecoder]
    [Paymaster.External] {signedMessage : Bytes} {message : OffchainMessage} {wallet : Pubkey}
    (haccept : OffchainMessage.tryFrom signedMessage = .ok message)
    (hdecode : OffchainMessageDecoder.decode signedMessage =
      some ⟨message.version, message.signers.map Pubkey.toString⟩)
    (hwallet : wallet ∈ message.signers) (hlen : 16 + 64 + signedMessage.length ≤ 65535)
    (signature : FixedBytes 64) :
    ∃ offset instruction, getOffchainMessagePublicKeyOffset signedMessage wallet = some offset ∧
      buildEd25519InstructionWithOffsets signature.bytes signedMessage offset = .ok instruction ∧
      instruction.programId = Ids.ed25519Program ∧
      (∃ data, Ed25519InstructionData.decode.tryFromSlice instruction.data = .ok data ∧
        (∀ ε, data.header.check (ε := ε) = .ok ⟨⟩) ∧ data.publicKey = wallet ∧
        data.message = .offchain message ∧ data.message.toVec = utf8 message.getMessage) ∧
      ∀ (transaction : Paymaster.TransactionToValidate) (ix : Paymaster.InstructionWithIndex)
        (contextualDomainKeys : Paymaster.ContextualDomainKeys) (variationName : String),
        ix.instruction.programId transaction.message.staticAccountKeys =
          (.ok instruction.programId : Outcome Paymaster.ErrorReply Pubkey) →
        ix.instruction.data = instruction.data →
        Paymaster.ParsedInstructionConstraint.intentInstructionConstraint.validateInstruction
          transaction ix contextualDomainKeys variationName = pure ⟨⟩ := by
  obtain ⟨offset, hoffset, hkey⟩ :=
    getOffchainMessagePublicKeyOffset_signer haccept hdecode hwallet
  have hbound : offset + 32 ≤ signedMessage.length := by
    obtain ⟨pre, post, rfl, rfl, hkeyLen⟩ := slice?_eq_some.1 hkey
    simp only [List.length_append, hkeyLen]
    omega
  have hmessage : Message.deserialize signedMessage = .ok (.offchain message) := by
    simp only [Message.deserialize, haccept]
  have hbuild : buildEd25519InstructionWithOffsets signature.bytes signedMessage offset =
      .ok { programId := Ids.ed25519Program, accounts := []
            data := ed25519InstructionData signature.bytes signedMessage offset } := by
    have h1 : signature.bytes.length = ed25519SignatureLen := signature.length_eq
    have h2 : offset + ed25519PublicKeyLen ≤ signedMessage.length := hbound
    simp only [buildEd25519InstructionWithOffsets, require, if_pos h1, if_pos h2]
    rfl
  have hdata := instructionData_decode_data signature.length_eq
    (by simp only [ed25519HeaderLen, ed25519SignatureLen]; omega) hkey hmessage
  refine ⟨offset, _, hoffset, hbuild, rfl, ⟨_, hdata, ?_, rfl, rfl, rfl⟩, ?_⟩
  · intro ε
    exact require_eq_ok.2 rfl
  · intro transaction ix contextualDomainKeys variationName hprogram hdata
    exact intentInstruction_validate hprogram hdata

theorem buildEd25519Instruction_readBack_v0 :
    let wallet : Pubkey := ⟨List.replicate 32 7, rfl⟩
    let signedMessage : Bytes := expectedSigningDomain ++ 0 :: List.replicate 32 0 ++
      [0, 1] ++ wallet.bytes ++ [2, 0] ++ utf8 "Hi"
    let _ : LegacyOffchain := ⟨fun _ => none⟩
    let _ : OffchainMessageDecoder := ⟨fun _ => some ⟨0, [wallet.toString]⟩⟩
    ∃ offset instruction, getOffchainMessagePublicKeyOffset signedMessage wallet = some offset ∧
      buildEd25519InstructionWithOffsets (List.replicate 64 1) signedMessage offset =
        .ok instruction ∧
      ∃ data, Ed25519InstructionData.decode.tryFromSlice instruction.data = .ok data ∧
        data.publicKey = wallet ∧ data.message.toVec = utf8 "Hi" := by
  intro wallet signedMessage _ _
  let message : OffchainMessage := .v0 ⟨.ofNat 0, [wallet], "Hi"⟩
  have haccept : OffchainMessage.tryFrom signedMessage = .ok message := by decide +kernel
  have hlen : 16 + 64 + signedMessage.length ≤ 65535 := by decide +kernel
  let _ : Paymaster.External := .uncalled
  obtain ⟨offset, instruction, hoffset, hbuild, -, ⟨data, hdata, -, hkey, -, htext⟩, -⟩ :=
    buildEd25519Instruction_readBack haccept rfl (List.mem_singleton.2 rfl) hlen
      ⟨List.replicate 64 1, rfl⟩
  exact ⟨offset, instruction, hoffset, hbuild, data, hdata, hkey, htext⟩

end FogoSessions.SdkTs
