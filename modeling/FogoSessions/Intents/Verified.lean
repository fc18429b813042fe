import FogoSessions.Intents.Intent

/-!
# The intent is the pair the native program verified

The decoder rebases the offsets of the instruction data on what follows the 16-byte header, the
native ed25519 program reads by the same offsets from the start. `sliceAt_rebased` says that both
read the same bytes, `tryFrom_sound` that a decoded intent is the (public key, message) pair of the
one signature the data declares.
-/

namespace FogoSessions.Intents

open Lib Solana

theorem headerLen_toNat : Ed25519InstructionHeader.len.toNat = 16 := rfl

theorem sliceAt_eq_ok {body bs : Bytes} {offset len : UInt16} :
    sliceAt body offset len = .ok bs ↔
      16 ≤ offset.toNat ∧ slice? body (offset.toNat - 16) len.toNat = some bs := by
  have hlen := headerLen_toNat
  unfold sliceAt
  split
  · rename_i hlt
    have h16 : offset.toNat < 16 := by simpa [UInt16.lt_iff_toNat_lt, hlen] using hlt
    simp only [reduceCtorEq, false_iff, not_and]
    omega
  · rename_i hge
    have hle : Ed25519InstructionHeader.len ≤ offset := UInt16.not_lt.1 hge
    have h16 : 16 ≤ offset.toNat := by simpa [UInt16.le_iff_toNat_le, hlen] using hle
    rw [okOr_eq_ok, UInt16.toNat_sub_of_le _ _ hle, hlen]
    simp [h16]

/-- Reading at an offset from the start of the data, after the header, is what `sliceAt` does: it
    returns those bytes when they all lie inside the data, and an error otherwise. -/
theorem sliceAt_rebased {header body bs : Bytes} {offset len : UInt16} (h : header.length = 16) :
    sliceAt body offset len = .ok bs ↔
      16 ≤ offset.toNat ∧ slice? (header ++ body) offset.toNat len.toNat = some bs := by
  rw [sliceAt_eq_ok]
  refine and_congr_right fun h16 => ?_
  rw [← slice?_append header, h, Nat.add_sub_cancel' h16]

/-! ## The header -/

open Ed25519Program (SignatureOffsets Declares readOffsets)

/-- The header of the native program's first signature. -/
def Ed25519InstructionHeader.offsets (header : Ed25519InstructionHeader) : SignatureOffsets where
  signatureOffset := header.signatureOffset
  signatureInstructionIndex := header.signatureInstructionIndex
  publicKeyOffset := header.publicKeyOffset
  publicKeyInstructionIndex := header.publicKeyInstructionIndex
  messageDataOffset := header.messageDataOffset
  messageDataSize := header.messageDataSize
  messageInstructionIndex := header.messageInstructionIndex

/-- The header is the count, the padding and the native program's offsets of one signature. -/
theorem header_decode_offsets {data body : Bytes} {header : Ed25519InstructionHeader}
    (h : Ed25519InstructionHeader.decode data = .ok (header, body)) :
    ∃ rest, data = header.numSignatures :: header.padding :: rest ∧
      SignatureOffsets.decode rest = .ok (header.offsets, body) := by
  simp only [Ed25519InstructionHeader.decode, Decoder.bind_eq_ok, Decoder.u8_eq_ok] at h
  obtain ⟨_, _, rfl, _, rest, rfl, h⟩ := h
  refine ⟨rest, ?_, ?_⟩
  · obtain ⟨_, _, -, _, _, -, _, _, -, _, _, -, _, _, -, _, _, -, _, _, -, h⟩ := h
    cases h
    rfl
  · simp only [SignatureOffsets.decode, Decoder.bind_eq_ok]
    obtain ⟨_, _, h₁, _, _, h₂, _, _, h₃, _, _, h₄, _, _, h₅, _, _, h₆, _, _, h₇, h⟩ := h
    cases h
    exact ⟨_, _, h₁, _, _, h₂, _, _, h₃, _, _, h₄, _, _, h₅, _, _, h₆, _, _, h₇, rfl⟩

theorem header_decode {data body : Bytes} {header : Ed25519InstructionHeader}
    (h : Ed25519InstructionHeader.decode data = .ok (header, body)) :
    data.head? = some header.numSignatures ∧ readOffsets data 0 = .ok header.offsets ∧
      ∃ pre, data = pre ++ body ∧ pre.length = 16 := by
  obtain ⟨rest, rfl, hoffsets⟩ := header_decode_offsets h
  refine ⟨rfl, ?_, ?_⟩
  · simp [readOffsets, hoffsets]
  · obtain ⟨pre, rfl, hlen⟩ := Ed25519Program.consumes_offsets hoffsets
    exact ⟨_ :: _ :: pre, rfl, by simp [hlen]⟩

theorem check_eq_ok {ε : Type} {header : Ed25519InstructionHeader}
    (h : header.check (ε := ε) = .ok ⟨⟩) :
    header.numSignatures = 1 ∧ header.signatureInstructionIndex = 0xffff ∧
      header.publicKeyInstructionIndex = 0xffff ∧ header.messageInstructionIndex = 0xffff := by
  have heq := require_eq_ok.1 h
  rw [heq]
  exact ⟨rfl, rfl, rfl, rfl⟩

/-! ## The intent -/

section

variable {M ε : Type} [LegacyOffchain]

/-- What decoding the instruction data reads: the header, and the key and the message at its
    offsets. -/
theorem instructionData_decode {bs : Bytes} {data : Ed25519InstructionData}
    (h : Ed25519InstructionData.decode.tryFromSlice bs = .ok data) :
    ∃ body message, Ed25519InstructionHeader.decode bs = .ok (data.header, body) ∧
      sliceAt body data.header.publicKeyOffset 32 = .ok data.publicKey.bytes ∧
      sliceAt body data.header.messageDataOffset data.header.messageDataSize = .ok message ∧
      Message.deserialize message = .ok data.message := by
  have hdec := Decoder.tryFromSlice_eq_ok.1 h
  simp only [Ed25519InstructionData.decode, Decoder.bind_eq_ok, Decoder.lift_eq_ok] at hdec
  obtain ⟨header, body, hheader, _, _, ⟨⟩, keyBytes, _, ⟨hkey, rfl⟩, key, _, ⟨hkey', rfl⟩,
    message, _, ⟨hmessage, rfl⟩, m, _, ⟨hm, rfl⟩, ⟨⟩⟩ := hdec
  have hbytes : key.bytes = keyBytes := FixedBytes.ofBytes?_eq_some.1 (okOr_eq_ok.1 hkey')
  exact ⟨body, message, hheader, hbytes ▸ hkey, hmessage, hm⟩

theorem tryFrom_declares {parse : Bytes → Except ε M} {instruction : Instruction}
    {intent : Intent M} (h : Intent.tryFrom parse instruction = .ok intent) :
    instruction.programId = Ids.ed25519Program ∧
    ∃ offsets message m, Declares instruction.data offsets intent.signer message ∧
      Message.deserialize message = .ok m ∧ parse m.toVec = .ok intent.message := by
  unfold Intent.tryFrom at h
  split at h
  · rename_i hid
    refine ⟨hid, ?_⟩
    simp only [bind_eq_ok, mapErr_eq_ok, Intent.tryFromData, pure_eq_ok] at h
    obtain ⟨data, hdata, _, hcheck, m, hparse, rfl⟩ := h
    obtain ⟨body, message, hheader, hkey, hmessage, hm⟩ := instructionData_decode hdata
    obtain ⟨hsingle, hoffsets, pre, hpre, hlen⟩ := header_decode hheader
    obtain ⟨hone, hsig, hpk, hmsg⟩ := check_eq_ok hcheck
    refine ⟨data.header.offsets, message, data.message, ?_, hm, hparse⟩
    exact
      { single := hone ▸ hsingle
        offsets_eq := hoffsets
        signature_here := hsig
        publicKey_here := hpk
        message_here := hmsg
        publicKey_eq := hpre ▸ ((sliceAt_rebased hlen).1 hkey).2
        message_eq := hpre ▸ ((sliceAt_rebased hlen).1 hmessage).2 }
  · cases h

/-- **A decoded intent is the pair the native program verified.** When an intent is read from an
    ed25519 instruction, the instruction's data declares one signature of the intent's signer over
    exactly the bytes its message was decoded from, and that signature is what the native program
    verifies. Reading at any offset never leaves the data. -/
theorem tryFrom_sound [Ed25519] (parse : Bytes → Except ε M) (instruction : Instruction) :
    (∀ intent, Intent.tryFrom parse instruction = .ok intent →
      ∃ offsets message m, Declares instruction.data offsets intent.signer message ∧
        Message.deserialize message = .ok m ∧ parse m.toVec = .ok intent.message ∧
        ∀ instructionDatas, Ed25519Program.verify instruction.data instructionDatas = .ok ⟨⟩ ↔
          ∃ signature : FixedBytes 64,
            slice? instruction.data offsets.signatureOffset.toNat 64 = some signature.bytes ∧
            Ed25519.verifyStrict intent.signer message signature = true) ∧
    ∀ header body, instruction.data = header ++ body → header.length = 16 →
      ∀ (offset len : UInt16) (bs : Bytes), sliceAt body offset len = .ok bs ↔
        16 ≤ offset.toNat ∧ slice? instruction.data offset.toNat len.toNat = some bs := by
  constructor
  · intro intent h
    obtain ⟨-, offsets, message, m, hdeclares, hm, hparse⟩ := tryFrom_declares h
    exact ⟨offsets, message, m, hdeclares, hm, hparse, hdeclares.verify_iff⟩
  · intro header body hdata hlen offset len bs
    rw [hdata]
    exact sliceAt_rebased hlen

end

def helloSigner : Pubkey := .ofNat
  0x1d1ee073c556f944ae6a2e429ef1ee64f4dc684b48ea6d40f18a20111a07da44

/-- An ed25519 instruction in the usual layout, header, key, signature and message `hello`. -/
def helloInstruction : Instruction where
  programId := Ids.ed25519Program
  accounts := []
  data := [1, 0, 48, 0, 0xff, 0xff, 16, 0, 0xff, 0xff, 112, 0, 5, 0, 0xff, 0xff]
    ++ helloSigner.bytes ++ List.replicate 64 42 ++ utf8 "hello"

theorem tryFrom_sound_hello :
    letI : LegacyOffchain := ⟨fun _ => none⟩
    letI : Ed25519 := ⟨fun _ _ _ => false⟩
    ∃ offsets message m,
      Declares helloInstruction.data offsets helloSigner message ∧
      Message.deserialize message = .ok m ∧ okOr (ofUtf8? m.toVec) () = .ok "hello" ∧
      ∀ instructionDatas, Ed25519Program.verify helloInstruction.data instructionDatas = .ok ⟨⟩ ↔
        ∃ signature : FixedBytes 64,
          slice? helloInstruction.data offsets.signatureOffset.toNat 64 = some signature.bytes ∧
          Ed25519.verifyStrict helloSigner message signature = true :=
  letI : LegacyOffchain := ⟨fun _ => none⟩
  letI : Ed25519 := ⟨fun _ _ _ => false⟩
  (tryFrom_sound (fun bs => okOr (ofUtf8? bs) ()) helloInstruction).1
    ⟨helloSigner, "hello"⟩ (by decide +kernel)

end FogoSessions.Intents
