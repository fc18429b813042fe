import FogoSessions.Lib.Borsh
import FogoSessions.Solana.Pubkey

/-!
# The native ed25519 program

The runtime's precompile: its instruction data declares signatures by offsets, each read from the
start of the data of the instruction an index names (`0xffff` names the instruction itself), and
the instruction fails unless every declared signature verifies.
-/

namespace FogoSessions.Solana

open Lib

/-- Strict ed25519 verification, as the runtime does it. -/
class Ed25519 where
  verifyStrict : Pubkey → Bytes → FixedBytes 64 → Bool

namespace Ed25519Program

structure SignatureOffsets where
  signatureOffset : UInt16
  signatureInstructionIndex : UInt16
  publicKeyOffset : UInt16
  publicKeyInstructionIndex : UInt16
  messageDataOffset : UInt16
  messageDataSize : UInt16
  messageInstructionIndex : UInt16
deriving DecidableEq

def SignatureOffsets.decode : Decoder SignatureOffsets := do
  let signatureOffset ← Decoder.u16
  let signatureInstructionIndex ← Decoder.u16
  let publicKeyOffset ← Decoder.u16
  let publicKeyInstructionIndex ← Decoder.u16
  let messageDataOffset ← Decoder.u16
  let messageDataSize ← Decoder.u16
  let messageInstructionIndex ← Decoder.u16
  return { signatureOffset, signatureInstructionIndex, publicKeyOffset,
           publicKeyInstructionIndex, messageDataOffset, messageDataSize,
           messageInstructionIndex }

inductive PrecompileError where
  | invalidInstructionDataSize
  | invalidDataOffsets
  | invalidSignature
deriving DecidableEq

/-- The bytes of an instruction of the transaction at an offset from its start. -/
def getDataSlice (data : Bytes) (instructionDatas : List Bytes) (instructionIndex : UInt16)
    (offsetStart : UInt16) (size : Nat) : Except PrecompileError Bytes := do
  let instruction ←
    if instructionIndex = 0xffff then .ok data
    else okOr instructionDatas[instructionIndex.toNat]? .invalidDataOffsets
  okOr (slice? instruction offsetStart.toNat size) .invalidDataOffsets

/-- The offsets of the `i`-th declared signature. -/
def readOffsets (data : Bytes) (i : Nat) : Except PrecompileError SignatureOffsets :=
  match SignatureOffsets.decode (data.drop (2 + 14 * i)) with
  | .ok (offsets, _) => .ok offsets
  | .error _ => .error .invalidInstructionDataSize

theorem consumes_offsets : Decoder.Consumes 14 SignatureOffsets.decode :=
  have u16 := Decoder.consumes_u16
  u16.bind fun _ => u16.bind fun _ => u16.bind fun _ => u16.bind fun _ => u16.bind fun _ =>
    u16.bind fun _ => u16.bind fun _ => Decoder.consumes_pure _

variable [Ed25519]

/-- Reads the `i`-th declared signature with its key and message, and verifies it. -/
def verifyEntry (data : Bytes) (instructionDatas : List Bytes) (i : Nat) :
    Except PrecompileError Unit := do
  let offsets ← readOffsets data i
  let signature ← getDataSlice data instructionDatas offsets.signatureInstructionIndex
    offsets.signatureOffset 64
  let publicKey ← getDataSlice data instructionDatas offsets.publicKeyInstructionIndex
    offsets.publicKeyOffset 32
  let message ← getDataSlice data instructionDatas offsets.messageInstructionIndex
    offsets.messageDataOffset offsets.messageDataSize.toNat
  let signature ← okOr (FixedBytes.ofBytes? signature) .invalidSignature
  let publicKey ← okOr (FixedBytes.ofBytes? publicKey) .invalidSignature
  require (Ed25519.verifyStrict publicKey message signature) .invalidSignature

/-- The ed25519 instruction with the given data succeeds, in a transaction whose instructions carry
    `instructionDatas`. -/
def verify (data : Bytes) (instructionDatas : List Bytes) : Except PrecompileError Unit := do
  match data with
  | numSignatures :: _ :: rest =>
    require (numSignatures = 0 → rest = []) .invalidInstructionDataSize
    require (14 * numSignatures.toNat ≤ rest.length) .invalidInstructionDataSize
    (List.range numSignatures.toNat).forM (verifyEntry data instructionDatas)
  | _ => .error .invalidInstructionDataSize

/-! ## Data that declares one signature -/

omit [Ed25519] in
theorem getDataSlice_here {data : Bytes} {instructionDatas : List Bytes} {index start : UInt16}
    {size : Nat} {bs : Bytes} (here : index = 0xffff) :
    getDataSlice data instructionDatas index start size = .ok bs ↔
      slice? data start.toNat size = some bs := by
  subst here
  exact okOr_eq_ok

/-- The data declares exactly one signature, with offsets `offsets` into the data itself, and its
    key and message are these. -/
structure Declares (data : Bytes) (offsets : SignatureOffsets) (publicKey : Pubkey)
    (message : Bytes) : Prop where
  single : data.head? = some 1
  offsets_eq : readOffsets data 0 = .ok offsets
  signature_here : offsets.signatureInstructionIndex = 0xffff
  publicKey_here : offsets.publicKeyInstructionIndex = 0xffff
  message_here : offsets.messageInstructionIndex = 0xffff
  publicKey_eq : slice? data offsets.publicKeyOffset.toNat 32 = some publicKey.bytes
  message_eq : slice? data offsets.messageDataOffset.toNat offsets.messageDataSize.toNat = some message

/-- On such data the native program verifies that pair and nothing else: it succeeds exactly when
    the signature the offsets name is one of `publicKey` over `message`. -/
theorem Declares.verify_iff {data : Bytes} {offsets : SignatureOffsets} {publicKey : Pubkey}
    {message : Bytes} (h : Declares data offsets publicKey message) (instructionDatas : List Bytes) :
    verify data instructionDatas = .ok ⟨⟩ ↔
      ∃ signature : FixedBytes 64,
        slice? data offsets.signatureOffset.toNat 64 = some signature.bytes ∧
        Ed25519.verifyStrict publicKey message signature = true := by
  have hsize : 16 ≤ data.length := by
    have ho := h.offsets_eq
    unfold readOffsets at ho
    split at ho
    · rename_i hd
      obtain ⟨pre, hpre, hlen⟩ := consumes_offsets hd
      have hl := congrArg List.length hpre
      simp only [List.length_drop, List.length_append] at hl
      omega
    · cases ho
  obtain ⟨b, rest, rfl⟩ : ∃ b rest, data = 1 :: b :: rest := by
    match data, h.single, hsize with
    | a :: b :: rest, hs, _ =>
      cases hs
      exact ⟨b, rest, rfl⟩
  have hentry : verify (1 :: b :: rest) instructionDatas = .ok ⟨⟩ ↔
      verifyEntry (1 :: b :: rest) instructionDatas 0 = .ok ⟨⟩ := by
    have hrest : 14 ≤ rest.length := by simpa using hsize
    simp only [verify, bind_eq_ok, require_eq_ok]
    constructor
    · rintro ⟨-, -, -, -, hloop⟩
      simpa [List.range_succ, bind_eq_ok] using hloop
    · intro hentry
      refine ⟨⟨⟩, by simp, ⟨⟩, by simpa using hrest, ?_⟩
      simpa [List.range_succ, bind_eq_ok] using hentry
  rw [hentry]
  simp only [verifyEntry, h.offsets_eq, bind_eq_ok, okOr_eq_ok, require_eq_ok,
    FixedBytes.ofBytes?_eq_some, Except.ok.injEq, exists_eq_left', getDataSlice_here h.signature_here,
    getDataSlice_here h.publicKey_here, getDataSlice_here h.message_here, h.publicKey_eq,
    h.message_eq, Option.some.injEq]
  constructor
  · rintro ⟨_, hsig, signature, rfl, key, hkey, hverify⟩
    exact ⟨signature, hsig, (FixedBytes.ext hkey : key = publicKey) ▸ hverify⟩
  · rintro ⟨signature, hsig, hverify⟩
    exact ⟨_, hsig, signature, rfl, publicKey, rfl, hverify⟩

end Ed25519Program

end FogoSessions.Solana
