import FogoSessions.Intents.Intent
import FogoSessions.Paymaster.Templates

/-!
# The intent template and the header check

The paymaster checks an ed25519 instruction by five constraints on its bytes, the programs by reading
its header. `intentTemplate_iff_check` says that they accept the same data.
-/

namespace FogoSessions.Paymaster

open Lib Solana Intents

/-! ## The header as bytes -/

/-- The bytes of a header. -/
def headerBytes (header : Ed25519InstructionHeader) : Bytes :=
  [header.numSignatures, header.padding] ++ leBytes 2 header.signatureOffset.toNat ++
    leBytes 2 header.signatureInstructionIndex.toNat ++ leBytes 2 header.publicKeyOffset.toNat ++
    leBytes 2 header.publicKeyInstructionIndex.toNat ++ leBytes 2 header.messageDataOffset.toNat ++
    leBytes 2 header.messageDataSize.toNat ++ leBytes 2 header.messageInstructionIndex.toNat

theorem header_decode_exact : Decoder.Exact Ed25519InstructionHeader.decode headerBytes := by
  intro bs header rest
  simp only [Ed25519InstructionHeader.decode, Decoder.bind_eq_ok, Decoder.u8_eq_ok,
    Decoder.u16_eq_ok, Decoder.pure_apply]
  constructor
  · rintro ⟨_, _, rfl, _, _, rfl, _, _, rfl, _, _, rfl, _, _, rfl, _, _, rfl, _, _, rfl, _, _, rfl,
      _, _, rfl, ⟨⟩⟩
    simp [headerBytes]
  · rintro rfl
    exact ⟨_, _, rfl, _, _, rfl, _, _, by simp, _, _, rfl, _, _, rfl, _, _, rfl, _, _, rfl,
      _, _, rfl, _, _, rfl, rfl⟩

/-- Any 16 bytes are a header. -/
theorem reads_header : Decoder.Reads 16 Ed25519InstructionHeader.decode :=
  have u8 := Decoder.reads_u8
  have u16 := Decoder.reads_u16
  u8.bind fun _ => u8.bind fun _ => u16.bind fun _ => u16.bind fun _ => u16.bind fun _ =>
    u16.bind fun _ => u16.bind fun _ => u16.bind fun _ => u16.bind fun _ => Decoder.reads_pure _

/-- The header check fixes five of the nine fields. -/
theorem header_check_eq_ok {ε : Type} {header : Ed25519InstructionHeader} :
    (header.check : Except (IntentError ε) Unit) = .ok ⟨⟩ ↔
      header.numSignatures = 1 ∧ header.padding = 0 ∧ header.signatureInstructionIndex = 0xffff ∧
        header.publicKeyInstructionIndex = 0xffff ∧ header.messageInstructionIndex = 0xffff := by
  unfold Ed25519InstructionHeader.check
  rw [require_eq_ok]
  cases header
  simp only [Ed25519InstructionHeader.mk.injEq]
  tauto

/-! ## The constraints on single integers -/

section

variable [External]

theorem byteIs_checkData {k : UInt16} {v : UInt8} {ix : InstructionWithIndex} :
    (byteIs k v).checkData ix = .ok ⟨⟩ ↔ slice? ix.instruction.data k.toNat 1 = some [v] := by
  rw [ParsedDataConstraint.checkData_eq_ok]
  change (∃ bytes, slice? _ k.toNat 1 = some bytes ∧ _) ↔ _
  constructor
  · rintro ⟨bytes, hslice, hcheck⟩
    obtain ⟨byte, rfl⟩ := List.length_eq_one_iff.1 (slice?_length hslice)
    simp only [byteIs, ParsedDataConstraintSpecification.checkBytes, bind_eq_ok, okOr_eq_ok,
      pure_eq_ok] at hcheck
    obtain ⟨_, hhead, hcheck⟩ := hcheck
    cases hhead
    rw [hslice, List.mem_singleton.1 (checkEqualTo_eq_ok.1 hcheck)]
  · intro hslice
    refine ⟨[v], hslice, bind_eq_ok.2 ⟨v, rfl, pure_eq_ok.2 ?_⟩⟩
    exact checkEqualTo_eq_ok.2 (List.mem_singleton.2 rfl)

theorem shortIs_checkData {k v : UInt16} {ix : InstructionWithIndex} :
    (shortIs k v).checkData ix = .ok ⟨⟩ ↔
      slice? ix.instruction.data k.toNat 2 = some (leBytes 2 v.toNat) := by
  rw [ParsedDataConstraint.checkData_eq_ok]
  change (∃ bytes, slice? _ k.toNat 2 = some bytes ∧ _) ↔ _
  constructor
  · rintro ⟨bytes, hslice, hcheck⟩
    simp only [shortIs, ParsedDataConstraintSpecification.checkBytes, bind_eq_ok, exactly_eq_ok,
      pure_eq_ok] at hcheck
    obtain ⟨value, rfl, hcheck⟩ := hcheck
    have hvalue := List.mem_singleton.1 (checkEqualTo_eq_ok.1 hcheck)
    have hlt : leNat value.bytes < 65536 := by
      have := leNat_lt value.bytes
      rwa [value.length_eq] at this
    have hback : leBytes 2 (leNat value.bytes) = value.bytes := by
      have := leBytes_leNat value.bytes
      rwa [value.length_eq] at this
    rw [hslice, ← hvalue, UInt16.toNat_ofNat_of_lt' hlt, hback]
  · intro hslice
    refine ⟨_, hslice, bind_eq_ok.2 ⟨⟨_, length_leBytes 2 _⟩, exactly_eq_ok.2 rfl, ?_⟩⟩
    refine pure_eq_ok.2 (checkEqualTo_eq_ok.2 (List.mem_singleton.2 ?_))
    simp [leNat_leBytes]

end

/-! ## Both checks -/

theorem leBytes_short_inj {a b : UInt16} : leBytes 2 a.toNat = leBytes 2 b.toNat ↔ a = b := by
  constructor
  · intro h
    have hnat := congrArg leNat h
    rw [leNat_leBytes, leNat_leBytes] at hnat
    have ha : a.toNat < 65536 := a.toNat_lt
    have hb : b.toNat < 65536 := b.toNat_lt
    apply UInt16.toNat_inj.1
    omega
  · rintro rfl
    rfl

/-- The fields of a header, where the template looks for them. -/
theorem slice?_headerBytes (header : Ed25519InstructionHeader) (rest : Bytes) :
    slice? (headerBytes header ++ rest) 0 1 = some [header.numSignatures] ∧
      slice? (headerBytes header ++ rest) 1 1 = some [header.padding] ∧
      slice? (headerBytes header ++ rest) 4 2 =
        some (leBytes 2 header.signatureInstructionIndex.toNat) ∧
      slice? (headerBytes header ++ rest) 8 2 =
        some (leBytes 2 header.publicKeyInstructionIndex.toNat) ∧
      slice? (headerBytes header ++ rest) 14 2 =
        some (leBytes 2 header.messageInstructionIndex.toNat) := by
  simp [slice?, headerBytes, leBytes]

section

variable [External] {ix : InstructionWithIndex}

open ParsedInstructionConstraint

/-- On data that starts with a header, the template is the header check. -/
theorem intentTemplate_of_header {ε : Type} {header : Ed25519InstructionHeader} {rest : Bytes}
    (hdata : ix.instruction.data = headerBytes header ++ rest) :
    (∀ c ∈ intentInstructionConstraint.data, c.checkData ix = .ok ⟨⟩) ↔
      (header.check : Except (IntentError ε) Unit) = .ok ⟨⟩ := by
  obtain ⟨h0, h1, h4, h8, h14⟩ := slice?_headerBytes header rest
  rw [header_check_eq_ok]
  simp only [intentInstructionConstraint, List.forall_mem_cons, byteIs_checkData, shortIs_checkData,
    hdata]
  change slice? _ 0 1 = _ ∧ slice? _ 1 1 = _ ∧ slice? _ 4 2 = _ ∧ slice? _ 8 2 = _ ∧
    slice? _ 14 2 = _ ∧ _ ↔ _
  rw [h0, h1, h4, h8, h14]
  simp only [Option.some.injEq, List.cons.injEq, and_true, leBytes_short_inj]
  exact ⟨fun h => ⟨h.1, h.2.1, h.2.2.1, h.2.2.2.1, h.2.2.2.2.1⟩,
    fun h => ⟨h.1, h.2.1, h.2.2.1, h.2.2.2.1, h.2.2.2.2, List.forall_mem_nil _⟩⟩

/-- The template needs 16 bytes. -/
theorem le_length_of_intentTemplate
    (h : ∀ c ∈ intentInstructionConstraint.data, c.checkData ix = .ok ⟨⟩) :
    16 ≤ ix.instruction.data.length := by
  have hlast := shortIs_checkData.1 (h (shortIs 14 0xffff) (by simp [intentInstructionConstraint]))
  obtain ⟨pre, post, hsplit, hpre, hlen⟩ := slice?_eq_some.1 hlast
  have hpre : pre.length = 14 := hpre
  rw [hsplit, List.length_append, List.length_append, hpre, hlen]
  omega

/-- **The template and the header check agree**: the data of an ed25519 instruction satisfies the
    five constraints exactly when its first 16 bytes are a header that the programs accept. -/
theorem intentTemplate_iff_check (ε : Type) (ix : InstructionWithIndex) :
    (∀ c ∈ intentInstructionConstraint.data, c.checkData ix = .ok ⟨⟩) ↔
      ∃ header,
        Ed25519InstructionHeader.decode.tryFromSlice (ix.instruction.data.take 16) = .ok header ∧
          (header.check : Except (IntentError ε) Unit) = .ok ⟨⟩ := by
  have hread {header : Ed25519InstructionHeader} :
      Ed25519InstructionHeader.decode.tryFromSlice (ix.instruction.data.take 16) = .ok header ↔
        ix.instruction.data.take 16 = headerBytes header := by
    rw [Decoder.tryFromSlice_eq_ok, header_decode_exact, List.append_nil]
  have hsplit {header : Ed25519InstructionHeader}
      (h : ix.instruction.data.take 16 = headerBytes header) :
      ix.instruction.data = headerBytes header ++ ix.instruction.data.drop 16 := by
    rw [← h, List.take_append_drop]
  constructor
  · intro htemplate
    have hlen := le_length_of_intentTemplate htemplate
    obtain ⟨header, hdecode⟩ := reads_header (ix.instruction.data.take 16) [] (by simpa using hlen)
    have hbytes : ix.instruction.data.take 16 = headerBytes header := by
      have h := header_decode_exact.1 hdecode
      rwa [List.append_nil, List.append_nil] at h
    exact ⟨header, hread.2 hbytes, (intentTemplate_of_header (hsplit hbytes)).1 htemplate⟩
  · rintro ⟨header, hheader, hcheck⟩
    exact (intentTemplate_of_header (hsplit (hread.1 hheader))).2 hcheck

end

end FogoSessions.Paymaster
