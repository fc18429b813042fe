import FogoSessions.Intents.OffchainMessage

/-!
# What the off-chain message reader accepts

The reader of either version is inverted once: the bytes it accepts are exactly the ones `wire`
writes. Where a signer stands in a message follows from that.
-/

namespace FogoSessions.Intents

open Lib Solana

/-- A vector whose length is one byte. -/
theorem vecWithLen_u8_eq_ok {α : Type} {elem : Decoder α} {enc : α → Bytes}
    (h : Decoder.Exact elem enc) {bs rest : Bytes} {as : List α} :
    vecWithLen (UInt8.toNat <$> Decoder.u8) elem bs = .ok (as, rest) ↔
      as.length < 256 ∧ bs = UInt8.ofNat as.length :: as.flatMap enc ++ rest := by
  simp only [vecWithLen, Decoder.bind_eq_ok, Decoder.map_apply]
  constructor
  · rintro ⟨n, mid, hn, has⟩
    split at hn
    · rename_i b mid' hb
      cases hn
      obtain ⟨hlen, rfl⟩ := h.many.1 has
      rw [Decoder.u8_eq_ok.1 hb, hlen]
      exact ⟨b.toNat_lt, by simp⟩
    · cases hn
  · rintro ⟨hlen, rfl⟩
    have hto : (UInt8.ofNat as.length).toNat = as.length := by simpa using hlen
    have hu8 : Decoder.u8 (UInt8.ofNat as.length :: (as.flatMap enc ++ rest)) =
        .ok (UInt8.ofNat as.length, as.flatMap enc ++ rest) := Decoder.u8_eq_ok.2 rfl
    refine ⟨as.length, as.flatMap enc ++ rest, ?_, h.many.2 ⟨rfl, rfl⟩⟩
    rw [List.cons_append, hu8]
    simp only [hto]

/-- A byte string whose length is two bytes. -/
theorem vecWithLen_u16_eq_ok {bs rest message : Bytes} :
    vecWithLen (UInt16.toNat <$> Decoder.u16) Decoder.u8 bs = .ok (message, rest) ↔
      message.length < 65536 ∧ bs = leBytes 2 message.length ++ message ++ rest := by
  have hu8 : Decoder.Exact Decoder.u8 fun b => [b] := Decoder.u8_eq_ok
  have hbytes : message.flatMap (fun b => [b]) = message := List.flatMap_singleton' message
  simp only [vecWithLen, Decoder.bind_eq_ok, Decoder.map_apply]
  constructor
  · rintro ⟨n, mid, hn, has⟩
    split at hn
    · rename_i v mid' hv
      cases hn
      obtain ⟨hlen, rfl⟩ := hu8.many.1 has
      rw [Decoder.u16_eq_ok.1 hv, hlen, hbytes, List.append_assoc]
      exact ⟨v.toNat_lt, rfl⟩
    · cases hn
  · rintro ⟨hlen, rfl⟩
    have hto : (UInt16.ofNat message.length).toNat = message.length := by simpa using hlen
    have hv : Decoder.u16 (leBytes 2 message.length ++ (message ++ rest)) =
        .ok (UInt16.ofNat message.length, message ++ rest) := Decoder.u16_eq_ok.2 (by rw [hto])
    refine ⟨message.length, message ++ rest, ?_, hu8.many.2 ⟨rfl, by rw [hbytes]⟩⟩
    rw [List.append_assoc, hv]
    simp only [hto]

/-! ## The wire format of either version -/

/-- The byte of a format. -/
def MessageFormat.code : MessageFormat → UInt8
  | restrictedAscii => 0
  | limitedUtf8 => 1
  | extendedUtf8 => 2

theorem MessageFormat.decode_eq_ok {bs rest : Bytes} {format : MessageFormat} :
    MessageFormat.decode bs = .ok (format, rest) ↔ bs = format.code :: rest := by
  simp only [MessageFormat.decode, Decoder.bind_eq_ok, Decoder.u8_eq_ok]
  constructor
  · rintro ⟨b, mid, rfl, h⟩
    split at h <;> cases h <;> rfl
  · rintro rfl
    exact ⟨format.code, rest, rfl, by cases format <;> rfl⟩

def OffchainMessageHeaderV0.wire (header : OffchainMessageHeaderV0) : Bytes :=
  header.applicationDomain.bytes ++ [header.messageFormat.code, UInt8.ofNat header.signers.length] ++
    header.signers.flatMap FixedBytes.bytes ++ leBytes 2 header.message.length ++ header.message

def OffchainMessageHeaderV1.wire (header : OffchainMessageHeaderV1) : Bytes :=
  UInt8.ofNat header.signers.length :: header.signers.flatMap FixedBytes.bytes ++ header.message

theorem exact_fixed {n : Nat} : Decoder.Exact (Decoder.fixed n) FixedBytes.bytes :=
  Decoder.fixed_eq_ok

theorem OffchainMessageHeaderV0.decode_eq_ok {bs rest : Bytes} {header : OffchainMessageHeaderV0} :
    OffchainMessageHeaderV0.decode bs = .ok (header, rest) ↔
      header.signers.length < 256 ∧ header.message.length < 65536 ∧ bs = header.wire ++ rest := by
  simp only [decode, Decoder.bind_eq_ok, Decoder.fixed_eq_ok,
    MessageFormat.decode_eq_ok, vecWithLen_u8_eq_ok exact_fixed, vecWithLen_u16_eq_ok]
  constructor
  · rintro ⟨domain, _, rfl, format, _, rfl, signers, _, ⟨hs, rfl⟩, message, _, ⟨hm, rfl⟩, ⟨⟩⟩
    exact ⟨hs, hm, by simp [wire]⟩
  · rintro ⟨hs, hm, rfl⟩
    exact ⟨header.applicationDomain, _, by simp [wire]; rfl, header.messageFormat, _, rfl,
      header.signers, _, ⟨hs, rfl⟩, header.message, rest, ⟨hm, by simp⟩, rfl⟩

theorem OffchainMessageHeaderV1.decode_eq_ok {bs rest : Bytes} {header : OffchainMessageHeaderV1} :
    OffchainMessageHeaderV1.decode bs = .ok (header, rest) ↔
      header.signers.length < 256 ∧ rest = [] ∧ bs = header.wire := by
  simp only [decode, Decoder.bind_eq_ok, vecWithLen_u8_eq_ok exact_fixed]
  constructor
  · rintro ⟨signers, _, ⟨hs, rfl⟩, message, _, ⟨⟩, ⟨⟩⟩
    exact ⟨hs, rfl, rfl⟩
  · rintro ⟨hs, rfl, rfl⟩
    exact ⟨header.signers, header.message, ⟨hs, rfl⟩, header.message, [], rfl, rfl⟩

/-! ## Messages -/

namespace OffchainMessageHeader

def wire : OffchainMessageHeader → Bytes
  | v0 header => 0 :: header.wire
  | v1 header => 1 :: header.wire

/-- The lengths fit their length fields. -/
def Fits : OffchainMessageHeader → Prop
  | v0 header => header.signers.length < 256 ∧ header.message.length < 65536
  | v1 header => header.signers.length < 256

theorem decode_eq_ok {bs : Bytes} {header : OffchainMessageHeader} :
    OffchainMessageHeader.decode bs = .ok (header, []) ↔ header.Fits ∧ bs = header.wire := by
  simp only [OffchainMessageHeader.decode, Decoder.bind_eq_ok, Decoder.u8_eq_ok]
  constructor
  · rintro ⟨b, mid, rfl, h⟩
    split at h
    · rw [Decoder.map_apply] at h
      split at h
      · rename_i header rest hdecode
        cases h
        obtain ⟨hs, hm, rfl⟩ := OffchainMessageHeaderV0.decode_eq_ok.1 hdecode
        exact ⟨⟨hs, hm⟩, by simp [wire]⟩
      · cases h
    · rw [Decoder.map_apply] at h
      split at h
      · rename_i header rest hdecode
        cases h
        obtain ⟨hs, -, rfl⟩ := OffchainMessageHeaderV1.decode_eq_ok.1 hdecode
        exact ⟨hs, rfl⟩
      · cases h
    · cases h
  · rintro ⟨hfits, rfl⟩
    cases header with
    | v0 header =>
      have hdecode := OffchainMessageHeaderV0.decode_eq_ok.2
        ⟨hfits.1, hfits.2, (List.append_nil header.wire).symm⟩
      exact ⟨0, header.wire, rfl, by simp [hdecode]⟩
    | v1 header =>
      have hdecode := OffchainMessageHeaderV1.decode_eq_ok.2 ⟨hfits, rfl, rfl⟩
      exact ⟨1, header.wire, rfl, by simp [hdecode]⟩

end OffchainMessageHeader

namespace OffchainMessage

/-- An accepted message is the signing domain and a header that is one. -/
theorem tryFrom_eq_ok {bytes : Bytes} {message : OffchainMessage} :
    tryFrom bytes = .ok message ↔
      ∃ header : OffchainMessageHeader, header.Fits ∧
        bytes = expectedSigningDomain ++ header.wire ∧ tryFromHeader header = .ok message := by
  simp only [tryFrom, bind_eq_ok, mapErr_eq_ok, Decoder.tryFromSlice_eq_ok,
    OffchainMessageFormat.decode, Decoder.bind_eq_ok, Decoder.fixed_eq_ok]
  constructor
  · rintro ⟨format, ⟨domain, _, rfl, header, _, hheader, hformat⟩, h⟩
    cases hformat
    obtain ⟨hfits, rfl⟩ := OffchainMessageHeader.decode_eq_ok.1 hheader
    split at h
    · rename_i hdomain
      exact ⟨header, hfits, hdomain ▸ rfl, h⟩
    · cases h
  · rintro ⟨header, hfits, rfl, h⟩
    exact ⟨⟨⟨expectedSigningDomain, by decide⟩, header⟩, ⟨⟨expectedSigningDomain, by decide⟩,
      header.wire, rfl, header, [], OffchainMessageHeader.decode_eq_ok.2 ⟨hfits, rfl⟩, rfl⟩, h⟩

def version : OffchainMessage → Nat
  | v0 _ => 0
  | v1 _ => 1

def signers : OffchainMessage → List Pubkey
  | v0 message => message.signers
  | v1 message => message.signers

/-- Where the signer list of a message of the given version starts. -/
def signerListStart : Nat → Nat
  | 0 => 51
  | _ => 18

theorem tryFromHeader_signers {header : OffchainMessageHeader} {message : OffchainMessage}
    (h : tryFromHeader header = .ok message) :
    ∃ pre post, expectedSigningDomain ++ header.wire =
        pre ++ message.signers.flatMap FixedBytes.bytes ++ post ∧
      pre.length = signerListStart message.version := by
  cases header with
  | v0 header =>
    obtain ⟨m, hm, rfl⟩ := map_eq_ok.1 h
    have hsigners : m.signers = header.signers := by
      unfold OffchainMessageV0.tryFrom at hm
      split at hm
      · cases hm
      split at hm
      · cases hm
      obtain ⟨text, -, hm⟩ := bind_eq_ok.1 hm
      cases hm
      rfl
    refine ⟨expectedSigningDomain ++ 0 :: header.applicationDomain.bytes ++
        [header.messageFormat.code, UInt8.ofNat header.signers.length],
      leBytes 2 header.message.length ++ header.message, ?_, ?_⟩
    · simp [signers, hsigners, OffchainMessageHeader.wire, OffchainMessageHeaderV0.wire]
    · simp [header.applicationDomain.length_eq, signerListStart, version]
      decide
  | v1 header =>
    obtain ⟨m, hm, rfl⟩ := map_eq_ok.1 h
    have hsigners : m.signers = header.signers := by
      unfold OffchainMessageV1.tryFrom at hm
      split at hm
      · cases hm
      split at hm
      · cases hm
      split at hm
      · cases hm
      obtain ⟨text, -, hm⟩ := bind_eq_ok.1 hm
      cases hm
      rfl
    refine ⟨expectedSigningDomain ++ [1, UInt8.ofNat header.signers.length], header.message, ?_, ?_⟩
    · simp [signers, hsigners, OffchainMessageHeader.wire, OffchainMessageHeaderV1.wire]
    · simp [signerListStart, version]
      decide

theorem slice?_flatMap_bytes :
    ∀ {keys : List Pubkey} {i : Nat} {key : Pubkey}, keys[i]? = some key →
      slice? (keys.flatMap FixedBytes.bytes) (32 * i) 32 = some key.bytes
  | [], _, _, h => by simp at h
  | k :: keys, 0, key, h => by
    have hk : k = key := by simpa using h
    subst hk
    exact slice?_eq_some.2 ⟨[], keys.flatMap FixedBytes.bytes, rfl, rfl, k.length_eq⟩
  | k :: keys, i + 1, key, h => by
    have htail : keys[i]? = some key := by simpa using h
    have ih := slice?_flatMap_bytes htail
    have hstart : 32 * (i + 1) = k.bytes.length + 32 * i := by
      rw [k.length_eq]
      ring
    rw [List.flatMap_cons, hstart, slice?_append]
    exact ih

/-- The `i`-th signer of an accepted message is found by counting 32 bytes for each one before it. -/
theorem slice?_signer {bytes : Bytes} {message : OffchainMessage} (h : tryFrom bytes = .ok message)
    {i : Nat} {key : Pubkey} (hi : message.signers[i]? = some key) :
    slice? bytes (signerListStart message.version + 32 * i) 32 = some key.bytes := by
  obtain ⟨header, -, rfl, hheader⟩ := tryFrom_eq_ok.1 h
  obtain ⟨pre, post, hwire, hlen⟩ := tryFromHeader_signers hheader
  obtain ⟨a, b, hab, ha, hb⟩ := slice?_eq_some.1 (slice?_flatMap_bytes hi)
  refine slice?_eq_some.2 ⟨pre ++ a, b ++ post, ?_, by rw [List.length_append, hlen, ha], hb⟩
  rw [hwire, hab]
  simp

end OffchainMessage

end FogoSessions.Intents
