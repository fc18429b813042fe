import FogoSessions.Intents.Intent
import FogoSessions.Intents.OffchainWire

/-!
# Legacy off-chain messages

A message of the legacy version 0 starts like one of the new version 0, and the new format is
tried first. The legacy text then decides the reading: it is read as a new message exactly when the
fields of the new format, which begin three bytes before the text, are found inside it.
-/

namespace FogoSessions.Intents

open Lib Solana

namespace LegacyOffchainMessage

/-- `MAX_LEN_LEDGER` of the crate for the first two formats, `MAX_LEN` for the last. -/
def maxLen : MessageFormat → Nat
  | .restrictedAscii => 1212
  | .limitedUtf8 => 1212
  | .extendedUtf8 => 65515

/-- The messages the crate constructs and accepts. -/
structure Valid (m : LegacyOffchainMessage) : Prop where
  nonempty : m.message ≠ []
  length_le : m.message.length ≤ maxLen m.format
  ascii : m.format = .restrictedAscii → isPrintableAscii m.message = true
  text : (ofUtf8? m.message).isSome

instance (m : LegacyOffchainMessage) : Decidable m.Valid :=
  decidable_of_iff (m.message ≠ [] ∧ m.message.length ≤ maxLen m.format ∧
      (m.format = .restrictedAscii → isPrintableAscii m.message = true) ∧
      (ofUtf8? m.message).isSome)
    ⟨fun ⟨h1, h2, h3, h4⟩ => ⟨h1, h2, h3, h4⟩, fun ⟨h1, h2, h3, h4⟩ => ⟨h1, h2, h3, h4⟩⟩

/-- The documented layout: signing domain, version 0, format, length, text. -/
def wire (m : LegacyOffchainMessage) : Bytes :=
  legacySigningDomain ++ 0 :: m.format.code :: (leBytes 2 m.message.length ++ m.message)

end LegacyOffchainMessage

/-- The `solana_offchain_message` crate with its serializer, as far as it is documented: the layout
    of valid messages, and that they are read back. -/
class LegacyOffchainCodec extends LegacyOffchain where
  serialize : LegacyOffchainMessage → Bytes
  serialize_eq : ∀ m : LegacyOffchainMessage, m.Valid → serialize m = m.wire
  deserialize_serialize : ∀ m : LegacyOffchainMessage, m.Valid →
    deserialize (serialize m) = some m

/-! ## When the new format accepts -/

theorem OffchainMessageV0.tryFrom_isOk {header : OffchainMessageHeaderV0} :
    (∃ m, OffchainMessageV0.tryFrom header = .ok m) ↔
      (header.messageFormat = .restrictedAscii → isPrintableAscii header.message = true) ∧
      header.message.length ≤ maxMessageLen header.messageFormat ∧
      (ofUtf8? header.message).isSome := by
  unfold OffchainMessageV0.tryFrom
  constructor
  · rintro ⟨m, h⟩
    split at h
    · cases h
    rename_i hascii
    split at h
    · cases h
    rename_i hlen
    obtain ⟨text, htext, -⟩ := bind_eq_ok.1 h
    have htext' : ofUtf8? header.message = some text := okOr_eq_ok.1 htext
    exact ⟨by simpa using hascii, Nat.le_of_not_lt hlen, by rw [htext']; rfl⟩
  · rintro ⟨hascii, hlen, htext⟩
    obtain ⟨text, htext⟩ := Option.isSome_iff_exists.1 htext
    rw [if_neg (by simpa using hascii), if_neg (Nat.not_lt.2 hlen), fromUtf8, htext]
    exact ⟨_, rfl⟩

/-- The text holds the fields of a new message: 29 more bytes of an application domain, a format, a
    signer count with as many signers, and a length with a text of that length and format to the
    very end. -/
def HoldsNewMessage (text : Bytes) : Prop :=
  ∃ (domain : FixedBytes 29) (format : MessageFormat) (signers : List Pubkey) (tail : Bytes),
    text = domain.bytes ++ [format.code, UInt8.ofNat signers.length] ++
      signers.flatMap FixedBytes.bytes ++ leBytes 2 tail.length ++ tail ∧
    signers.length < 256 ∧
    (format = .restrictedAscii → isPrintableAscii tail = true) ∧
    tail.length ≤ maxMessageLen format ∧ (ofUtf8? tail).isSome

theorem maxMessageLen_lt (format : MessageFormat) : maxMessageLen format < 65536 := by
  cases format <;> decide

/-- A format byte is never printable. -/
theorem MessageFormat.not_printable (format : MessageFormat) (pre post : Bytes) :
    isPrintableAscii (pre ++ format.code :: post) = false := by
  have hcode : ¬ (0x20 ≤ format.code ∧ format.code ≤ 0x7e) := by cases format <;> decide
  rw [isPrintableAscii, List.all_append, List.all_cons, decide_eq_false hcode, Bool.false_and,
    Bool.and_false]

/-- Printable texts hold no new message. -/
theorem not_holdsNewMessage_of_printable {text : Bytes} (h : isPrintableAscii text = true) :
    ¬ HoldsNewMessage text := by
  rintro ⟨domain, format, signers, tail, rfl, -⟩
  simp only [List.append_assoc, List.cons_append, List.nil_append,
    MessageFormat.not_printable, reduceCtorEq] at h

namespace LegacyOffchainMessage

variable {m : LegacyOffchainMessage}

/-- The new format accepts a legacy message exactly when its text holds a new message. -/
theorem tryFrom_wire_isOk :
    (∃ x, OffchainMessage.tryFrom m.wire = .ok x) ↔ HoldsNewMessage m.message := by
  simp only [OffchainMessage.tryFrom_eq_ok]
  constructor
  · rintro ⟨x, header, hfits, hwire, hx⟩
    have hbody := List.append_cancel_left
      (show legacySigningDomain ++ _ = legacySigningDomain ++ header.wire from hwire)
    cases header with
    | v1 header => exact absurd (List.head_eq_of_cons_eq hbody) (by decide)
    | v0 header =>
      obtain ⟨y, hy, -⟩ := map_eq_ok.1 hx
      obtain ⟨hascii, hlen, htext⟩ := OffchainMessageV0.tryFrom_isOk.1 ⟨y, hy⟩
      have hfields := List.tail_eq_of_cons_eq hbody
      -- the first three bytes of the application domain are the legacy format and length
      have hdrop := congrArg (List.drop 3) hfields
      have hdomain : (header.applicationDomain.bytes.drop 3).length = 29 := by
        rw [List.length_drop, header.applicationDomain.length_eq]
      have hthree : 3 ≤ header.applicationDomain.bytes.length := by
        rw [header.applicationDomain.length_eq]
        decide
      refine ⟨⟨header.applicationDomain.bytes.drop 3, hdomain⟩, header.messageFormat,
        header.signers, header.message, ?_, hfits.1, hascii, hlen, htext⟩
      simp only [OffchainMessageHeaderV0.wire, List.append_assoc] at hdrop
      rw [List.drop_append_of_le_length hthree] at hdrop
      simp only [List.append_assoc]
      exact hdrop
  · rintro ⟨domain, format, signers, tail, htext, hsigners, hascii, hlen, hutf8⟩
    let header : OffchainMessageHeaderV0 :=
      { applicationDomain := ⟨m.format.code :: (leBytes 2 m.message.length ++ domain.bytes),
          by simp [domain.length_eq]⟩
        messageFormat := format, signers, message := tail }
    obtain ⟨y, hy⟩ : ∃ y, OffchainMessageV0.tryFrom header = .ok y :=
      OffchainMessageV0.tryFrom_isOk.2 ⟨hascii, hlen, hutf8⟩
    refine ⟨.v0 y, .v0 header, ⟨hsigners, hlen.trans_lt (maxMessageLen_lt format)⟩, ?_,
      map_eq_ok.2 ⟨y, hy, rfl⟩⟩
    have hwire : header.wire =
        m.format.code :: (leBytes 2 m.message.length ++ m.message) := by
      conv_rhs => enter [2, 2]; rw [htext]
      simp [OffchainMessageHeaderV0.wire, header]
    exact congrArg (legacySigningDomain ++ 0 :: ·) hwire.symm

section

variable [LegacyOffchainCodec]

/-- The legacy format is tried once the new one has refused. -/
theorem deserialize_of_refused (hm : m.Valid)
    (hrefused : ¬ ∃ x, OffchainMessage.tryFrom m.wire = .ok x) :
    Message.deserialize m.wire = .ok (.legacyOffchain m) := by
  have hread := LegacyOffchainCodec.deserialize_serialize m hm
  rw [LegacyOffchainCodec.serialize_eq m hm] at hread
  have hdomain : slice? m.wire 0 legacySigningDomain.length = some legacySigningDomain :=
    slice?_eq_some.2 ⟨[], _, rfl, rfl, rfl⟩
  have hlen : m.wire.length ≤ getLengthWithHeader m := by
    have hdomainLen : legacySigningDomain.length = 16 := by decide
    simp only [wire, getLengthWithHeader, legacyHeaderLen, List.length_append, List.length_cons,
      length_leBytes, hdomainLen]
    omega
  unfold Message.deserialize
  cases htry : OffchainMessage.tryFrom m.wire with
  | ok x => exact absurd ⟨x, htry⟩ hrefused
  | error e =>
    simp [hdomain, hread, okOr, Nat.not_lt.2 hlen, bind, Except.bind, pure, Except.pure]

theorem deserialize_serialize_printable (hm : m.Valid)
    (hprintable : isPrintableAscii m.message = true) :
    Message.deserialize m.wire = .ok (.legacyOffchain m) :=
  deserialize_of_refused hm fun h =>
    not_holdsNewMessage_of_printable hprintable (tryFrom_wire_isOk.1 h)

/-- **Reading back a legacy message**: it comes back as itself if and only if its text does not hold
    a new message. -/
theorem deserialize_serialize_iff (hm : m.Valid) :
    Message.deserialize (LegacyOffchainCodec.serialize m) = .ok (.legacyOffchain m) ↔
      ¬ HoldsNewMessage m.message := by
  rw [LegacyOffchainCodec.serialize_eq m hm, ← tryFrom_wire_isOk]
  constructor
  · rintro hread ⟨x, hx⟩
    simp only [Message.deserialize, hx, Except.ok.injEq, reduceCtorEq] at hread
  · exact deserialize_of_refused hm

end

/-! ## The documented codec -/

/-- Reads back what `wire` writes and nothing else. -/
def ofWire? (data : Bytes) : Option LegacyOffchainMessage := do
  let (format, rest) ← (MessageFormat.decode (data.drop legacyHeaderLen)).toOption
  let m : LegacyOffchainMessage := ⟨format, rest.drop 2⟩
  if m.Valid ∧ m.wire = data then some m else none

theorem ofWire?_wire (hm : m.Valid) : ofWire? m.wire = some m := by
  have hformat : MessageFormat.decode (m.wire.drop legacyHeaderLen) =
      .ok (m.format, leBytes 2 m.message.length ++ m.message) :=
    MessageFormat.decode_eq_ok.2 rfl
  have htext : (leBytes 2 m.message.length ++ m.message).drop 2 = m.message := rfl
  simp [ofWire?, hformat, htext, hm, Except.toOption]

/-- The crate as it is documented. -/
@[reducible] def documented : LegacyOffchainCodec where
  deserialize := ofWire?
  serialize := wire
  serialize_eq _ _ := rfl
  deserialize_serialize _ hm := ofWire?_wire hm

theorem deserialize_serialize_fogo :
    let _ : LegacyOffchainCodec := documented
    let m : LegacyOffchainMessage := ⟨.restrictedAscii, utf8 "Fogo Sessions"⟩
    Message.deserialize (LegacyOffchainCodec.serialize m) = .ok (.legacyOffchain m) := by
  intro _ m
  have hm : m.Valid := by decide +kernel
  exact (deserialize_serialize_iff hm).2 (not_holdsNewMessage_of_printable (by decide))

/-- A text with control characters, valid in the second format, that holds the new message "Hi". -/
theorem deserialize_serialize_hidden :
    let _ : LegacyOffchainCodec := documented
    let m : LegacyOffchainMessage :=
      ⟨.limitedUtf8, List.replicate 29 65 ++ [0, 0, 2, 0] ++ utf8 "Hi"⟩
    m.Valid ∧
      ¬ Message.deserialize (LegacyOffchainCodec.serialize m) = .ok (.legacyOffchain m) ∧
      (Message.deserialize (LegacyOffchainCodec.serialize m)).map Message.toVec =
        .ok (utf8 "Hi") := by
  decide +kernel

end LegacyOffchainMessage

end FogoSessions.Intents
