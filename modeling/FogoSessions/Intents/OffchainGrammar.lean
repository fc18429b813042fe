import FogoSessions.Intents.OffchainWire

/-!
# The off-chain message format

`Accepted` is the format as a grammar, with the message that each of its byte strings stands for.
The reader accepts exactly the grammar, and a message together with its version and format byte
determines the bytes.
-/

namespace FogoSessions.Intents

open Lib Solana

/-! ## The grammar -/

/-- The keys are in strictly increasing order of their bytes. -/
def StrictlySorted (keys : List Pubkey) : Prop := keys.Pairwise fun a b => a.bytes < b.bytes

/-- The bytes are in the format, and stand for the message. -/
inductive Accepted : Bytes → OffchainMessage → Prop where
  | v0 (applicationDomain : FixedBytes 32) (format : UInt8) (signers : List Pubkey)
      (message : String)
      (format_le : format = 0 ∨ format = 1 ∨ format = 2)
      (signers_lt : signers.length < 256)
      (message_lt : (utf8 message).length < 65536)
      (printable : format = 0 → ∀ chr ∈ utf8 message, 0x20 ≤ chr ∧ chr ≤ 0x7e)
      (short : format = 0 ∨ format = 1 → (utf8 message).length ≤ 1232) :
      Accepted
        (expectedSigningDomain ++ [0] ++ applicationDomain.bytes ++ [format] ++
          [UInt8.ofNat signers.length] ++ signers.flatMap FixedBytes.bytes ++
          leBytes 2 (utf8 message).length ++ utf8 message)
        (.v0 { applicationDomain, signers, message })
  | v1 (signers : List Pubkey) (message : String)
      (signers_pos : 1 ≤ signers.length)
      (signers_lt : signers.length < 256)
      (sorted : StrictlySorted signers) :
      Accepted
        (expectedSigningDomain ++ [1] ++ [UInt8.ofNat signers.length] ++
          signers.flatMap FixedBytes.bytes ++ utf8 message)
        (.v1 { signers, message })

/-! ## The checks on a header -/

theorem isSorted_eq_true {keys : List Pubkey} :
    isSorted keys = true ↔ keys.Pairwise fun a b => a.bytes ≤ b.bytes := by
  have hchain : isSorted keys = true ↔ keys.IsChain fun a b => a.bytes ≤ b.bytes := by
    induction keys with
    | nil => simp [isSorted]
    | cons a keys ih =>
      cases keys with
      | nil => simp [isSorted]
      | cons b keys =>
        rw [isSorted, Bool.and_eq_true, ih, List.isChain_cons_cons]
        simp [FixedBytes.le]
  have htrans : IsTrans Pubkey fun a b => a.bytes ≤ b.bytes := ⟨fun _ _ _ => List.le_trans⟩
  rw [hchain, List.isChain_iff_pairwise]

/-- Sorted without duplicates is strictly sorted. -/
theorem strictlySorted_iff {keys : List Pubkey} :
    StrictlySorted keys ↔ isSorted keys = true ∧ containsDuplicates keys = false := by
  have hnodup : containsDuplicates keys = false ↔ keys.Pairwise (· ≠ ·) := by
    rw [containsDuplicates, decide_eq_false_iff_not, not_not]
    rfl
  rw [hnodup, isSorted_eq_true, ← List.pairwise_and_iff, StrictlySorted]
  constructor
  · apply List.Pairwise.imp
    intro a b hlt
    refine ⟨List.le_of_lt hlt, ?_⟩
    rintro rfl
    exact List.lt_irrefl _ hlt
  · apply List.Pairwise.imp
    rintro a b ⟨hle, hne⟩
    rcases List.le_iff_lt_or_eq.1 hle with hlt | heq
    · exact hlt
    · exact absurd (FixedBytes.ext heq) hne

theorem fromUtf8_eq_ok {bytes : Bytes} {text : String} :
    fromUtf8 bytes = .ok text ↔ utf8 text = bytes := by
  rw [fromUtf8, okOr_eq_ok, ofUtf8?_eq_some]

theorem isPrintableAscii_eq_true {bytes : Bytes} :
    isPrintableAscii bytes = true ↔ ∀ chr ∈ bytes, 0x20 ≤ chr ∧ chr ≤ 0x7e := by
  simp [isPrintableAscii]

theorem OffchainMessageV0.tryFrom_eq_ok {header : OffchainMessageHeaderV0}
    {message : OffchainMessageV0} :
    OffchainMessageV0.tryFrom header = .ok message ↔
      (header.messageFormat = .restrictedAscii →
        ∀ chr ∈ header.message, 0x20 ≤ chr ∧ chr ≤ 0x7e) ∧
      header.message.length ≤ maxMessageLen header.messageFormat ∧
      utf8 message.message = header.message ∧
      message.applicationDomain = header.applicationDomain ∧ message.signers = header.signers := by
  unfold OffchainMessageV0.tryFrom
  rw [← isPrintableAscii_eq_true]
  split
  · rename_i hbad
    exact iff_of_false (by simp) fun h => hbad.2 (h.1 hbad.1)
  · rename_i hprintable
    split
    · rename_i hlong
      exact iff_of_false (by simp) fun h => absurd h.2.1 (Nat.not_le.2 hlong)
    · rename_i hshort
      simp only [bind_eq_ok, fromUtf8_eq_ok, pure_eq_ok]
      constructor
      · rintro ⟨text, htext, rfl⟩
        exact ⟨fun h => by simpa [h] using hprintable, Nat.not_lt.1 hshort, htext, rfl, rfl⟩
      · rintro ⟨-, -, htext, hdomain, hsigners⟩
        refine ⟨message.message, htext, ?_⟩
        rw [← hdomain, ← hsigners]

theorem OffchainMessageV1.tryFrom_eq_ok {header : OffchainMessageHeaderV1}
    {message : OffchainMessageV1} :
    OffchainMessageV1.tryFrom header = .ok message ↔
      1 ≤ header.signers.length ∧ StrictlySorted header.signers ∧
      utf8 message.message = header.message ∧ message.signers = header.signers := by
  unfold OffchainMessageV1.tryFrom
  rw [strictlySorted_iff]
  split
  · rename_i hempty
    have hnil : header.signers = [] := List.isEmpty_iff.1 hempty
    exact iff_of_false (by simp) fun h => by simp [hnil] at h
  · rename_i hne
    split
    · rename_i hsorted
      exact iff_of_false (by simp) fun h => hsorted h.2.1.1
    · rename_i hsorted
      split
      · rename_i hdup
        exact iff_of_false (by simp) fun h => by simp [hdup] at h
      · rename_i hdup
        simp only [bind_eq_ok, fromUtf8_eq_ok, pure_eq_ok]
        constructor
        · rintro ⟨text, htext, rfl⟩
          refine ⟨?_, ⟨not_not.1 hsorted, by simpa using hdup⟩, htext, rfl⟩
          exact List.length_pos_iff.2 fun hnil => hne (List.isEmpty_iff.2 hnil)
        · rintro ⟨-, -, htext, hsigners⟩
          refine ⟨message.message, htext, ?_⟩
          rw [← hsigners]

/-! ## The reader and the grammar -/

theorem MessageFormat.exists_code {format : UInt8} (h : format = 0 ∨ format = 1 ∨ format = 2) :
    ∃ f : MessageFormat, f.code = format := by
  rcases h with rfl | rfl | rfl
  · exact ⟨.restrictedAscii, rfl⟩
  · exact ⟨.limitedUtf8, rfl⟩
  · exact ⟨.extendedUtf8, rfl⟩

theorem MessageFormat.code_le (f : MessageFormat) : f.code = 0 ∨ f.code = 1 ∨ f.code = 2 := by
  cases f <;> decide

theorem MessageFormat.code_eq_zero {f : MessageFormat} : f.code = 0 ↔ f = .restrictedAscii := by
  cases f <;> decide

/-- The limit is on the first two formats; the third has that of the length field. -/
theorem length_le_maxMessageLen {f : MessageFormat} {n : Nat} (hn : n < 65536) :
    n ≤ maxMessageLen f ↔ (f.code = 0 ∨ f.code = 1 → n ≤ 1232) := by
  cases f with
  | restrictedAscii => simp [maxMessageLen, MessageFormat.code]
  | limitedUtf8 => simp [maxMessageLen, MessageFormat.code]
  | extendedUtf8 =>
    refine iff_of_true ?_ (by simp [MessageFormat.code])
    change n ≤ 65535
    omega

/-- What is read is in the format. -/
theorem Accepted.of_tryFrom {bytes : Bytes} {message : OffchainMessage}
    (h : OffchainMessage.tryFrom bytes = .ok message) : Accepted bytes message := by
  obtain ⟨header, hfits, rfl, hheader⟩ := OffchainMessage.tryFrom_eq_ok.1 h
  cases header with
  | v0 header =>
    obtain ⟨m, hm, rfl⟩ := map_eq_ok.1 hheader
    obtain ⟨hprintable, hshort, htext, hdomain, hsigners⟩ := OffchainMessageV0.tryFrom_eq_ok.1 hm
    obtain ⟨hsignersLt, hmessageLt⟩ := hfits
    have haccepted := Accepted.v0 m.applicationDomain header.messageFormat.code m.signers m.message
      header.messageFormat.code_le (hsigners ▸ hsignersLt) (htext ▸ hmessageLt)
      (fun hcode => htext ▸ hprintable (MessageFormat.code_eq_zero.1 hcode))
      ((length_le_maxMessageLen (htext ▸ hmessageLt)).1 (htext ▸ hshort))
    rw [htext, hdomain, hsigners] at haccepted
    convert haccepted using 1
    · simp [OffchainMessageHeader.wire, OffchainMessageHeaderV0.wire]
    · rw [← hdomain, ← hsigners]
  | v1 header =>
    obtain ⟨m, hm, rfl⟩ := map_eq_ok.1 hheader
    obtain ⟨hpos, hsorted, htext, hsigners⟩ := OffchainMessageV1.tryFrom_eq_ok.1 hm
    have haccepted := Accepted.v1 m.signers m.message (hsigners ▸ hpos) (hsigners ▸ hfits)
      (hsigners ▸ hsorted)
    rw [htext, hsigners] at haccepted
    convert haccepted using 1
    · simp [OffchainMessageHeader.wire, OffchainMessageHeaderV1.wire]
    · rw [← hsigners]

/-- What is in the format is read. -/
theorem Accepted.tryFrom {bytes : Bytes} {message : OffchainMessage} (h : Accepted bytes message) :
    OffchainMessage.tryFrom bytes = .ok message := by
  cases h with
  | v0 domain format signers text format_le signers_lt message_lt printable short =>
    obtain ⟨f, rfl⟩ := MessageFormat.exists_code format_le
    refine OffchainMessage.tryFrom_eq_ok.2
      ⟨.v0 ⟨domain, f, signers, utf8 text⟩, ⟨signers_lt, message_lt⟩, ?_, ?_⟩
    · simp [OffchainMessageHeader.wire, OffchainMessageHeaderV0.wire]
    · refine map_eq_ok.2 ⟨_, OffchainMessageV0.tryFrom_eq_ok.2 ⟨?_, ?_, rfl, rfl, rfl⟩, rfl⟩
      · intro hf
        exact printable (MessageFormat.code_eq_zero.2 hf)
      · exact (length_le_maxMessageLen message_lt).2 short
  | v1 signers text signers_pos signers_lt sorted =>
    refine OffchainMessage.tryFrom_eq_ok.2 ⟨.v1 ⟨signers, utf8 text⟩, signers_lt, ?_, ?_⟩
    · simp [OffchainMessageHeader.wire, OffchainMessageHeaderV1.wire]
    · exact map_eq_ok.2
        ⟨_, OffchainMessageV1.tryFrom_eq_ok.2 ⟨signers_pos, sorted, rfl, rfl⟩, rfl⟩

/-! ## Reading is injective up to the format -/

/-- The byte after the signing domain. -/
def versionByte (bytes : Bytes) : Option UInt8 := bytes[16]?

/-- The byte after the application domain, in version 0. -/
def formatByte (bytes : Bytes) : Option UInt8 := bytes[49]?

theorem getElem?_after {pre post : Bytes} {b : UInt8} {n : Nat} (h : pre.length = n) :
    (pre ++ b :: post)[n]? = some b := by
  subst h
  simp

theorem length_expectedSigningDomain : expectedSigningDomain.length = 16 := by decide

theorem versionByte_v0 {domain rest : Bytes} :
    versionByte (expectedSigningDomain ++ [0] ++ domain ++ rest) = some 0 := by
  rw [List.append_assoc, List.append_assoc, List.singleton_append]
  exact getElem?_after length_expectedSigningDomain

theorem formatByte_v0 (domain : FixedBytes 32) {format : UInt8} {rest : Bytes} :
    formatByte (expectedSigningDomain ++ [0] ++ domain.bytes ++ [format] ++ rest) =
      some format := by
  rw [List.append_assoc, List.singleton_append]
  refine getElem?_after ?_
  rw [List.length_append, List.length_append, length_expectedSigningDomain, domain.length_eq]
  rfl

/-- The message, its version and its format determine the bytes. -/
theorem Accepted.unique {a b : Bytes} {message : OffchainMessage} (ha : Accepted a message)
    (hb : Accepted b message)
    (hformat : versionByte a = some 0 → formatByte a = formatByte b) : a = b := by
  cases ha with
  | v0 domain format signers text =>
    cases hb with
    | v0 _ format' =>
      have hbytes := hformat (by simpa using versionByte_v0)
      have hcode : format = format' := by
        apply Option.some.inj
        calc some format = _ := by simpa using (formatByte_v0 domain).symm
          _ = _ := hbytes
          _ = some format' := by simpa using formatByte_v0 domain
      rw [hcode]
  | v1 signers text =>
    cases hb with
    | v1 => rfl

/-- **The reader accepts exactly the format**: a byte string is read as a message exactly when it is
    in the grammar and stands for it, and two different byte strings with the same version and
    format byte are never read as the same message. -/
theorem offchainMessage_tryFrom_exact :
    (∀ bytes message, OffchainMessage.tryFrom bytes = .ok message ↔ Accepted bytes message) ∧
      ∀ a b message, OffchainMessage.tryFrom a = .ok message →
        OffchainMessage.tryFrom b = .ok message → versionByte a = versionByte b →
        (versionByte a = some 0 → formatByte a = formatByte b) → a = b := by
  constructor
  · intro bytes message
    exact ⟨Accepted.of_tryFrom, Accepted.tryFrom⟩
  · intro a b message ha hb _ hformat
    exact (Accepted.of_tryFrom ha).unique (Accepted.of_tryFrom hb)
      hformat

/-- A message of version 1 is read. -/
theorem offchainMessage_tryFrom_exact_v1 :
    OffchainMessage.tryFrom (expectedSigningDomain ++ [1, 1] ++ List.replicate 32 7 ++ [72, 105]) =
      .ok (.v1 ⟨[⟨List.replicate 32 7, rfl⟩], "Hi"⟩) :=
  (offchainMessage_tryFrom_exact.1 _ _).2
    (.v1 [⟨List.replicate 32 7, rfl⟩] "Hi" (by decide) (by decide) (List.pairwise_singleton ..))

end FogoSessions.Intents
