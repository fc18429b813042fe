import FogoSessions.IntentTransfer.Verify
import FogoSessions.Lib.Hex

/-!
# Recipients on other chains

`intent-transfer/src/bridge/processor/bridge_ntt_tokens.rs`: the recipient of a bridge transfer is
written as a key in base58 or as an address in hexadecimal, and base58 is tried first.
-/

namespace FogoSessions.IntentTransfer

open Lib Solana

/-- `strip_prefix("0x")`, or else the text itself. -/
def strip0x (s : String) : String :=
  match s.toList with
  | '0' :: 'x' :: rest => String.ofList rest
  | _ => s

def parseRecipientAddress (addressStr : String) : Except Error (FixedBytes 32) :=
  match Pubkey.fromStr addressStr with
  | some pubkey => .ok pubkey
  | none => do
    let bytes ← mapErr (fun _ => .custom .invalidRecipientAddress) (Hex.decode (strip0x addressStr))
    require (bytes.length ≤ 32) (.custom .invalidRecipientAddress)
    -- left-pad with zeros to make it 32 bytes
    okOr (FixedBytes.ofBytes? (zeros (32 - bytes.length) ++ bytes)) .panic

/-! ## The two forms -/

/-- The text of the bytes in hexadecimal, with or without the prefix. -/
def IsHexText (bs : Bytes) (s : String) : Prop :=
  Hex.IsText bs s ∨ ∃ t, s = "0x" ++ t ∧ Hex.IsText bs t

/-- An address that has a form in hexadecimal. -/
def IsAddress (bs : Bytes) : Prop := 1 ≤ bs.length ∧ bs.length ≤ 32

theorem strip0x_cases (s : String) :
    (∃ t, s = "0x" ++ t ∧ strip0x s = t) ∨ strip0x s = s ∧ ∀ t, s ≠ "0x" ++ t := by
  unfold strip0x
  split
  · rename_i rest hrest
    left
    refine ⟨String.ofList rest, ?_, rfl⟩
    rw [← String.toList_inj, hrest, String.toList_append]
    simp
  · rename_i hne
    right
    refine ⟨rfl, ?_⟩
    rintro t rfl
    exact hne t.toList (by rw [String.toList_append]; rfl)

/-- The prefix is not a digit. -/
theorem not_isText_prefix {bs : Bytes} {t : String} : ¬ Hex.IsText bs ("0x" ++ t) := by
  intro h
  have hx : (120 : UInt8) ∈ utf8 (Hex.encode bs) := by
    rw [← h, utf8_append, List.map_append]
    exact List.mem_append_left _ (by decide)
  rw [Hex.utf8_encode] at hx
  obtain ⟨b, -, hb⟩ := List.mem_flatMap.1 hx
  have hbyte := b.toNat_lt
  have hdigit : ∀ d < 16, (120 : UInt8) ≠ Hex.digitByte d := by decide
  simp only [List.mem_cons, List.not_mem_nil, or_false] at hb
  rcases hb with hb | hb
  · exact hdigit _ (by omega) hb
  · exact hdigit _ (by omega) hb

theorem decode_strip0x {s : String} {bs : Bytes} :
    Hex.decode (strip0x s) = .ok bs ↔ IsHexText bs s := by
  rw [Hex.decode_eq_ok, IsHexText]
  rcases strip0x_cases s with ⟨t, rfl, hstrip⟩ | ⟨hstrip, hne⟩
  · rw [hstrip]
    constructor
    · intro h
      exact Or.inr ⟨t, rfl, h⟩
    · rintro (h | ⟨t', ht, h⟩)
      · exact absurd h not_isText_prefix
      · rwa [(String.append_right_inj "0x").1 ht]
  · rw [hstrip]
    refine ⟨Or.inl, ?_⟩
    rintro (h | ⟨t, ht, -⟩)
    · exact h
    · exact absurd ht (hne t)

theorem fromStr_eq_some {s : String} {key : Pubkey} :
    Pubkey.fromStr s = some key ↔ s = key.toString := by
  constructor
  · intro h
    exact (Pubkey.toString_of_fromStr h).symm
  · rintro rfl
    exact Pubkey.fromStr_toString key

theorem parseRecipientAddress_toString (key : Pubkey) :
    parseRecipientAddress key.toString = .ok key := by
  rw [parseRecipientAddress, Pubkey.fromStr_toString]

/-- What is not the text of a key is read as hexadecimal. -/
theorem parseRecipientAddress_eq_ok {s : String} (h : ∀ key : Pubkey, s ≠ key.toString)
    {address : FixedBytes 32} :
    parseRecipientAddress s = .ok address ↔ ∃ bs, IsHexText bs s ∧ bs.length ≤ 32 ∧
      address.bytes = zeros (32 - bs.length) ++ bs := by
  have hnone : Pubkey.fromStr s = none := by
    cases hkey : Pubkey.fromStr s with
    | none => rfl
    | some key => exact absurd (fromStr_eq_some.1 hkey) (h key)
  rw [parseRecipientAddress, hnone]
  simp only [bind_eq_ok, mapErr_eq_ok, require_eq_ok, okOr_eq_ok, decode_strip0x,
    FixedBytes.ofBytes?_eq_some]
  constructor
  · rintro ⟨bs, hbs, -, hle, haddress⟩
    exact ⟨bs, hbs, hle, haddress⟩
  · rintro ⟨bs, hbs, hle, haddress⟩
    exact ⟨bs, hbs, (), hle, haddress⟩

/-! ## Both forms at once -/

/-- A number whose shortest form has `m` bytes, the first of them `0x11`, and that has `3 * m - 32`
    digits in base 58: the number of its digits is too large or too small. -/
theorem digits_mismatch {n m z : Nat} (hlow : 17 * 256 ^ (m - 1) ≤ n) (hhigh : n < 18 * 256 ^ (m - 1))
    (hm : 16 ≤ m) (hm' : m ≤ 22) (hbytes : z + (Nat.digits 256 n).length = 32)
    (hdigits : z + (Nat.digits 58 n).length = 2 * m) : False := by
  have hpow : 256 ^ m = 256 * 256 ^ (m - 1) := by
    rw [← pow_succ', Nat.sub_add_cancel (by omega)]
  have hupper : (Nat.digits 256 n).length ≤ m := by
    rw [Nat.digits_length_le_iff (by decide)]
    omega
  have hlower : m - 1 < (Nat.digits 256 n).length := by
    rw [Nat.lt_digits_length_iff (by decide)]
    omega
  have hlength : (Nat.digits 58 n).length = 3 * m - 32 := by omega
  have hlt : n < 58 ^ (3 * m - 32) := by
    rw [← Nat.digits_length_le_iff (by decide)]
    exact hlength.le
  have hge : 58 ^ (3 * m - 33) ≤ n := by
    rw [← Nat.lt_digits_length_iff (by decide)]
    omega
  clear hpow hupper hlower hlength hbytes hdigits
  interval_cases m <;> omega

/-- The text of a key with two leading zeros starts with two ones. -/
theorem utf8_textOf (z n : Nat) : ∃ rest, utf8 (Base58.textOf (z + 2) n) = 49 :: 49 :: rest := by
  rw [utf8_eq_flatMap, Base58.textOf, String.toList_ofList]
  exact ⟨_, rfl⟩

/-- The first byte of a text that starts with two ones. -/
theorem isText_ones {b : UInt8} {bs : Bytes} {s : String} {rest : Bytes}
    (h : Hex.IsText (b :: bs) s) (hs : utf8 s = 49 :: 49 :: rest) : b.toNat = 17 := by
  have hone : ∀ d < 16, Hex.digitByte d = 49 → d = 1 := by decide
  have hb := b.toNat_lt
  rw [Hex.IsText, hs, Hex.utf8_encode, List.flatMap_cons, List.map_cons, List.map_cons] at h
  obtain ⟨hhi, h⟩ := List.cons.inj h
  obtain ⟨hlo, -⟩ := List.cons.inj h
  have hdiv := hone (b.toNat / 16) (by omega) hhi.symm
  have hmod := hone (b.toNat % 16) (by omega) hlo.symm
  omega

/-- A text of both forms is read as a key, and the key is another address. -/
theorem key_ne_address {key : Pubkey} {bs : Bytes} (hbs : IsAddress bs)
    (htext : Hex.IsText bs key.toString) : key.bytes ≠ zeros (32 - bs.length) ++ bs := by
  intro heq
  obtain ⟨z, n, hkey⟩ := Base58.exists_bytesOf key.bytes
  have htextOf : key.toString = Base58.textOf z n := by
    rw [Pubkey.toString, hkey, Base58.encode_bytesOf]
  have hbytes : z + (Nat.digits 256 n).length = 32 := by
    have hlength := key.length_eq
    rw [hkey] at hlength
    simpa [Base58.bytesOf] using hlength
  have htwice : key.toString.length = 2 * bs.length := by
    rw [← htext.length]
    exact (Pubkey.utf8ByteSize_toString key).symm
  have hdigits : z + (Nat.digits 58 n).length = 2 * bs.length := by
    rw [← htwice, htextOf, Base58.textOf, String.length_ofList]
    simp
  obtain ⟨hshort, hlong⟩ := key.length_toString
  obtain ⟨b, bs', rfl⟩ : ∃ b bs', bs = b :: bs' := List.exists_cons_of_length_pos hbs.1
  have hm : (b :: bs').length - 1 = bs'.length := rfl
  -- the number of the key is the number of the address
  have hnumber : n = leNat bs'.reverse + 256 ^ bs'.length * b.toNat := by
    have hzeros (k : Nat) : leNat (zeros k) = 0 := by
      induction k with
      | zero => rfl
      | succ k ih => rw [zeros, List.replicate_succ, leNat, ← zeros, ih]; rfl
    rw [← Base58.leNat_bytesOf z n, ← hkey, heq, List.reverse_append, leNat_append,
      List.reverse_cons, leNat_append, zeros, List.reverse_replicate, ← zeros, hzeros]
    simp [leNat]
  have hrest : leNat bs'.reverse < 256 ^ bs'.length := by
    simpa using leNat_lt bs'.reverse
  have hb : b.toNat < 256 := b.toNat_lt
  -- so the key has zeros in front, and its text has ones
  have hzeros : (Nat.digits 256 n).length ≤ (b :: bs').length := by
    rw [Nat.digits_length_le_iff (by decide), List.length_cons, pow_succ, hnumber]
    calc leNat bs'.reverse + 256 ^ bs'.length * b.toNat
        < 256 ^ bs'.length + 256 ^ bs'.length * b.toNat := Nat.add_lt_add_right hrest _
      _ = 256 ^ bs'.length * (b.toNat + 1) := by rw [Nat.mul_add, Nat.mul_one, Nat.add_comm]
      _ ≤ 256 ^ bs'.length * 256 := Nat.mul_le_mul_left _ hb
  obtain ⟨z', rfl⟩ : ∃ z', z = z' + 2 := ⟨z - 2, by omega⟩
  obtain ⟨rest, hones⟩ := utf8_textOf z' n
  rw [htextOf] at htext
  have hfirst := isText_ones htext hones
  rw [hfirst] at hnumber
  refine digits_mismatch (m := (b :: bs').length) ?_ ?_ (by omega) (by omega) hbytes hdigits
  · rw [hm, hnumber, Nat.mul_comm]
    exact Nat.le_add_left _ _
  · rw [hm, hnumber]
    omega

/-! ## What is understood -/

/-- The text is understood: as a key, as an address, or not at all. -/
structure Understood (s : String) : Prop where
  key : ∀ key : Pubkey, s = key.toString → parseRecipientAddress s = .ok key
  hex : ∀ bs, IsAddress bs → IsHexText bs s →
    ∃ address, parseRecipientAddress s = .ok address ∧ address.bytes = zeros (32 - bs.length) ++ bs
  neither : (∀ key : Pubkey, s ≠ key.toString) → (∀ bs, IsAddress bs → ¬ IsHexText bs s) →
    ∃ e, parseRecipientAddress s = .error e

/-- The text of a key has no prefix. -/
theorem toString_ne_prefix (key : Pubkey) (t : String) : key.toString ≠ "0x" ++ t := by
  intro h
  have hzero : Base58.digit '0' = none := rfl
  have hdecode := Base58.decode_encode key.bytes
  rw [show Base58.encode key.bytes = "0x" ++ t from h, Base58.decode, String.toList_append] at hdecode
  simp [List.mapM_cons, hzero] at hdecode

theorem isText_nil {s : String} : Hex.IsText [] s ↔ s = "" := by
  have hempty : utf8 (Hex.encode []) = utf8 "" := by decide
  rw [Hex.IsText, hempty]
  constructor
  · intro h
    apply utf8_injective
    exact (List.map_eq_nil_iff.1 h).trans (by decide)
  · rintro rfl
    decide

/-- The text of no bytes is empty, or nothing but the prefix. -/
theorem isHexText_nil {s : String} : IsHexText [] s ↔ s = "" ∨ s = "0x" := by
  rw [IsHexText, isText_nil]
  refine or_congr_right ?_
  constructor
  · rintro ⟨t, rfl, h⟩
    rw [isText_nil.1 h]
    rfl
  · rintro rfl
    exact ⟨"", rfl, isText_nil.2 rfl⟩

theorem not_key_of_empty {s : String} (h : s = "" ∨ s = "0x") (key : Pubkey) : s ≠ key.toString := by
  rintro rfl
  obtain ⟨hshort, -⟩ := key.length_toString
  rcases h with h | h
  · rw [h] at hshort
    exact absurd hshort (by decide)
  · rw [h] at hshort
    exact absurd hshort (by decide)

/-- The bytes of a text in hexadecimal. -/
theorem isHexText_unique {bs bs' : Bytes} {s : String} (h : IsHexText bs s) (h' : IsHexText bs' s) :
    bs = bs' := by
  have hdecode := decode_strip0x.2 h
  rw [decode_strip0x.2 h'] at hdecode
  exact (Except.ok.inj hdecode).symm

theorem not_understood_of_empty {s : String} (hempty : s = "" ∨ s = "0x") : ¬ Understood s := by
  intro h
  have hnil := isHexText_nil.2 hempty
  have hkey := not_key_of_empty hempty
  have hhex (bs : Bytes) (hbs : IsAddress bs) : ¬ IsHexText bs s := by
    intro htext
    rw [isHexText_unique htext hnil] at hbs
    exact absurd hbs.1 (by decide)
  obtain ⟨e, he⟩ := h.neither hkey hhex
  have hok := (parseRecipientAddress_eq_ok hkey).2
    ⟨[], hnil, by decide, (rfl : (⟨zeros 32, by decide⟩ : FixedBytes 32).bytes = _)⟩
  rw [he] at hok
  cases hok

theorem not_understood_of_both {key : Pubkey} {bs : Bytes} (hbs : IsAddress bs)
    (hhex : IsHexText bs key.toString) : ¬ Understood key.toString := by
  intro h
  obtain ⟨address, haddress, hbytes⟩ := h.hex bs hbs hhex
  rw [parseRecipientAddress_toString] at haddress
  obtain rfl := Except.ok.inj haddress
  rcases hhex with htext | ⟨t, ht, -⟩
  · exact key_ne_address hbs htext hbytes
  · exact toString_ne_prefix key t ht

/-- **A text is understood** if and only if it is not empty, with or without the prefix, and not the
    text of a key and of an address at once. -/
theorem understood_iff (s : String) :
    Understood s ↔ s ≠ "" ∧ s ≠ "0x" ∧
      ∀ (key : Pubkey) (bs : Bytes), s = key.toString → IsAddress bs → ¬ IsHexText bs s := by
  constructor
  · intro h
    refine ⟨fun hs => not_understood_of_empty (Or.inl hs) h,
      fun hs => not_understood_of_empty (Or.inr hs) h, ?_⟩
    rintro key bs rfl hbs hhex
    exact not_understood_of_both hbs hhex h
  · rintro ⟨hempty, hprefix, hboth⟩
    refine ⟨?_, ?_, ?_⟩
    · rintro key rfl
      exact parseRecipientAddress_toString key
    · intro bs hbs hhex
      have hkey (key : Pubkey) : s ≠ key.toString := fun hs => hboth key bs hs hbs hhex
      have hlength : (zeros (32 - bs.length) ++ bs).length = 32 := by
        have hle := hbs.2
        rw [List.length_append, zeros, List.length_replicate]
        omega
      exact ⟨⟨_, hlength⟩, (parseRecipientAddress_eq_ok hkey).2 ⟨bs, hhex, hbs.2, rfl⟩, rfl⟩
    · intro hkey hhex
      cases hparse : parseRecipientAddress s with
      | error e => exact ⟨e, rfl⟩
      | ok address =>
        obtain ⟨bs, htext, hle, -⟩ := (parseRecipientAddress_eq_ok hkey).1 hparse
        cases bs with
        | nil => exact absurd (isHexText_nil.1 htext) (not_or.2 ⟨hempty, hprefix⟩)
        | cons b bs => exact absurd htext (hhex (b :: bs) ⟨Nat.succ_pos _, hle⟩)

/-- The empty text is the address of zeros, and the text of an address of 22 bytes that of a key. -/
theorem not_understood : ¬ Understood "" ∧ ¬ Understood "0x" ∧
    ¬ Understood "22222222222222222222222222222222222222222222" := by
  refine ⟨not_understood_of_empty (Or.inl rfl), not_understood_of_empty (Or.inr rfl), ?_⟩
  obtain ⟨key, hkey⟩ : ∃ key, Pubkey.fromStr "22222222222222222222222222222222222222222222" = some key :=
    Option.isSome_iff_exists.1 (by decide +kernel)
  have htext : IsHexText (List.replicate 22 34) "22222222222222222222222222222222222222222222" :=
    Or.inl (by unfold Hex.IsText; decide +kernel)
  rw [fromStr_eq_some.1 hkey] at htext ⊢
  exact not_understood_of_both ⟨by decide, by decide⟩ htext

end FogoSessions.IntentTransfer
