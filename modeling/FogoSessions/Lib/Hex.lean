import FogoSessions.Lib.Result
import FogoSessions.Lib.Text

/-!
# Hexadecimal

Hexadecimal text, two digits for each byte. The decoder takes digits of either case, the encoder
writes lower-case ones.
-/

namespace Lib.Hex

/-- The value of a digit. -/
def digit (b : UInt8) : Option UInt8 :=
  if 48 ≤ b ∧ b ≤ 57 then some (b - 48)
  else if 65 ≤ b ∧ b ≤ 70 then some (b - 55)
  else if 97 ≤ b ∧ b ≤ 102 then some (b - 87)
  else none

/-- The digit at a position of the text. -/
def digitAt (b : UInt8) (position : Nat) : Except String UInt8 :=
  okOr (digit b) s!"Invalid character '{Char.ofNat b.toNat}' at position {position}"

/-- The bytes of the digit pairs from `position` on. -/
def pairs : Nat → Bytes → Except String Bytes
  | position, hi :: lo :: rest => do
    let h ← digitAt hi position
    let l ← digitAt lo (position + 1)
    let bytes ← pairs (position + 2) rest
    return (16 * h + l) :: bytes
  | _, _ => .ok []

def decode (s : String) : Except String Bytes :=
  let bs := utf8 s
  if bs.length % 2 = 1 then .error "Odd number of digits" else pairs 0 bs

/-- The lower-case digit of a value. -/
def digitChar (d : Nat) : Char := Char.ofNat (if d < 10 then d + 48 else d + 87)

/-- The two digits of a byte. -/
def pairOf (b : UInt8) : List Char := [digitChar (b.toNat / 16), digitChar (b.toNat % 16)]

def encode (bs : Bytes) : String := String.ofList (bs.flatMap pairOf)

/-! ## Round trip -/

theorem digit_digitChar :
    ∀ d < 16, (digitChar d).toNat < 128 ∧
      digit (UInt8.ofNat (digitChar d).toNat) = some (UInt8.ofNat d) := by
  decide

/-- The code of the digit of a value. -/
def digitByte (d : Nat) : UInt8 := UInt8.ofNat (digitChar d).toNat

theorem digitAt_digitByte {d : Nat} (h : d < 16) (position : Nat) :
    digitAt (digitByte d) position = .ok (UInt8.ofNat d) := okOr_eq_ok.2 (digit_digitChar d h).2

theorem utf8_encode (bs : Bytes) :
    utf8 (encode bs) = bs.flatMap fun b => [digitByte (b.toNat / 16), digitByte (b.toNat % 16)] := by
  have hascii : ∀ c ∈ (encode bs).toList, c.toNat < 128 := by
    intro c hc
    rw [encode, String.toList_ofList] at hc
    obtain ⟨b, _, hc⟩ := List.mem_flatMap.1 hc
    have hb := b.toNat_lt
    simp only [pairOf, List.mem_cons, List.not_mem_nil, or_false] at hc
    rcases hc with rfl | rfl
    · exact (digit_digitChar _ (by omega)).1
    · exact (digit_digitChar _ (by omega)).1
  rw [utf8_ascii hascii, encode, String.toList_ofList, List.map_flatMap]
  rfl

theorem pairs_encode (bs : Bytes) : ∀ position : Nat,
    pairs position (bs.flatMap fun b => [digitByte (b.toNat / 16), digitByte (b.toNat % 16)]) =
      .ok bs := by
  induction bs with
  | nil => exact fun position => rfl
  | cons b bs ih =>
    intro position
    have hb := b.toNat_lt
    have hbyte : 16 * UInt8.ofNat (b.toNat / 16) + UInt8.ofNat (b.toNat % 16) = b := by
      apply UInt8.toNat_inj.1
      simp only [UInt8.toNat_add, UInt8.toNat_mul, UInt8.toNat_ofNat', UInt8.reduceToNat]
      omega
    rw [List.flatMap_cons, List.cons_append, List.cons_append, List.nil_append, pairs,
      digitAt_digitByte (by omega), digitAt_digitByte (by omega), ih (position + 2)]
    exact congrArg (fun x => Except.ok (x :: bs)) hbyte

theorem decode_encode (bs : Bytes) : decode (encode bs) = .ok bs := by
  have hlength : (utf8 (encode bs)).length = 2 * bs.length := by
    rw [utf8_encode, List.length_flatMap]
    simp only [List.length_cons, List.length_nil, List.map_const', List.sum_replicate_nat]
    omega
  unfold decode
  dsimp only
  rw [if_neg (by omega), utf8_encode, pairs_encode]

/-! ## Texts of digits -/

/-- The codes of the digits. -/
def IsDigitCode (n : Nat) : Prop := 48 ≤ n ∧ n ≤ 57 ∨ 65 ≤ n ∧ n ≤ 70 ∨ 97 ≤ n ∧ n ≤ 102

instance (n : Nat) : Decidable (IsDigitCode n) :=
  inferInstanceAs (Decidable (48 ≤ n ∧ n ≤ 57 ∨ 65 ≤ n ∧ n ≤ 70 ∨ 97 ≤ n ∧ n ≤ 102))

theorem digit_isSome {b : UInt8} (h : IsDigitCode b.toNat) : ∃ d, digit b = some d := by
  unfold digit
  simp only [UInt8.le_iff_toNat_le, UInt8.reduceToNat]
  rcases h with h | h | h
  · exact ⟨_, if_pos h⟩
  · exact ⟨_, by rw [if_neg (by omega), if_pos h]⟩
  · exact ⟨_, by rw [if_neg (by omega), if_neg (by omega), if_pos h]⟩

theorem pairs_of_digits :
    ∀ (bs : Bytes) (position : Nat), (∀ b ∈ bs, IsDigitCode b.toNat) →
      ∃ decoded, pairs position bs = .ok decoded ∧ decoded.length = bs.length / 2
  | [], _, _ => ⟨[], rfl, rfl⟩
  | [_], _, _ => ⟨[], rfl, by simp⟩
  | hi :: lo :: rest, position, h => by
    obtain ⟨x, hx⟩ := digit_isSome (h hi (by simp))
    obtain ⟨y, hy⟩ := digit_isSome (h lo (by simp))
    obtain ⟨decoded, hrest, hlength⟩ :=
      pairs_of_digits rest (position + 2) fun b hb => h b (by simp [hb])
    refine ⟨(16 * x + y) :: decoded, ?_, ?_⟩
    · rw [pairs, digitAt, hx, digitAt, hy, hrest]
      rfl
    · simp only [List.length_cons, hlength]
      omega

/-- A text of digits decodes if and only if it has an even number of them. -/
theorem decode_eq_ok_iff {s : String} (h : ∀ c ∈ s.toList, IsDigitCode c.toNat) (length : Nat) :
    (∃ bs, decode s = .ok bs ∧ bs.length = length) ↔ s.length = 2 * length := by
  have hsmall (n : Nat) (hn : IsDigitCode n) : n < 128 := by
    unfold IsDigitCode at hn
    omega
  have hlength : (utf8 s).length = s.length := by
    rw [utf8_ascii fun c hc => hsmall _ (h c hc), List.length_map, String.length_toList]
  obtain ⟨decoded, hdecoded, hhalf⟩ := pairs_of_digits (utf8 s) 0 ((forall_mem_utf8 hsmall).2 h)
  unfold decode
  dsimp only
  constructor
  · rintro ⟨bs, hbs, rfl⟩
    split at hbs
    · cases hbs
    · rw [hdecoded] at hbs
      cases hbs
      omega
  · intro hs
    refine ⟨decoded, ?_, by omega⟩
    rw [if_neg (by omega), hdecoded]

/-! ## Digits of either case -/

/-- `to_ascii_lowercase`. -/
def toAsciiLowercase (b : UInt8) : UInt8 := if 65 ≤ b ∧ b ≤ 90 then b + 32 else b

/-- The text of the bytes, in digits of either case. -/
def IsText (bs : Bytes) (s : String) : Prop := (utf8 s).map toAsciiLowercase = utf8 (encode bs)

theorem IsText.length {bs : Bytes} {s : String} (h : IsText bs s) :
    (utf8 s).length = 2 * bs.length := by
  have hlength := congrArg List.length h
  rw [List.length_map, utf8_encode, List.length_flatMap] at hlength
  simp only [List.length_cons, List.length_nil, List.map_const', List.sum_replicate_nat] at hlength
  omega

/-- A digit has a value if it is the digit of that value in lower case. -/
theorem digit_table : ∀ n < 256, ∀ d < 16,
    digit (UInt8.ofNat n) = some (UInt8.ofNat d) ↔
      toAsciiLowercase (UInt8.ofNat n) = digitByte d := by
  decide +kernel

theorem digit_lt {b d : UInt8} (h : digit b = some d) : d.toNat < 16 := by
  simp only [digit, UInt8.le_iff_toNat_le, UInt8.reduceToNat] at h
  split_ifs at h with h1 h2 h3
  all_goals
    cases h
    simp only [UInt8.toNat_sub, UInt8.reduceToNat]
    omega

theorem digitAt_eq_ok {b d : UInt8} {position : Nat} :
    digitAt b position = .ok d ↔ d.toNat < 16 ∧ toAsciiLowercase b = digitByte d.toNat := by
  rw [digitAt, okOr_eq_ok]
  have htable (hd : d.toNat < 16) : digit b = some d ↔ toAsciiLowercase b = digitByte d.toNat := by
    simpa using digit_table b.toNat b.toNat_lt d.toNat hd
  constructor
  · intro h
    exact ⟨digit_lt h, (htable (digit_lt h)).1 h⟩
  · rintro ⟨hd, h⟩
    exact (htable hd).2 h

/-- A byte is the value of two digits in one way. -/
theorem halves_iff {b h l : UInt8} (hh : h.toNat < 16) (hl : l.toNat < 16) :
    b = 16 * h + l ↔ b.toNat / 16 = h.toNat ∧ b.toNat % 16 = l.toNat := by
  have hb := b.toNat_lt
  rw [← UInt8.toNat_inj]
  simp only [UInt8.toNat_add, UInt8.toNat_mul, UInt8.reduceToNat]
  omega

theorem pairs_eq_ok :
    ∀ {bs out : Bytes} {position : Nat}, bs.length % 2 = 0 →
      (pairs position bs = .ok out ↔ bs.map toAsciiLowercase =
        out.flatMap fun b => [digitByte (b.toNat / 16), digitByte (b.toNat % 16)])
  | [], out, _, _ => by
    cases out <;> simp [pairs]
  | [_], _, _, h => by cases h
  | hi :: lo :: rest, out, position, h => by
    have ih {bytes : Bytes} := @pairs_eq_ok rest bytes (position + 2) (by
      rw [List.length_cons, List.length_cons] at h
      omega)
    simp only [pairs, bind_eq_ok, digitAt_eq_ok, ih, pure_eq_ok, List.map_cons]
    constructor
    · rintro ⟨x, ⟨hx, hhi⟩, y, ⟨hy, hlo⟩, bytes, hrest, rfl⟩
      obtain ⟨hdiv, hmod⟩ := (halves_iff hx hy).1 rfl
      rw [List.flatMap_cons, hhi, hlo, hrest, hdiv, hmod]
      rfl
    · intro heq
      cases out with
      | nil => cases heq
      | cons b out =>
        have hb := b.toNat_lt
        rw [List.flatMap_cons] at heq
        obtain ⟨hhi, heq⟩ := List.cons.inj heq
        obtain ⟨hlo, hrest⟩ := List.cons.inj heq
        have hdiv : (UInt8.ofNat (b.toNat / 16)).toNat = b.toNat / 16 := by
          simp
          omega
        have hmod : (UInt8.ofNat (b.toNat % 16)).toNat = b.toNat % 16 := by
          simp
          omega
        have hx : (UInt8.ofNat (b.toNat / 16)).toNat < 16 := by omega
        have hy : (UInt8.ofNat (b.toNat % 16)).toNat < 16 := by omega
        have hbyte := (halves_iff hx hy).2 ⟨hdiv.symm, hmod.symm⟩
        exact ⟨_, ⟨hx, by rw [hhi, hdiv]⟩, _, ⟨hy, by rw [hlo, hmod]⟩, out, hrest,
          congrArg (· :: out) hbyte.symm⟩

/-- What is decoded is the text of its bytes. -/
theorem decode_eq_ok {s : String} {bs : Bytes} : decode s = .ok bs ↔ IsText bs s := by
  unfold decode
  dsimp only
  by_cases hodd : (utf8 s).length % 2 = 1
  · rw [if_pos hodd]
    refine iff_of_false (by rintro ⟨⟩) ?_
    intro h
    have hlength := h.length
    omega
  · rw [if_neg hodd, pairs_eq_ok (by omega), IsText, utf8_encode]

end Lib.Hex
