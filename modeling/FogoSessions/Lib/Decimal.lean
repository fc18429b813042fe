import FogoSessions.Lib.Parser
import FogoSessions.Lib.Text
import Mathlib.Data.List.DropRight

/-!
# Numbers written in decimal

A number that fits is read back from its decimal digits, also behind leading zeros. A fraction of at
most `n` digits, filled up with zeros to `n` of them, is the same with its trailing zeros and without.
-/

namespace Lib

/-- Decimal digits only. -/
def IsDigits (cs : List Char) : Prop := ∀ c ∈ cs, c.isDigit = true

theorem IsDigits.append {cs ds : List Char} (h : IsDigits cs) (h' : IsDigits ds) :
    IsDigits (cs ++ ds) := by
  intro c hc
  rcases List.mem_append.1 hc with hc | hc
  · exact h c hc
  · exact h' c hc

theorem isDigits_replicate_zero (n : Nat) : IsDigits (List.replicate n '0') := by
  intro c hc
  rw [List.eq_of_mem_replicate hc]
  rfl

theorem IsDigits.rightpad {cs : List Char} (h : IsDigits cs) (n : Nat) :
    IsDigits (cs.rightpad n '0') :=
  h.append (isDigits_replicate_zero _)

theorem isDigits_toDigits (n : Nat) : IsDigits (Nat.toDigits 10 n) := by
  intro c hc
  exact Nat.isDigit_of_mem_toDigits (by decide) (by decide) hc

theorem IsDigits.not_mem {cs : List Char} (h : IsDigits cs) {c : Char} (hc : c.isDigit = false) :
    c ∉ cs := by
  intro hmem
  rw [h c hmem] at hc
  cases hc

theorem toNat_of_isDigit {c : Char} (h : c.isDigit = true) : 48 ≤ c.toNat ∧ c.toNat ≤ 57 := by
  simpa [Char.isDigit, UInt32.le_iff_toNat_le] using h

theorem IsDigits.ascii {cs : List Char} (h : IsDigits cs) : ∀ c ∈ cs, c.toNat < 128 := by
  intro c hc
  have hle := (toNat_of_isDigit (h c hc)).2
  omega

/-- The bytes of ASCII characters. -/
def asciiBytes (cs : List Char) : Bytes := cs.map fun c => .ofNat c.toNat

theorem utf8_ofList {cs : List Char} (h : ∀ c ∈ cs, c.toNat < 128) :
    utf8 (String.ofList cs) = asciiBytes cs := by
  rw [utf8_ascii (by rwa [String.toList_ofList]), String.toList_ofList, asciiBytes]

theorem digit?_of_isDigit {c : Char} (h : c.isDigit = true) :
    digit? (UInt8.ofNat c.toNat) = some (c.toNat - 48) ∧ (UInt8.ofNat c.toNat).toNat = c.toNat := by
  obtain ⟨hlow, hhigh⟩ := toNat_of_isDigit h
  have hto : (UInt8.ofNat c.toNat).toNat = c.toNat := by
    rw [UInt8.toNat_ofNat']
    exact Nat.mod_eq_of_lt (by omega)
  refine ⟨?_, hto⟩
  have hrange : 48 ≤ UInt8.ofNat c.toNat ∧ UInt8.ofNat c.toNat ≤ 57 := by
    rw [UInt8.le_iff_toNat_le, UInt8.le_iff_toNat_le, hto]
    exact ⟨hlow, hhigh⟩
  rw [digit?, if_pos hrange, hto]

/-- No digit is the byte of a point. -/
theorem IsDigits.point_notMem {cs : List Char} (h : IsDigits cs) : 46 ∉ asciiBytes cs := by
  intro hmem
  obtain ⟨c, hc, hcode⟩ := List.mem_map.1 hmem
  have hto := (digit?_of_isDigit (h c hc)).2
  have hlow := (toNat_of_isDigit (h c hc)).1
  rw [hcode] at hto
  change 46 = c.toNat at hto
  omega

/-! ## Reading -/

theorem parseDigits_append_digit {bits n d : Nat} {bs : Bytes} {b : UInt8}
    (h : parseDigits bits bs = some n) (hb : digit? b = some d) (hlt : 10 * n + d < 2 ^ bits) :
    parseDigits bits (bs ++ [b]) = some (10 * n + d) := by
  unfold parseDigits at h ⊢
  rw [List.foldlM_append, h]
  simp [hb, hlt]

theorem parseDigits_digits {bits : Nat} {cs : List Char} (h : IsDigits cs)
    (hlt : Nat.ofDigitChars 10 cs 0 < 2 ^ bits) :
    parseDigits bits (utf8 (String.ofList cs)) = some (Nat.ofDigitChars 10 cs 0) := by
  rw [utf8_ofList h.ascii]
  induction cs using List.reverseRecOn with
  | nil => rfl
  | append_singleton cs c ih =>
    obtain ⟨hcs, hc⟩ := List.forall_mem_append.1 h
    have hvalue : Nat.ofDigitChars 10 (cs ++ [c]) 0 =
        10 * Nat.ofDigitChars 10 cs 0 + (c.toNat - 48) := by
      rw [Nat.ofDigitChars_append, Nat.ofDigitChars_cons, Nat.ofDigitChars_nil]
      rfl
    rw [hvalue] at hlt ⊢
    have hrest := ih hcs (by omega)
    rw [asciiBytes, List.map_append]
    exact parseDigits_append_digit hrest (digit?_of_isDigit (hc c List.mem_cons_self)).1 hlt

/-- A plus sign is no digit. -/
theorem parseUnsigned_digits {bits : Nat} {cs : List Char} (h : IsDigits cs) (hne : cs ≠ [])
    (hlt : Nat.ofDigitChars 10 cs 0 < 2 ^ bits) :
    parseUnsigned bits (utf8 (String.ofList cs)) = some (Nat.ofDigitChars 10 cs 0) := by
  have hdigits := parseDigits_digits h hlt
  obtain ⟨c, cs, rfl⟩ := List.exists_cons_of_ne_nil hne
  have hc := h c List.mem_cons_self
  have hplus : UInt8.ofNat c.toNat ≠ 43 := by
    intro heq
    have hto := (digit?_of_isDigit hc).2
    rw [heq] at hto
    have hlow := (toNat_of_isDigit hc).1
    change 43 = c.toNat at hto
    omega
  rw [utf8_ofList h.ascii, asciiBytes, List.map_cons] at hdigits ⊢
  rwa [parseUnsigned.eq_3 _ _ (List.cons_ne_nil _ _) fun rest heq => hplus (List.cons.inj heq).1]

theorem parseUnsigned_repr {bits n : Nat} (h : n < 2 ^ bits) :
    parseUnsigned bits (utf8 n.repr) = some n := by
  have hread := parseUnsigned_digits (isDigits_toDigits n) (Nat.toDigits_ne_nil)
    (by rwa [Nat.ofDigitChars_ten_toDigits])
  rwa [Nat.ofDigitChars_ten_toDigits, ← Nat.repr_eq_ofList_toDigits] at hread

/-! ## Fractions -/

/-- A point stands only before a fraction. -/
def withFraction {α : Type} (point : α) (whole : List α) : List α → List α
  | [] => whole
  | x :: xs => whole ++ point :: x :: xs

theorem withFraction_eq {α : Type} (point : α) (whole fraction : List α) :
    withFraction point whole fraction =
      whole ++ if fraction = [] then [] else point :: fraction := by
  cases fraction with
  | nil => exact (List.append_nil whole).symm
  | cons x xs => rfl

theorem map_withFraction {α β : Type} (f : α → β) (point : α) (whole fraction : List α) :
    (withFraction point whole fraction).map f =
      withFraction (f point) (whole.map f) (fraction.map f) := by
  cases fraction with
  | nil => rfl
  | cons x xs => exact List.map_append

theorem mem_withFraction {α : Type} {point x : α} {whole fraction : List α}
    (h : x ∈ withFraction point whole fraction) : x ∈ whole ∨ x = point ∨ x ∈ fraction := by
  cases fraction with
  | nil => exact Or.inl h
  | cons y ys =>
    rcases List.mem_append.1 h with h | h
    · exact Or.inl h
    · exact Or.inr (List.mem_cons.1 h)

theorem splitOn_withFraction {α : Type} [DecidableEq α] {point : α} {whole fraction : List α}
    (hwhole : point ∉ whole) (hfraction : point ∉ fraction) :
    (withFraction point whole fraction).splitOn point =
      if fraction = [] then [whole] else [whole, fraction] := by
  cases fraction with
  | nil =>
    rw [withFraction, List.splitOn_eq_singleton hwhole]
    rfl
  | cons x xs =>
    rw [withFraction, List.splitOn_append_cons_of_beq _ _ (beq_self_eq_true point),
      List.splitOn_eq_singleton hwhole, List.splitOn_eq_singleton hfraction]
    rfl

/-- What a reader of the parts finds, who takes a missing fraction for an empty one. -/
theorem parts_withFraction {α : Type} [DecidableEq α] {point : α} {whole fraction : List α}
    (hwhole : point ∉ whole) (hfraction : point ∉ fraction) {parts : List (List α)}
    (h : (withFraction point whole fraction).splitOn point = parts) :
    parts.headD [] = whole ∧ parts.getD 1 [] = fraction ∧ parts.length ≤ 2 := by
  rw [splitOn_withFraction hwhole hfraction] at h
  subst h
  split
  case isTrue hempty => exact ⟨rfl, hempty.symm, Nat.le_succ 1⟩
  case isFalse => exact ⟨rfl, rfl, Nat.le_refl 2⟩

/-! ## Zeros -/

theorem rightpad_of_length {α : Type} {n : Nat} {l : List α} (x : α) (h : l.length = n) :
    l.rightpad n x = l := by
  rw [List.rightpad, h, Nat.sub_self]
  exact List.append_nil l

theorem rightpad_rdropWhile {α : Type} [DecidableEq α] {x : α} {n : Nat} {l : List α}
    (h : l.length ≤ n) : (l.rdropWhile (· = x)).rightpad n x = l.rightpad n x := by
  induction l using List.reverseRecOn with
  | nil => rfl
  | append_singleton l a ih =>
    by_cases ha : a = x
    · subst ha
      rw [List.length_append, List.length_singleton] at h
      rw [List.rdropWhile_concat_pos _ _ _ (by simp), ih (by omega), List.rightpad,
        List.rightpad, List.length_append, List.length_singleton, List.append_assoc,
        List.singleton_append, ← List.replicate_succ]
      congr 2
      omega
    · rw [List.rdropWhile_concat_neg _ _ _ (by simpa using ha)]

/-- Digits are the digits before them, shifted by as many places as they are. -/
theorem ofDigitChars_append_eq (cs ds : List Char) :
    Nat.ofDigitChars 10 (cs ++ ds) 0 =
      Nat.ofDigitChars 10 cs 0 * 10 ^ ds.length + Nat.ofDigitChars 10 ds 0 := by
  rw [Nat.ofDigitChars_append, Nat.ofDigitChars_eq_ofDigitChars_zero, Nat.mul_comm]

theorem ofDigitChars_leftpad (n : Nat) (cs : List Char) :
    Nat.ofDigitChars 10 (List.replicate n '0' ++ cs) 0 = Nat.ofDigitChars 10 cs 0 := by
  rw [Nat.ofDigitChars_append, Nat.ofDigitChars_replicate_zero, Nat.mul_zero]

/-- The two parts of a number with a fraction are the digits of the amount in units of the last of
    `decimals` places. -/
structure DecimalOf (amount decimals : Nat) (whole fraction : List Char) : Prop where
  whole_digits : IsDigits whole
  whole_ne_nil : whole ≠ []
  fraction_digits : IsDigits fraction
  length_le : fraction.length ≤ decimals
  value : Nat.ofDigitChars 10 (whole ++ fraction.rightpad decimals '0') 0 = amount

theorem DecimalOf.digits {amount decimals : Nat} {whole fraction : List Char}
    (h : DecimalOf amount decimals whole fraction) :
    IsDigits (whole ++ fraction.rightpad decimals '0') :=
  h.whole_digits.append (h.fraction_digits.rightpad decimals)

/-- The amount is the whole part, shifted, and the fraction. -/
theorem DecimalOf.sum_eq {amount decimals : Nat} {whole fraction : List Char}
    (h : DecimalOf amount decimals whole fraction) :
    Nat.ofDigitChars 10 whole 0 * 10 ^ decimals +
      Nat.ofDigitChars 10 (fraction.rightpad decimals '0') 0 = amount := by
  have hlength : (fraction.rightpad decimals '0').length = decimals := by
    rw [List.length_rightpad]
    exact Nat.max_eq_left h.length_le
  rw [← h.value, ofDigitChars_append_eq, hlength]

end Lib
