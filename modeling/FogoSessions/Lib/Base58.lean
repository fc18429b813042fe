import FogoSessions.Lib.Bytes
import Mathlib.Data.Nat.Digits.Lemmas

/-!
# Base58

In base58 text the characters are the digits of a number, most significant first; the bytes are the
shortest big-endian form of that number, after one zero byte for each leading `1`.
-/

namespace Lib.Base58

/-- The value of a digit: `1`-`9`, `A`-`Z` without `I` and `O`, `a`-`z` without `l`. -/
def digit (c : Char) : Option Nat :=
  let n := c.toNat
  if 49 ≤ n ∧ n ≤ 57 then some (n - 49)
  else if 65 ≤ n ∧ n ≤ 72 then some (n - 56)
  else if 74 ≤ n ∧ n ≤ 78 then some (n - 57)
  else if 80 ≤ n ∧ n ≤ 90 then some (n - 58)
  else if 97 ≤ n ∧ n ≤ 107 then some (n - 64)
  else if 109 ≤ n ∧ n ≤ 122 then some (n - 65)
  else none

/-- The digit of a value. -/
def digitChar (d : Nat) : Char :=
  Char.ofNat <|
    if d < 9 then d + 49
    else if d < 17 then d + 56
    else if d < 22 then d + 57
    else if d < 33 then d + 58
    else if d < 44 then d + 64
    else d + 65

/-- The number the digits denote. -/
def value (digits : List Nat) : Nat := digits.foldl (fun n d => 58 * n + d) 0

/-- The little-endian bytes of `n` up to its last nonzero one, at most `fuel` of them. -/
def minBytes : Nat → Nat → Bytes
  | 0, _ => []
  | fuel + 1, n => if n = 0 then [] else UInt8.ofNat n :: minBytes fuel (n / 256)

/-- A base58 text has at least as many characters as bytes, so their number is enough fuel. -/
def decode (s : String) : Option Bytes := do
  let digits ← s.toList.mapM digit
  let zeros := digits.takeWhile (· == 0)
  return zeros.map (fun _ => 0) ++ (minBytes digits.length (value digits)).reverse

/-- The base-58 digits of `n`, least significant first, at most `fuel` of them. -/
def digits : Nat → Nat → List Nat
  | 0, _ => []
  | fuel + 1, n => if n = 0 then [] else n % 58 :: digits fuel (n / 58)

/-- Two digits cover a byte, so twice the number of bytes is enough fuel. -/
def encode (bs : Bytes) : String :=
  let zeros := bs.takeWhile (· == 0)
  String.ofList
    (zeros.map (fun _ => '1') ++ ((digits (2 * bs.length) (leNat bs.reverse)).reverse.map digitChar))

/-! ## Digits

Both directions go through the digits of the same number, so they are put in terms of Mathlib's. -/

theorem digit_digitChar : ∀ d < 58, digit (digitChar d) = some d := by decide

theorem digits_eq : ∀ {fuel n : Nat}, n < 58 ^ fuel → digits fuel n = Nat.digits 58 n
  | 0, n, h => by
    have hn : n = 0 := by simpa using h
    subst hn
    rfl
  | fuel + 1, n, h => by
    unfold digits
    split
    · rename_i hn
      rw [hn, Nat.digits_zero]
    · rename_i hn
      rw [Nat.digits_def' (by decide) (Nat.pos_of_ne_zero hn),
        digits_eq (Nat.div_lt_of_lt_mul (by rwa [pow_succ'] at h))]

theorem minBytes_eq :
    ∀ {fuel n : Nat}, n < 256 ^ fuel → minBytes fuel n = (Nat.digits 256 n).map UInt8.ofNat
  | 0, n, h => by
    have hn : n = 0 := by simpa using h
    subst hn
    rfl
  | fuel + 1, n, h => by
    unfold minBytes
    split
    · rename_i hn
      rw [hn, Nat.digits_zero, List.map_nil]
    · rename_i hn
      have hmod : UInt8.ofNat (n % 256) = UInt8.ofNat n := UInt8.toNat_inj.1 (by simp)
      rw [Nat.digits_def' (by decide) (Nat.pos_of_ne_zero hn), List.map_cons, hmod,
        minBytes_eq (Nat.div_lt_of_lt_mul (by rwa [pow_succ'] at h))]

theorem leNat_eq_ofDigits (bs : Bytes) : leNat bs = Nat.ofDigits 256 (bs.map UInt8.toNat) := by
  induction bs with
  | nil => rfl
  | cons b bs ih => rw [leNat, ih, List.map_cons, Nat.ofDigits_cons]

theorem value_eq_ofDigits (ds : List Nat) : value ds = Nat.ofDigits 58 ds.reverse := by
  have h : ∀ (ds : List Nat) (acc : Nat),
      ds.foldl (fun n d => 58 * n + d) acc = Nat.ofDigits 58 (ds.reverse ++ [acc]) := by
    intro ds
    induction ds with
    | nil => simp
    | cons d ds ih =>
      intro acc
      rw [List.foldl_cons, ih, List.reverse_cons, Nat.ofDigits_append, Nat.ofDigits_append,
        Nat.ofDigits_append]
      simp only [Nat.ofDigits_singleton, List.length_append, List.length_singleton, pow_succ]
      ring
  rw [value, h, Nat.ofDigits_append_zero]

/-- Leading zeros and the rest of a list of digits, most significant first. -/
theorem ofDigits_zeros (b : Nat) (z : Nat) (ds : List Nat) :
    Nat.ofDigits b (List.replicate z 0 ++ ds).reverse = Nat.ofDigits b ds.reverse := by
  rw [List.reverse_append, List.reverse_replicate, Nat.ofDigits_append_replicate_zero]

/-- A list is its leading zeros and a list that does not start with zero. -/
theorem exists_zeros {α : Type} [DecidableEq α] (zero : α) (as : List α) :
    ∃ z rest, as = List.replicate z zero ++ rest ∧ rest.head? ≠ some zero := by
  induction as with
  | nil => exact ⟨0, [], rfl, by simp⟩
  | cons a as ih =>
    by_cases ha : a = zero
    · obtain ⟨z, rest, rfl, hrest⟩ := ih
      exact ⟨z + 1, rest, by rw [ha, List.replicate_succ, List.cons_append], hrest⟩
    · exact ⟨0, a :: as, rfl, by simpa using ha⟩

theorem takeWhile_zeros {α : Type} [DecidableEq α] {zero : α} (z : Nat) {rest : List α}
    (h : rest.head? ≠ some zero) :
    (List.replicate z zero ++ rest).takeWhile (· == zero) = List.replicate z zero := by
  rw [List.takeWhile_append_of_pos fun a ha => by simp [List.eq_of_mem_replicate ha]]
  cases rest with
  | nil => simp
  | cons a rest =>
    have ha : a ≠ zero := by simpa using h
    simp [ha]

/-- The digits of a number are the given ones, when these do not start with zero. -/
theorem digits_ofDigits_reverse {b : Nat} (hb : 1 < b) {ds : List Nat} (hlt : ∀ d ∈ ds, d < b)
    (hhead : ds.head? ≠ some 0) : Nat.digits b (Nat.ofDigits b ds.reverse) = ds.reverse := by
  refine Nat.digits_ofDigits b hb _ (fun d hd => hlt d (List.mem_reverse.1 hd)) fun hne hlast => ?_
  rw [List.getLast_reverse] at hlast
  exact hhead ((List.head?_eq_some_head _).trans (congrArg some hlast))

theorem head?_reverse_digits {b : Nat} (n : Nat) : (Nat.digits b n).reverse.head? ≠ some 0 := by
  by_cases hn : n = 0
  · simp [hn]
  · have hne : Nat.digits b n ≠ [] := Nat.digits_ne_nil_iff_ne_zero.2 hn
    rw [List.head?_reverse, List.getLast?_eq_some_getLast hne]
    simpa using Nat.getLast_digit_ne_zero b hn

/-! ## The round trips

Byte strings and base58 texts are both given by a number of zeros and a number. -/

def bytesOf (z n : Nat) : Bytes :=
  List.replicate z 0 ++ ((Nat.digits 256 n).map UInt8.ofNat).reverse

def textOf (z n : Nat) : String :=
  String.ofList ((List.replicate z 0 ++ (Nat.digits 58 n).reverse).map digitChar)

theorem map_toNat_digits (n : Nat) :
    ((Nat.digits 256 n).map UInt8.ofNat).map UInt8.toNat = Nat.digits 256 n := by
  rw [List.map_map]
  refine (List.map_congr_left fun d hd => ?_).trans (List.map_id _)
  have hlt : d < 256 := Nat.digits_lt_base (by decide) hd
  simpa using hlt

theorem leNat_bytesOf (z n : Nat) : leNat (bytesOf z n).reverse = n := by
  rw [bytesOf, leNat_eq_ofDigits, List.map_reverse, List.map_append, List.map_replicate,
    List.map_reverse, map_toNat_digits]
  exact (ofDigits_zeros 256 z _).trans (by rw [List.reverse_reverse, Nat.ofDigits_digits])

theorem value_zeros_digits (z n : Nat) :
    value (List.replicate z 0 ++ (Nat.digits 58 n).reverse) = n := by
  rw [value_eq_ofDigits, ofDigits_zeros, List.reverse_reverse, Nat.ofDigits_digits]

theorem exists_bytesOf (bs : Bytes) : ∃ z n, bs = bytesOf z n := by
  obtain ⟨z, rest, rfl, hrest⟩ := exists_zeros 0 bs
  have hlt : ∀ d ∈ rest.map UInt8.toNat, d < 256 := by
    intro d hd
    obtain ⟨b, -, rfl⟩ := List.mem_map.1 hd
    exact b.toNat_lt
  have hhead : (rest.map UInt8.toNat).head? ≠ some 0 := by
    rw [List.head?_map]
    intro h
    obtain ⟨b, hb, hzero⟩ := Option.map_eq_some_iff.1 h
    exact hrest (hb.trans (congrArg some (UInt8.toNat_inj.1 hzero)))
  refine ⟨z, Nat.ofDigits 256 (rest.map UInt8.toNat).reverse, ?_⟩
  rw [bytesOf, digits_ofDigits_reverse (by decide) hlt hhead, List.map_reverse,
    List.reverse_reverse, List.map_map]
  simp [Function.comp_def]

theorem exists_zeros_digits {ds : List Nat} (hlt : ∀ d ∈ ds, d < 58) :
    ∃ z n, ds = List.replicate z 0 ++ (Nat.digits 58 n).reverse := by
  obtain ⟨z, rest, rfl, hrest⟩ := exists_zeros 0 ds
  refine ⟨z, Nat.ofDigits 58 rest.reverse, ?_⟩
  rw [digits_ofDigits_reverse (by decide) (fun d hd => hlt d (List.mem_append_right _ hd)) hrest,
    List.reverse_reverse]

theorem encode_bytesOf (z n : Nat) : encode (bytesOf z n) = textOf z n := by
  have hfuel : n < 58 ^ (2 * (bytesOf z n).length) := by
    calc n = leNat (bytesOf z n).reverse := (leNat_bytesOf z n).symm
      _ < 256 ^ (bytesOf z n).length := by simpa using leNat_lt (bytesOf z n).reverse
      _ ≤ (58 ^ 2) ^ (bytesOf z n).length := Nat.pow_le_pow_left (by decide) _
      _ = 58 ^ (2 * (bytesOf z n).length) := (Nat.pow_mul ..).symm
  have hhead : ((Nat.digits 256 n).map UInt8.ofNat).reverse.head? ≠ some 0 := by
    rw [← List.map_reverse, List.head?_map]
    intro h
    obtain ⟨d, hd, hzero⟩ := Option.map_eq_some_iff.1 h
    have hlt : d < 256 := Nat.digits_lt_base (b := 256) (m := n) (by decide)
      (List.mem_reverse.1 (List.mem_of_mem_head? hd))
    have hd0 : d = 0 := by
      have hmod := congrArg UInt8.toNat hzero
      simp at hmod
      omega
    exact head?_reverse_digits n (hd0 ▸ hd)
  have hzeros : (bytesOf z n).takeWhile (· == 0) = List.replicate z 0 := takeWhile_zeros z hhead
  rw [encode, hzeros, leNat_bytesOf, digits_eq hfuel, textOf, List.map_append, List.map_replicate,
    List.map_replicate]
  rfl

theorem mapM_digit {ds : List Nat} (h : ∀ d ∈ ds, d < 58) :
    (ds.map digitChar).mapM digit = some ds := by
  induction ds with
  | nil => rfl
  | cons d ds ih =>
    rw [List.map_cons, List.mapM_cons, digit_digitChar d (h d List.mem_cons_self),
      ih fun e he => h e (List.mem_cons_of_mem d he)]
    rfl

theorem decode_textOf (z n : Nat) : decode (textOf z n) = some (bytesOf z n) := by
  have hlt : ∀ d ∈ List.replicate z 0 ++ (Nat.digits 58 n).reverse, d < 58 := by
    intro d hd
    rcases List.mem_append.1 hd with hd | hd
    · rw [List.eq_of_mem_replicate hd]
      decide
    · exact Nat.digits_lt_base (by decide) (List.mem_reverse.1 hd)
  have hfuel : n < 256 ^ (List.replicate z 0 ++ (Nat.digits 58 n).reverse).length := by
    calc n < 58 ^ (Nat.digits 58 n).length := Nat.lt_base_pow_length_digits (by decide)
      _ ≤ 256 ^ (Nat.digits 58 n).length := Nat.pow_le_pow_left (by decide) _
      _ ≤ _ := Nat.pow_le_pow_right (by decide) (by simp)
  rw [decode, textOf, String.toList_ofList, mapM_digit hlt]
  simp only [Option.bind_eq_bind, Option.bind_some, Option.pure_def, value_zeros_digits,
    minBytes_eq hfuel, takeWhile_zeros z (head?_reverse_digits n), List.map_replicate]
  rfl

theorem digitChar_of_digit {c : Char} {d : Nat} (h : digit c = some d) :
    d < 58 ∧ digitChar d = c := by
  have hcode : d < 58 ∧ (if d < 9 then d + 49 else if d < 17 then d + 56 else if d < 22 then d + 57
      else if d < 33 then d + 58 else if d < 44 then d + 64 else d + 65) = c.toNat := by
    simp only [digit] at h
    split_ifs at h <;> cases h <;> refine ⟨by omega, ?_⟩ <;> split_ifs <;> omega
  exact ⟨hcode.1, by rw [digitChar, hcode.2, Char.ofNat_toNat]⟩

theorem decode_encode (bs : Bytes) : decode (encode bs) = some bs := by
  obtain ⟨z, n, rfl⟩ := exists_bytesOf bs
  rw [encode_bytesOf, decode_textOf]

theorem encode_injective {a b : Bytes} (h : encode a = encode b) : a = b := by
  have ha := decode_encode a
  rw [h, decode_encode b] at ha
  exact (Option.some.inj ha).symm

theorem mapM_digit_inv :
    ∀ {cs : List Char} {ds : List Nat}, cs.mapM digit = some ds →
      cs = ds.map digitChar ∧ ∀ d ∈ ds, d < 58
  | [], ds, h => by
    cases h
    exact ⟨rfl, fun _ hd => absurd hd List.not_mem_nil⟩
  | c :: cs, ds, h => by
    rw [List.mapM_cons] at h
    obtain ⟨d, hd, h⟩ := Option.bind_eq_some_iff.1 h
    obtain ⟨ds', hds, h⟩ := Option.bind_eq_some_iff.1 h
    cases h
    obtain ⟨hlt, rfl⟩ := digitChar_of_digit hd
    obtain ⟨rfl, hall⟩ := mapM_digit_inv hds
    exact ⟨rfl, List.forall_mem_cons.2 ⟨hlt, hall⟩⟩

theorem encode_of_decode {s : String} {bs : Bytes} (h : decode s = some bs) : encode bs = s := by
  obtain ⟨ds, hds, -⟩ := Option.bind_eq_some_iff.1 h
  obtain ⟨hchars, hlt⟩ := mapM_digit_inv hds
  obtain ⟨z, n, rfl⟩ := exists_zeros_digits hlt
  have hs : s = textOf z n := by
    rw [textOf, ← hchars, String.ofList_toList]
  rw [hs, decode_textOf] at h
  rw [← Option.some.inj h, encode_bytesOf, hs]

/-- The code of an ASCII letter or digit. -/
def IsAlphanumCode (n : Nat) : Prop := 48 ≤ n ∧ n ≤ 57 ∨ 65 ≤ n ∧ n ≤ 90 ∨ 97 ≤ n ∧ n ≤ 122

theorem mem_encode {bs : Bytes} {c : Char} (h : c ∈ (encode bs).toList) :
    IsAlphanumCode c.toNat := by
  have hdigit : ∀ d < 58, 48 ≤ (digitChar d).toNat ∧ (digitChar d).toNat ≤ 57 ∨
      65 ≤ (digitChar d).toNat ∧ (digitChar d).toNat ≤ 90 ∨
      97 ≤ (digitChar d).toNat ∧ (digitChar d).toNat ≤ 122 := by decide
  obtain ⟨z, n, rfl⟩ := exists_bytesOf bs
  rw [encode_bytesOf, textOf, String.toList_ofList] at h
  obtain ⟨d, hd, rfl⟩ := List.mem_map.1 h
  rcases List.mem_append.1 hd with hd | hd
  · rw [List.eq_of_mem_replicate hd]
    exact hdigit 0 (by decide)
  · exact hdigit d (Nat.digits_lt_base (by decide) (List.mem_reverse.1 hd))

end Lib.Base58
