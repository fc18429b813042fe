import FogoSessions.Lib.Decimal

/-!
# Integers as JavaScript reads and shows them

`BigInt(text)` takes a text without its surrounding blanks for a decimal integer with an optional
sign, or for one in the radix that its prefix names; an empty text is zero.
-/

namespace Lib

/-- White space or a line terminator. -/
def isStrWhiteSpace (c : Char) : Bool :=
  c.toNat ∈ [9, 10, 11, 12, 13, 32, 0xa0, 0x1680, 0x2028, 0x2029, 0x202f, 0x205f, 0x3000, 0xfeff] ∨
    0x2000 ≤ c.toNat ∧ c.toNat ≤ 0x200a

def radixDigit? (radix : Nat) (c : Char) : Option Nat :=
  let value :=
    if c.isDigit then c.toNat - 48
    else if c.isLower then c.toNat - 87
    else if c.isUpper then c.toNat - 55
    else radix
  if value < radix then some value else none

/-- The value of at least one digit. -/
def radixDigits? (radix : Nat) (cs : List Char) : Option Nat :=
  if cs = [] then none
  else cs.foldlM (fun n c => (radixDigit? radix c).map fun d => radix * n + d) 0

/-- The radix that a prefix names, and what follows it. -/
def radixPrefix? : List Char → Option (Nat × List Char)
  | '0' :: c :: cs =>
    if c = 'x' ∨ c = 'X' then some (16, cs)
    else if c = 'o' ∨ c = 'O' then some (8, cs)
    else if c = 'b' ∨ c = 'B' then some (2, cs)
    else none
  | _ => none

def signedInteger? : List Char → Option Int
  | '-' :: cs => (radixDigits? 10 cs).map fun n => -Int.ofNat n
  | '+' :: cs => (radixDigits? 10 cs).map Int.ofNat
  | cs => (radixDigits? 10 cs).map Int.ofNat

/-- `BigInt(text)`; it refuses with a `SyntaxError`. -/
def bigInt? (text : List Char) : Option Int :=
  let trimmed := (text.dropWhile isStrWhiteSpace).rdropWhile isStrWhiteSpace
  if trimmed = [] then some 0
  else
    match radixPrefix? trimmed with
    | some (radix, cs) => (radixDigits? radix cs).map Int.ofNat
    | none => signedInteger? trimmed

example : bigInt? " -12\n".toList = some (-12) ∧ bigInt? "".toList = some 0 ∧
    bigInt? "0x1f".toList = some 31 ∧ bigInt? "-0x1f".toList = none := by decide +kernel

/-- A comma before every third digit, from the least one. -/
def groupDigits : List Char → List Char
  | a :: b :: c :: d :: cs => a :: b :: c :: ',' :: groupDigits (d :: cs)
  | cs => cs

/-- `toLocaleString("en-US")`. -/
def toLocaleString (n : Int) : List Char :=
  (if n < 0 then ['-'] else []) ++ (groupDigits (Nat.toDigits 10 n.natAbs).reverse).reverse

example : toLocaleString (-1234567) = "-1,234,567".toList := by decide +kernel

/-- The length of a text counts its UTF-16 units. -/
def utf16Length (cs : List Char) : Nat := (cs.map fun c => if c.toNat < 0x10000 then 1 else 2).sum

/-- `padEnd(length, "0")`. -/
def padEnd (length : Nat) (cs : List Char) : List Char :=
  cs ++ List.replicate (length - utf16Length cs) '0'

/-! ## Digits -/

theorem radixDigit?_of_isDigit {c : Char} (h : c.isDigit = true) :
    radixDigit? 10 c = some (c.toNat - 48) := by
  have hle := (toNat_of_isDigit h).2
  rw [radixDigit?, if_pos h, if_pos (by omega)]

theorem radixDigits?_digits {cs : List Char} (h : IsDigits cs) (hne : cs ≠ []) :
    radixDigits? 10 cs = some (Nat.ofDigitChars 10 cs 0) := by
  rw [radixDigits?, if_neg hne]
  clear hne
  induction cs using List.reverseRecOn with
  | nil => rfl
  | append_singleton cs c ih =>
    obtain ⟨hcs, hc⟩ := List.forall_mem_append.1 h
    have hdigit := radixDigit?_of_isDigit (hc c List.mem_cons_self)
    rw [List.foldlM_append, ih hcs, Nat.ofDigitChars_append, Nat.ofDigitChars_cons,
      Nat.ofDigitChars_nil]
    simp [hdigit]

theorem isStrWhiteSpace_of_isDigit {c : Char} (h : c.isDigit = true) : isStrWhiteSpace c = false := by
  obtain ⟨hlow, hhigh⟩ := toNat_of_isDigit h
  rw [isStrWhiteSpace, decide_eq_false_iff_not]
  simp only [List.mem_cons, List.not_mem_nil, or_false]
  omega

/-- Digits and blanks name no radix. -/
theorem radixPrefix?_eq_none {cs : List Char}
    (h : ∀ c ∈ cs, c.isDigit = true ∨ isStrWhiteSpace c = true) : radixPrefix? cs = none := by
  unfold radixPrefix?
  split
  case h_1 c cs =>
    have hc := h c (List.mem_cons_of_mem _ List.mem_cons_self)
    have hne {d : Char} (hd : ¬ (d.isDigit = true ∨ isStrWhiteSpace d = true)) : c ≠ d := by
      rintro rfl
      exact hd hc
    rw [if_neg (not_or.2 ⟨hne (by decide), hne (by decide)⟩),
      if_neg (not_or.2 ⟨hne (by decide), hne (by decide)⟩),
      if_neg (not_or.2 ⟨hne (by decide), hne (by decide)⟩)]
  case h_2 => rfl

theorem radixPrefix?_digits {cs : List Char} (h : IsDigits cs) : radixPrefix? cs = none :=
  radixPrefix?_eq_none fun c hc => Or.inl (h c hc)

theorem signedInteger?_digits {cs : List Char} (h : IsDigits cs) (hne : cs ≠ []) :
    signedInteger? cs = some (Nat.ofDigitChars 10 cs 0 : Int) := by
  obtain ⟨c, cs, rfl⟩ := List.exists_cons_of_ne_nil hne
  have hc := h c List.mem_cons_self
  unfold signedInteger?
  split
  case h_1 heq =>
    cases heq
    cases hc
  case h_2 heq =>
    cases heq
    cases hc
  case h_3 =>
    rw [radixDigits?_digits h hne]
    rfl

theorem radixDigit?_ten_eq_some {c : Char} {d : Nat} (h : radixDigit? 10 c = some d) :
    c.isDigit = true := by
  by_contra hdigit
  obtain ⟨hlt, -⟩ := Option.ite_none_right_eq_some.1 h
  rw [if_neg hdigit] at hlt
  split at hlt
  · rename_i hlower
    have hcode : 97 ≤ c.toNat := of_decide_eq_true (Bool.and_eq_true_iff.1 hlower).1
    omega
  · split at hlt
    · rename_i hupper
      have hrange : 'A'.val ≤ c.val ∧ c.val ≤ 'Z'.val := of_decide_eq_true hupper
      have hcode : 65 ≤ c.toNat := hrange.1
      omega
    · omega

theorem isDigits_of_radixDigits? {cs : List Char} {n : Nat} (h : radixDigits? 10 cs = some n) :
    IsDigits cs := by
  obtain ⟨-, hfold⟩ := Option.ite_none_left_eq_some.1 h
  clear h
  generalize 0 = start at hfold
  induction cs generalizing start with
  | nil => exact List.forall_mem_nil _
  | cons c cs ih =>
    obtain ⟨next, hnext, hrest⟩ := Option.bind_eq_some_iff.1 hfold
    obtain ⟨d, hd, -⟩ := Option.map_eq_some_iff.1 hnext
    exact List.forall_mem_cons.2 ⟨radixDigit?_ten_eq_some hd, ih next hrest⟩

/-! ## Blanks -/

def trimStart (cs : List Char) : List Char := cs.dropWhile isStrWhiteSpace

def trimEnd (cs : List Char) : List Char := cs.rdropWhile isStrWhiteSpace

def trim (cs : List Char) : List Char := trimEnd (trimStart cs)

theorem trimStart_of_head {c : Char} {cs : List Char} (h : isStrWhiteSpace c = false) :
    trimStart (c :: cs) = c :: cs := by
  rw [trimStart, List.dropWhile_cons, h]
  exact if_neg Bool.false_ne_true

theorem trimEnd_of_last {c : Char} {cs : List Char} (h : isStrWhiteSpace c = false) :
    trimEnd (cs ++ [c]) = cs ++ [c] := by
  apply List.rdropWhile_concat_neg
  rw [h]
  exact Bool.false_ne_true

theorem trimStart_append_cons {w f : List Char} {c : Char} (h : isStrWhiteSpace c = false) :
    trimStart (w ++ c :: f) = trimStart w ++ c :: f := by
  unfold trimStart
  rw [List.dropWhile_append]
  split
  · rename_i hempty
    rw [List.isEmpty_iff.1 hempty]
    exact trimStart_of_head h
  · rfl

theorem trimEnd_append_cons {w f : List Char} {c : Char} (h : isStrWhiteSpace c = false) :
    trimEnd (w ++ c :: f) = w ++ c :: trimEnd f := by
  induction f using List.reverseRecOn with
  | nil => exact trimEnd_of_last h
  | append_singleton f x ih =>
    have hassoc : w ++ c :: (f ++ [x]) = (w ++ c :: f) ++ [x] := by simp
    rw [hassoc]
    by_cases hx : isStrWhiteSpace x = true
    · rw [trimEnd, List.rdropWhile_concat_pos _ _ _ hx, trimEnd,
        List.rdropWhile_concat_pos _ _ _ hx]
      exact ih
    · have hx' : isStrWhiteSpace x = false := Bool.eq_false_iff.2 hx
      rw [trimEnd_of_last hx', trimEnd_of_last hx', hassoc]

/-- What surrounds a character that is no blank is trimmed on its side. -/
theorem trim_append_cons {w f : List Char} {c : Char} (h : isStrWhiteSpace c = false) :
    trim (w ++ c :: f) = trimStart w ++ c :: trimEnd f := by
  rw [trim, trimStart_append_cons h, trimEnd_append_cons h]

theorem trimEnd_append_blanks {cs blanks : List Char} (h : ∀ c ∈ blanks, isStrWhiteSpace c = true) :
    trimEnd (cs ++ blanks) = trimEnd cs := by
  induction blanks using List.reverseRecOn with
  | nil => rw [List.append_nil]
  | append_singleton blanks c ih =>
    obtain ⟨hblanks, hc⟩ := List.forall_mem_append.1 h
    rw [← List.append_assoc, trimEnd, List.rdropWhile_concat_pos _ _ _ (hc c List.mem_cons_self)]
    exact ih hblanks

/-- A text is what is left of it and the blanks that were trimmed. -/
theorem exists_trimEnd (cs : List Char) :
    ∃ blanks, cs = trimEnd cs ++ blanks ∧ ∀ c ∈ blanks, isStrWhiteSpace c = true :=
  ⟨cs.rtakeWhile isStrWhiteSpace, List.rdropWhile_append_rtakeWhile.symm,
    fun _ hc => List.mem_rtakeWhile_imp hc⟩

/-- A text of blanks has nothing but blanks at its end. -/
theorem trimEnd_eq_nil {cs : List Char} (h : trim cs = []) : trimEnd cs = [] := by
  have hrest : ∀ c ∈ trimStart cs, isStrWhiteSpace c = true := List.rdropWhile_eq_nil_iff.1 h
  apply List.rdropWhile_eq_nil_iff.2
  intro c hc
  have hsplit : cs.takeWhile isStrWhiteSpace ++ trimStart cs = cs := List.takeWhile_append_dropWhile
  rw [← hsplit, List.mem_append] at hc
  exact hc.elim List.mem_takeWhile_imp (hrest c)

theorem IsDigits.trimStart_eq {cs : List Char} (h : IsDigits cs) : trimStart cs = cs := by
  cases cs with
  | nil => rfl
  | cons c cs => exact trimStart_of_head (isStrWhiteSpace_of_isDigit (h c List.mem_cons_self))

theorem IsDigits.trimEnd_eq {cs : List Char} (h : IsDigits cs) : trimEnd cs = cs := by
  induction cs using List.reverseRecOn with
  | nil => rfl
  | append_singleton cs c _ =>
    exact trimEnd_of_last (isStrWhiteSpace_of_isDigit (h c (by simp)))

theorem IsDigits.trim_eq {cs : List Char} (h : IsDigits cs) : trim cs = cs := by
  rw [trim, h.trimStart_eq, h.trimEnd_eq]

theorem bigInt?_eq (cs : List Char) :
    bigInt? cs =
      if trim cs = [] then some 0
      else
        match radixPrefix? (trim cs) with
        | some (radix, cs) => (radixDigits? radix cs).map Int.ofNat
        | none => signedInteger? (trim cs) := rfl

/-- Digits between blanks are read as their number; no digit at all is zero. -/
theorem bigInt?_of_trim {cs : List Char} (h : IsDigits (trim cs)) :
    bigInt? cs = some (Nat.ofDigitChars 10 (trim cs) 0 : Int) := by
  rw [bigInt?_eq, radixPrefix?_digits h]
  by_cases hne : trim cs = []
  · rw [if_pos hne, hne]
    rfl
  · rw [if_neg hne]
    exact signedInteger?_digits h hne

theorem bigInt?_digits {cs : List Char} (h : IsDigits cs) :
    bigInt? cs = some (Nat.ofDigitChars 10 cs 0 : Int) := by
  have htrim : trim cs = cs := h.trim_eq
  rw [← htrim] at h
  rw [bigInt?_of_trim h, htrim]

/-- What is read besides digits: digits behind a sign, or a number in the radix of its prefix. -/
inductive Literal : List Char → Int → Prop where
  | plus {ds : List Char} (digits : IsDigits ds) (ne_nil : ds ≠ []) :
      Literal ('+' :: ds) (Nat.ofDigitChars 10 ds 0 : Int)
  | minus {ds : List Char} (digits : IsDigits ds) (ne_nil : ds ≠ []) :
      Literal ('-' :: ds) (-(Nat.ofDigitChars 10 ds 0 : Int))
  | radix {cs ds : List Char} {radix n : Nat} (named : radixPrefix? cs = some (radix, ds))
      (digits : radixDigits? radix ds = some n) : Literal cs n

theorem not_literal {cs : List Char} (h : ∀ c ∈ cs, c.isDigit = true ∨ isStrWhiteSpace c = true)
    (n : Int) : ¬ Literal cs n := by
  intro hliteral
  cases hliteral with
  | plus => exact absurd (h '+' List.mem_cons_self) (by decide)
  | minus => exact absurd (h '-' List.mem_cons_self) (by decide)
  | radix named =>
    rw [radixPrefix?_eq_none h] at named
    cases named

theorem exists_of_radixDigits? {ds : List Char} {n : Nat} (h : radixDigits? 10 ds = some n) :
    IsDigits ds ∧ ds ≠ [] ∧ n = Nat.ofDigitChars 10 ds 0 := by
  have hdigits := isDigits_of_radixDigits? h
  have hne : ds ≠ [] := (Option.ite_none_left_eq_some.1 h).1
  rw [radixDigits?_digits hdigits hne] at h
  exact ⟨hdigits, hne, (Option.some.inj h).symm⟩

/-- All that is read, without the blanks around it. -/
theorem bigInt?_eq_some {cs : List Char} {n : Int} :
    bigInt? cs = some n ↔
      IsDigits (trim cs) ∧ n = Nat.ofDigitChars 10 (trim cs) 0 ∨ Literal (trim cs) n := by
  constructor
  · intro h
    rw [bigInt?_eq] at h
    split at h
    · rename_i hempty
      cases h
      rw [hempty]
      exact Or.inl ⟨List.forall_mem_nil _, rfl⟩
    · split at h
      · rename_i hradix
        obtain ⟨m, hm, rfl⟩ := Option.map_eq_some_iff.1 h
        exact Or.inr (.radix hradix hm)
      · unfold signedInteger? at h
        split at h
        · rename_i htrim
          obtain ⟨m, hm, rfl⟩ := Option.map_eq_some_iff.1 h
          obtain ⟨hdigits, hne, rfl⟩ := exists_of_radixDigits? hm
          rw [htrim]
          exact Or.inr (.minus hdigits hne)
        · rename_i htrim
          obtain ⟨m, hm, rfl⟩ := Option.map_eq_some_iff.1 h
          obtain ⟨hdigits, hne, rfl⟩ := exists_of_radixDigits? hm
          rw [htrim]
          exact Or.inr (.plus hdigits hne)
        · obtain ⟨m, hm, rfl⟩ := Option.map_eq_some_iff.1 h
          obtain ⟨hdigits, -, rfl⟩ := exists_of_radixDigits? hm
          exact Or.inl ⟨hdigits, rfl⟩
  · rintro (⟨hdigits, rfl⟩ | hliteral)
    · exact bigInt?_of_trim hdigits
    · rw [bigInt?_eq]
      generalize trim cs = text at hliteral
      cases hliteral with
      | plus hdigits hne =>
        show (radixDigits? 10 _).map Int.ofNat = _
        rw [radixDigits?_digits hdigits hne]
        rfl
      | minus hdigits hne =>
        show ((radixDigits? 10 _).map fun n => -Int.ofNat n) = _
        rw [radixDigits?_digits hdigits hne]
        rfl
      | radix named hdigits =>
        have hne : text ≠ [] := by
          rintro rfl
          cases named
        rw [if_neg hne, named]
        show (radixDigits? _ _).map Int.ofNat = _
        rw [hdigits]
        rfl

theorem length_le_utf16Length (cs : List Char) : cs.length ≤ utf16Length cs := by
  induction cs with
  | nil => exact Nat.le_refl 0
  | cons c cs ih =>
    have hunits : 1 ≤ if c.toNat < 0x10000 then 1 else 2 := by
      split <;> omega
    show cs.length + 1 ≤ (if c.toNat < 0x10000 then 1 else 2) + utf16Length cs
    omega

theorem utf16Length_append (cs ds : List Char) :
    utf16Length (cs ++ ds) = utf16Length cs + utf16Length ds := by
  rw [utf16Length, List.map_append, List.sum_append]
  rfl

theorem utf16Length_digits {cs : List Char} (h : IsDigits cs) : utf16Length cs = cs.length := by
  induction cs with
  | nil => rfl
  | cons c cs ih =>
    obtain ⟨hc, hcs⟩ := List.forall_mem_cons.1 h
    have hle := (toNat_of_isDigit hc).2
    have hrest : (cs.map fun c => if c.toNat < 0x10000 then 1 else 2).sum = cs.length := ih hcs
    rw [utf16Length, List.map_cons, List.sum_cons, hrest, if_pos (by omega), List.length_cons,
      Nat.add_comm]

theorem padEnd_digits {cs : List Char} (h : IsDigits cs) (n : Nat) :
    padEnd n cs = cs.rightpad n '0' := by
  rw [padEnd, utf16Length_digits h, List.rightpad]

end Lib
