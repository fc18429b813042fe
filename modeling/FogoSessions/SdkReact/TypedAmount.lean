import FogoSessions.SdkReact.Amount

/-!
# Amounts as they are typed

`stringToAmount` splits a text at its point and lets `BigInt` read the halves, each as a number of
its own: with a sign, in another radix and with blanks around it. `Loose` lists the texts for which
that makes a difference.
-/

namespace FogoSessions.SdkReact

open Lib

/-- The text, without the blanks around it, is digits with at most one point and at most `decimals`
    digits after it, and denotes the amount in units of the last of `decimals` places. -/
def PlainDecimal (text : List Char) (decimals : Nat) (amount : Int) : Prop :=
  ∃ whole fraction, IsDigits whole ∧ IsDigits fraction ∧ fraction.length ≤ decimals ∧
    (trim text = whole ∧ fraction = [] ∨ trim text = whole ++ '.' :: fraction) ∧
    amount = (Nat.ofDigitChars 10 whole 0 * 10 ^ decimals +
      Nat.ofDigitChars 10 fraction 0 * 10 ^ (decimals - fraction.length) : Nat)

/-- The halves of a text with one point that are both read. -/
structure Readable (decimals : Nat) (whole fraction : List Char) : Prop where
  whole_point : '.' ∉ whole
  fraction_point : '.' ∉ fraction
  whole_reads : ∃ n, bigInt? whole = some n ∧ 0 ≤ n
  length_le : utf16Length fraction ≤ decimals
  fraction_reads : ∃ n, bigInt? (padEnd decimals fraction) = some n

/-- What can be in the halves besides digits. -/
inductive LooseHalves (decimals : Nat) (whole fraction : List Char) : Prop where
  /-- a sign or a radix before the point -/
  | wholeLiteral {n : Int} (literal : Literal (trim whole) n)
  /-- blanks between the digits and the point -/
  | wholeBlank (blank : trimStart whole ≠ trim whole)
  /-- a sign or a radix after the point -/
  | fractionLiteral {n : Int} (literal : Literal (trim (padEnd decimals fraction)) n)
  /-- blanks between the point and the digits -/
  | fractionBlank (blank : trimStart fraction ≠ fraction) (digits : trim fraction ≠ [])
  /-- blanks at the end, which count as places -/
  | fractionEnd (blank : trimEnd fraction ≠ fraction) (digits : IsDigits (trimEnd fraction))
      (nonzero : Nat.ofDigitChars 10 (trimEnd fraction) 0 ≠ 0)

/-- The texts that are read with more in them than digits, a point and blanks around. -/
inductive Loose (decimals : Nat) : List Char → Prop where
  | whole {text : List Char} {n : Int} (point : '.' ∉ text) (literal : Literal (trim text) n)
      (nonneg : 0 ≤ n) : Loose decimals text
  | halves {whole fraction : List Char} (readable : Readable decimals whole fraction)
      (loose : LooseHalves decimals whole fraction) : Loose decimals (whole ++ '.' :: fraction)

/-! ## What is read -/

section

variable {str : String} {decimals : Nat} {n : Int}

theorem nonneg_mul_pow {v : Int} : 0 ≤ v * 10 ^ decimals ↔ 0 ≤ v :=
  Int.mul_nonneg_iff_of_pos_right (Int.pow_pos (by decide))

theorem stringToAmount_whole (hpoint : '.' ∉ str.toList) :
    stringToAmount str decimals = .ok n ↔
      ∃ v, bigInt? str.toList = some v ∧ 0 ≤ v ∧ n = v * 10 ^ decimals := by
  have hparts : str.toList.splitOn '.' = [str.toList] := List.splitOn_eq_singleton hpoint
  unfold stringToAmount
  simp only [hparts, bind_eq_ok, okOr_eq_ok, require_eq_ok]
  constructor
  · rintro ⟨_, ⟨⟩, -, -, v, hv, -, hnonneg, h⟩
    exact ⟨v, hv, nonneg_mul_pow.1 hnonneg, (pure_eq_ok.1 h).symm⟩
  · rintro ⟨v, hv, hnonneg, rfl⟩
    exact ⟨_, rfl, ⟨⟩, Nat.le_succ 1, v, hv, ⟨⟩, nonneg_mul_pow.2 hnonneg, rfl⟩

theorem stringToAmount_halves {whole fraction : List Char}
    (htext : str.toList = whole ++ '.' :: fraction) (hwhole : '.' ∉ whole)
    (hfraction : '.' ∉ fraction) :
    stringToAmount str decimals = .ok n ↔
      ∃ v u, bigInt? whole = some v ∧ 0 ≤ v ∧ utf16Length fraction ≤ decimals ∧
        bigInt? (padEnd decimals fraction) = some u ∧ n = v * 10 ^ decimals + u := by
  have hparts : str.toList.splitOn '.' = [whole, fraction] := by
    rw [htext, List.splitOn_append_cons_of_beq _ _ (beq_self_eq_true '.'),
      List.splitOn_eq_singleton hwhole, List.splitOn_eq_singleton hfraction]
    rfl
  unfold stringToAmount
  simp only [hparts, bind_eq_ok, okOr_eq_ok, require_eq_ok]
  constructor
  · rintro ⟨_, ⟨⟩, -, -, v, hv, -, hnonneg, h⟩
    obtain ⟨_, hlength, hrest⟩ := bind_eq_ok.1 h
    obtain ⟨u, hu, hsum⟩ := bind_eq_ok.1 hrest
    exact ⟨v, u, hv, nonneg_mul_pow.1 hnonneg, require_eq_ok.1 hlength, okOr_eq_ok.1 hu,
      (pure_eq_ok.1 hsum).symm⟩
  · rintro ⟨v, u, hv, hnonneg, hlength, hu, rfl⟩
    refine ⟨_, rfl, ⟨⟩, Nat.le_refl 2, v, hv, ⟨⟩, nonneg_mul_pow.2 hnonneg, ?_⟩
    exact bind_eq_ok.2 ⟨⟨⟩, require_eq_ok.2 hlength, bind_eq_ok.2 ⟨u, okOr_eq_ok.2 hu, rfl⟩⟩

/-- A text with more than one point is not read. -/
theorem stringToAmount_points (h : 2 < (str.toList.splitOn '.').length) :
    stringToAmount str decimals ≠ .ok n := by
  intro hok
  simp only [stringToAmount, bind_eq_ok, require_eq_ok] at hok
  obtain ⟨_, -, -, hle, -⟩ := hok
  omega

end

/-- A text has no point, one, or more. -/
theorem point_cases (text : List Char) :
    '.' ∉ text ∨
    (∃ whole fraction, text = whole ++ '.' :: fraction ∧ '.' ∉ whole ∧ '.' ∉ fraction) ∨
    2 < (text.splitOn '.').length := by
  by_cases hpoint : '.' ∈ text
  · obtain ⟨whole, rest, rfl, hwhole⟩ := List.eq_append_cons_of_mem hpoint
    by_cases hrest : '.' ∈ rest
    · obtain ⟨fraction, more, rfl, hfraction⟩ := List.eq_append_cons_of_mem hrest
      refine Or.inr (Or.inr ?_)
      have hmore : 0 < (more.splitOn '.').length :=
        List.length_pos_iff.2 (List.splitOn_ne_nil '.' more)
      rw [List.splitOn_append_cons_of_beq _ _ (beq_self_eq_true '.'),
        List.splitOn_append_cons_of_beq _ _ (beq_self_eq_true '.'),
        List.splitOn_eq_singleton hwhole, List.splitOn_eq_singleton hfraction]
      simp only [List.length_append, List.length_singleton]
      omega
    · exact Or.inr (Or.inl ⟨whole, rest, rfl, hwhole, hrest⟩)
  · exact Or.inl hpoint

/-! ## Tidy halves -/

/-- Digits behind blanks, and digits before blanks that stand for no places. -/
structure Tidy (whole fraction : List Char) : Prop where
  whole_digits : IsDigits (trimStart whole)
  fraction_digits : IsDigits (trimEnd fraction)
  fraction_end : trimEnd fraction = fraction ∨ Nat.ofDigitChars 10 (trimEnd fraction) 0 = 0

section

variable {decimals : Nat} {whole fraction : List Char}

/-- The whole part of halves that are read. -/
theorem trimStart_digits_iff {v : Int} (h : bigInt? whole = some v) :
    IsDigits (trimStart whole) ↔
      (∀ n, ¬ Literal (trim whole) n) ∧ trimStart whole = trim whole := by
  constructor
  · intro hdigits
    have htrim : trimStart whole = trim whole := hdigits.trimEnd_eq.symm
    refine ⟨fun n => ?_, htrim⟩
    rw [← htrim]
    exact not_literal (fun c hc => Or.inl (hdigits c hc)) n
  · rintro ⟨hliteral, htrim⟩
    rw [htrim]
    exact (bigInt?_eq_some.1 h).elim And.left fun hmarked => absurd hmarked (hliteral v)

/-- Digits and blanks, filled up with zeros, are digits and blanks. -/
theorem padEnd_chars (hdigits : IsDigits (trimEnd fraction)) :
    ∀ c ∈ trim (padEnd decimals fraction), c.isDigit = true ∨ isStrWhiteSpace c = true := by
  intro c hc
  have hc' : c ∈ padEnd decimals fraction :=
    (List.dropWhile_sublist _).subset ((List.rdropWhile_prefix _ _).subset hc)
  obtain ⟨blanks, hsplit, hblanks⟩ := exists_trimEnd fraction
  rw [padEnd, List.mem_append] at hc'
  rcases hc' with hc' | hc'
  · rw [hsplit, List.mem_append] at hc'
    exact hc'.imp (hdigits c) (hblanks c)
  · exact Or.inl (isDigits_replicate_zero _ c hc')

theorem trimStart_padEnd (h : trimStart fraction = fraction) :
    trimStart (padEnd decimals fraction) = padEnd decimals fraction := by
  cases fraction with
  | nil => exact (isDigits_replicate_zero _).trimStart_eq
  | cons c fraction =>
    have hc : ¬ isStrWhiteSpace c = true :=
      List.dropWhile_eq_self_iff.1 h (Nat.succ_pos fraction.length)
    exact trimStart_of_head (Bool.eq_false_iff.2 hc)

theorem trimEnd_of_padEnd (h : IsDigits (trimEnd (padEnd decimals fraction))) :
    IsDigits (trimEnd fraction) := by
  unfold padEnd at h
  cases hzeros : decimals - utf16Length fraction with
  | zero =>
    rw [hzeros, List.replicate_zero, List.append_nil] at h
    exact h
  | succ k =>
    rw [hzeros, List.replicate_succ', ← List.append_assoc, trimEnd_of_last (by decide)] at h
    have hdigits : IsDigits fraction := fun c hc => h c (by simp [hc])
    rwa [hdigits.trimEnd_eq]

/-- The fraction of halves that are read. -/
theorem trimEnd_digits_iff {u : Int} (h : bigInt? (padEnd decimals fraction) = some u) :
    IsDigits (trimEnd fraction) ↔
      (∀ n, ¬ Literal (trim (padEnd decimals fraction)) n) ∧
        (trimStart fraction = fraction ∨ trim fraction = []) := by
  constructor
  · intro hdigits
    refine ⟨not_literal (padEnd_chars hdigits), ?_⟩
    obtain ⟨blanks, hsplit, hblanks⟩ := exists_trimEnd fraction
    generalize trimEnd fraction = digits at hdigits hsplit
    subst hsplit
    cases digits with
    | nil =>
      right
      have hnone : trimStart ([] ++ blanks) = [] := List.dropWhile_eq_nil_iff.2 hblanks
      rw [trim, hnone]
      rfl
    | cons c digits =>
      left
      exact trimStart_of_head (isStrWhiteSpace_of_isDigit (hdigits c List.mem_cons_self))
  · rintro ⟨hliteral, hstart⟩
    have hread : IsDigits (trim (padEnd decimals fraction)) :=
      (bigInt?_eq_some.1 h).elim And.left fun hmarked => absurd hmarked (hliteral u)
    rcases hstart with hstart | hblank
    · have htrim : trim (padEnd decimals fraction) = trimEnd (padEnd decimals fraction) := by
        rw [trim, trimStart_padEnd hstart]
      rw [htrim] at hread
      exact trimEnd_of_padEnd hread
    · rw [trimEnd_eq_nil hblank]
      exact List.forall_mem_nil _

theorem tidy_iff (h : Readable decimals whole fraction) :
    Tidy whole fraction ↔ ¬ LooseHalves decimals whole fraction := by
  obtain ⟨v, hv, -⟩ := h.whole_reads
  obtain ⟨u, hu⟩ := h.fraction_reads
  constructor
  · rintro ⟨hwhole, hfraction, hend⟩ hloose
    obtain ⟨hwholeLiteral, hwholeTrim⟩ := (trimStart_digits_iff hv).1 hwhole
    obtain ⟨hfractionLiteral, hfractionTrim⟩ := (trimEnd_digits_iff hu).1 hfraction
    cases hloose with
    | wholeLiteral literal => exact hwholeLiteral _ literal
    | wholeBlank blank => exact blank hwholeTrim
    | fractionLiteral literal => exact hfractionLiteral _ literal
    | fractionBlank blank digits => exact hfractionTrim.elim blank digits
    | fractionEnd blank digits nonzero => exact hend.elim blank nonzero
  · intro hloose
    have hwhole : IsDigits (trimStart whole) := by
      apply (trimStart_digits_iff hv).2
      refine ⟨fun n hn => hloose (.wholeLiteral hn), ?_⟩
      by_contra hblank
      exact hloose (.wholeBlank hblank)
    have hfraction : IsDigits (trimEnd fraction) := by
      apply (trimEnd_digits_iff hu).2
      refine ⟨fun n hn => hloose (.fractionLiteral hn), ?_⟩
      by_contra hblank
      obtain ⟨hstart, hdigits⟩ := not_or.1 hblank
      exact hloose (.fractionBlank hstart hdigits)
    refine ⟨hwhole, hfraction, ?_⟩
    by_contra hend
    obtain ⟨hblank, hnonzero⟩ := not_or.1 hend
    exact hloose (.fractionEnd hblank hfraction hnonzero)

/-! ## The value of a fraction -/

/-- Blanks before the end of a fraction are before no digit. -/
theorem trim_eq_trimEnd (h : IsDigits (trimEnd fraction)) : trim fraction = trimEnd fraction := by
  obtain ⟨blanks, hsplit, hblanks⟩ := exists_trimEnd fraction
  cases hdigits : trimEnd fraction with
  | nil =>
    rw [hdigits, List.nil_append] at hsplit
    subst hsplit
    have hnone : trimStart fraction = [] := List.dropWhile_eq_nil_iff.2 hblanks
    rw [trim, hnone]
    rfl
  | cons c digits =>
    rw [hdigits] at hsplit h
    have hc := isStrWhiteSpace_of_isDigit (h c List.mem_cons_self)
    have hstart : trimStart fraction = fraction := by
      rw [hsplit]
      exact trimStart_of_head hc
    rw [trim, hstart, hdigits]

/-- The number that is read of a fraction with blanks at its end is the one of its digits, as if they
    filled the places. -/
theorem trim_padEnd_blanks {b : Char} {digits bs : List Char} (hdigits : IsDigits digits)
    (hblanks : ∀ c ∈ b :: bs, isStrWhiteSpace c = true)
    (hread : IsDigits (trim (padEnd decimals (digits ++ b :: bs)))) :
    Nat.ofDigitChars 10 (trim (padEnd decimals (digits ++ b :: bs))) 0 =
      Nat.ofDigitChars 10 digits 0 := by
  have hend : trimEnd (digits ++ b :: bs) = digits := by
    rw [trimEnd_append_blanks hblanks, hdigits.trimEnd_eq]
  unfold padEnd at hread ⊢
  generalize decimals - utf16Length (digits ++ b :: bs) = missing at hread ⊢
  cases missing with
  | zero =>
    rw [List.replicate_zero, List.append_nil, trim_eq_trimEnd (by rwa [hend]), hend]
  | succ k =>
    cases digits with
    | nil =>
      have hstart : trimStart (b :: bs) = [] := List.dropWhile_eq_nil_iff.2 hblanks
      rw [List.nil_append, List.replicate_succ, trim_append_cons (by decide), hstart,
        List.nil_append, (isDigits_replicate_zero k).trimEnd_eq, ← List.replicate_succ,
        Nat.ofDigitChars_replicate_zero]
      rfl
    | cons c digits =>
      -- a blank between two digits is not read
      have hc := isStrWhiteSpace_of_isDigit (hdigits c List.mem_cons_self)
      have htrim : trim (c :: digits ++ b :: bs ++ List.replicate (k + 1) '0') =
          c :: digits ++ b :: bs ++ List.replicate (k + 1) '0' := by
        rw [trim, List.cons_append, List.cons_append, trimStart_of_head hc, List.replicate_succ',
          ← List.cons_append, ← List.append_assoc]
        exact trimEnd_of_last (by decide)
      rw [htrim] at hread
      have hb := hread b (by simp)
      have hblank := isStrWhiteSpace_of_isDigit hb
      rw [hblanks b List.mem_cons_self] at hblank
      cases hblank

theorem fraction_value {u : Int} (hdigits : IsDigits (trimEnd fraction))
    (hlength : utf16Length fraction ≤ decimals) (h : bigInt? (padEnd decimals fraction) = some u) :
    (trimEnd fraction).length ≤ decimals ∧
      (u = (Nat.ofDigitChars 10 (trimEnd fraction) 0 *
          10 ^ (decimals - (trimEnd fraction).length) : Nat) ↔
        trimEnd fraction = fraction ∨ Nat.ofDigitChars 10 (trimEnd fraction) 0 = 0) := by
  have hread : IsDigits (trim (padEnd decimals fraction)) ∧
      u = Nat.ofDigitChars 10 (trim (padEnd decimals fraction)) 0 :=
    (bigInt?_eq_some.1 h).resolve_right (not_literal (padEnd_chars hdigits) u)
  obtain ⟨hread, rfl⟩ := hread
  obtain ⟨blanks, hsplit, hblanks⟩ := exists_trimEnd fraction
  generalize trimEnd fraction = digits at hdigits hsplit
  subst hsplit
  rw [utf16Length_append, utf16Length_digits hdigits] at hlength
  refine ⟨by omega, ?_⟩
  cases blanks with
  | nil =>
    rw [List.append_nil] at hread ⊢
    have hpad := padEnd_digits hdigits decimals
    have htrim : trim (padEnd decimals digits) = padEnd decimals digits := by
      rw [hpad]
      exact (hdigits.rightpad decimals).trim_eq
    rw [htrim, hpad, List.rightpad, ofDigitChars_append_eq, Nat.ofDigitChars_replicate_zero,
      List.length_replicate, Nat.mul_zero, Nat.add_zero]
    exact iff_of_true rfl (Or.inl rfl)
  | cons b bs =>
    have hunits : 0 < utf16Length (b :: bs) :=
      Nat.lt_of_lt_of_le (Nat.succ_pos _) (length_le_utf16Length (b :: bs))
    have hne : digits ≠ digits ++ b :: bs := by simp
    have hpow : 10 ^ 1 ≤ 10 ^ (decimals - digits.length) :=
      Nat.pow_le_pow_right (by decide) (by omega)
    rw [trim_padEnd_blanks hdigits hblanks hread, Int.natCast_inj, or_iff_right hne]
    generalize Nat.ofDigitChars 10 digits 0 = value
    constructor
    · intro heq
      by_contra hvalue
      have hlarge := Nat.mul_le_mul_left value hpow
      omega
    · rintro rfl
      exact (Nat.zero_mul _).symm

/-! ## The amount -/

/-- The parts of a plain decimal with a point are what is left of the halves. -/
theorem plain_halves_iff {amount : Int} (hwhole : '.' ∉ whole) (hfraction : '.' ∉ fraction) :
    PlainDecimal (whole ++ '.' :: fraction) decimals amount ↔
      IsDigits (trimStart whole) ∧ IsDigits (trimEnd fraction) ∧
        (trimEnd fraction).length ≤ decimals ∧
        amount = (Nat.ofDigitChars 10 (trimStart whole) 0 * 10 ^ decimals +
          Nat.ofDigitChars 10 (trimEnd fraction) 0 * 10 ^ (decimals - (trimEnd fraction).length) :
            Nat) := by
  have htrim : trim (whole ++ '.' :: fraction) = trimStart whole ++ '.' :: trimEnd fraction :=
    trim_append_cons (by decide)
  have hstart : '.' ∉ trimStart whole := fun hmem =>
    hwhole ((List.dropWhile_sublist _).subset hmem)
  have hend : '.' ∉ trimEnd fraction := fun hmem =>
    hfraction ((List.rdropWhile_prefix _ _).subset hmem)
  constructor
  · rintro ⟨digits, places, hdigits, hplaces, hlength, htext, hamount⟩
    rw [htrim] at htext
    rcases htext with ⟨htext, -⟩ | htext
    · have hpoint := hdigits '.' (by rw [← htext]; simp)
      cases hpoint
    · obtain ⟨rfl, -, rfl⟩ :=
        (List.append_cons_inj_of_notMem (hdigits.not_mem rfl) (hplaces.not_mem rfl)).1 htext.symm
      exact ⟨hdigits, hplaces, hlength, hamount⟩
  · rintro ⟨hdigits, hplaces, hlength, hamount⟩
    exact ⟨_, _, hdigits, hplaces, hlength, Or.inr htrim, hamount⟩

/-- Halves that are read give the amount that is written exactly when they are tidy. -/
theorem plain_iff_tidy (h : Readable decimals whole fraction) {v u : Int}
    (hv : bigInt? whole = some v) (hu : bigInt? (padEnd decimals fraction) = some u) :
    PlainDecimal (whole ++ '.' :: fraction) decimals (v * 10 ^ decimals + u) ↔
      Tidy whole fraction := by
  rw [plain_halves_iff h.whole_point h.fraction_point]
  have hvalue (hdigits : IsDigits (trimStart whole)) :
      v = Nat.ofDigitChars 10 (trimStart whole) 0 := by
    have htrim : trimStart whole = trim whole := hdigits.trimEnd_eq.symm
    rw [htrim] at hdigits ⊢
    exact Option.some.inj (hv.symm.trans (bigInt?_of_trim hdigits))
  constructor
  · rintro ⟨hwhole, hfraction, -, hsum⟩
    rw [hvalue hwhole, Int.natCast_add, Int.natCast_mul, Int.natCast_pow] at hsum
    have hu' := Int.add_left_cancel hsum
    exact ⟨hwhole, hfraction, (fraction_value hfraction h.length_le hu).2.1 hu'⟩
  · rintro ⟨hwhole, hfraction, hend⟩
    obtain ⟨hlength, hiff⟩ := fraction_value hfraction h.length_le hu
    refine ⟨hwhole, hfraction, hlength, ?_⟩
    rw [hvalue hwhole, hiff.2 hend, Int.natCast_add, Int.natCast_mul, Int.natCast_pow]
    rfl

end

theorem reads_plain_whole {str : String} {decimals : Nat} (hpoint : '.' ∉ str.toList) :
    (∀ n, stringToAmount str decimals = .ok n → PlainDecimal str.toList decimals n) ↔
      ∀ n, Literal (trim str.toList) n → ¬ 0 ≤ n := by
  constructor
  · intro hplain n hliteral hnonneg
    have hread : bigInt? str.toList = some n := bigInt?_eq_some.2 (Or.inr hliteral)
    obtain ⟨digits, places, hdigits, -, -, htext, -⟩ :=
      hplain _ ((stringToAmount_whole hpoint).2 ⟨n, hread, hnonneg, rfl⟩)
    rcases htext with ⟨rfl, -⟩ | htext
    · exact not_literal (fun c hc => Or.inl (hdigits c hc)) n hliteral
    · apply hpoint
      apply (List.dropWhile_sublist isStrWhiteSpace).subset
      apply (List.rdropWhile_prefix isStrWhiteSpace _).subset
      show '.' ∈ trim str.toList
      rw [htext]
      simp
  · intro hliteral n hok
    obtain ⟨v, hv, hnonneg, rfl⟩ := (stringToAmount_whole hpoint).1 hok
    obtain ⟨hdigits, rfl⟩ :=
      (bigInt?_eq_some.1 hv).resolve_right fun hmarked => hliteral v hmarked hnonneg
    refine ⟨trim str.toList, [], hdigits, List.forall_mem_nil _, Nat.zero_le _, Or.inl ⟨rfl, rfl⟩, ?_⟩
    rw [Nat.ofDigitChars_nil, Nat.zero_mul, Nat.add_zero, Int.natCast_mul, Int.natCast_pow]
    rfl

theorem reads_plain_halves {str : String} {decimals : Nat} {whole fraction : List Char}
    (htext : str.toList = whole ++ '.' :: fraction) (hwhole : '.' ∉ whole)
    (hfraction : '.' ∉ fraction) :
    (∀ n, stringToAmount str decimals = .ok n → PlainDecimal str.toList decimals n) ↔
      (Readable decimals whole fraction → ¬ LooseHalves decimals whole fraction) := by
  constructor
  · intro hplain h
    rw [← tidy_iff h]
    obtain ⟨v, hv, hnonneg⟩ := h.whole_reads
    obtain ⟨u, hu⟩ := h.fraction_reads
    apply (plain_iff_tidy h hv hu).1
    rw [← htext]
    exact hplain _ ((stringToAmount_halves htext hwhole hfraction).2
      ⟨v, u, hv, hnonneg, h.length_le, hu, rfl⟩)
  · intro hloose n hok
    obtain ⟨v, u, hv, hnonneg, hlength, hu, rfl⟩ :=
      (stringToAmount_halves htext hwhole hfraction).1 hok
    have h : Readable decimals whole fraction :=
      ⟨hwhole, hfraction, ⟨v, hv, hnonneg⟩, hlength, ⟨u, hu⟩⟩
    rw [htext]
    exact (plain_iff_tidy h hv hu).2 ((tidy_iff h).2 (hloose h))

/-- A loose text has one point at most. -/
theorem Loose.points {text : List Char} {decimals : Nat} (h : Loose decimals text) :
    (text.splitOn '.').length ≤ 2 := by
  cases h with
  | whole point =>
    rw [List.splitOn_eq_singleton point]
    exact Nat.le_succ 1
  | halves readable =>
    rw [List.splitOn_append_cons_of_beq _ _ (beq_self_eq_true '.'),
      List.splitOn_eq_singleton readable.whole_point,
      List.splitOn_eq_singleton readable.fraction_point]
    exact Nat.le_refl 2

/-- **What is typed is read as it is written**, or not at all, exactly when the text is not loose. -/
theorem stringToAmount_plain_iff (str : String) (decimals : Nat) :
    (∀ n, stringToAmount str decimals = .ok n → PlainDecimal str.toList decimals n) ↔
      ¬ Loose decimals str.toList := by
  rcases point_cases str.toList with hpoint | ⟨whole, fraction, htext, hwhole, hfraction⟩ | hpoints
  · rw [reads_plain_whole hpoint]
    constructor
    · intro hliteral hloose
      generalize str.toList = text at hpoint hliteral hloose
      cases hloose with
      | whole _ literal nonneg => exact hliteral _ literal nonneg
      | halves => exact hpoint (by simp)
    · intro hloose n literal nonneg
      exact hloose (.whole hpoint literal nonneg)
  · rw [reads_plain_halves htext hwhole hfraction, htext]
    constructor
    · intro hhalves hloose
      generalize hjoined : whole ++ '.' :: fraction = text at hloose
      cases hloose with
      | whole point => exact point (by rw [← hjoined]; simp)
      | halves readable loose =>
        obtain ⟨rfl, -, rfl⟩ := (List.append_cons_inj_of_notMem readable.whole_point
          readable.fraction_point).1 hjoined.symm
        exact hhalves readable loose
    · intro hloose readable loose
      exact hloose (.halves readable loose)
  · apply iff_of_true
    · intro n hok
      exact absurd hok (stringToAmount_points hpoints)
    · intro hloose
      exact absurd hloose.points (Nat.not_le.2 hpoints)

/-- Blanks around a number make no difference. -/
theorem stringToAmount_plain_iff_sample : ¬ Loose 3 " 12.05".toList := by
  apply (stringToAmount_plain_iff " 12.05" 3).1
  intro n hok
  have hamount : stringToAmount " 12.05" 3 = .ok 12050 := by decide +kernel
  cases hamount.symm.trans hok
  have htrim : trim " 12.05".toList = "12".toList ++ '.' :: "05".toList := by decide +kernel
  have hdigits : ("12".toList ++ "05".toList).all Char.isDigit = true := by decide +kernel
  rw [List.all_append, Bool.and_eq_true, List.all_eq_true, List.all_eq_true] at hdigits
  exact ⟨_, _, hdigits.1, hdigits.2, by decide, Or.inr htrim, by decide +kernel⟩

/-- A sign is lost with a zero behind it, and a blank at the end shifts the digits before it. -/
theorem not_stringToAmount_plain :
    stringToAmount "-0.5" 1 = .ok 5 ∧ stringToAmount "1.5 " 2 = .ok 105 ∧
      ¬ ∀ (str : String) (decimals : Nat) (n : Int),
        stringToAmount str decimals = .ok n → PlainDecimal str.toList decimals n := by
  have hread : stringToAmount "-0.5" 1 = .ok 5 := by decide +kernel
  refine ⟨hread, by decide +kernel, fun hplain => ?_⟩
  obtain ⟨whole, fraction, hdigits, -, -, htext, -⟩ := hplain "-0.5" 1 5 hread
  have htrim : trim "-0.5".toList = '-' :: "0.5".toList := by decide +kernel
  rw [htrim] at htext
  have hwhole : whole.head? = some '-' ∨ whole = [] := by
    rcases htext with ⟨rfl, -⟩ | htext
    · exact Or.inl rfl
    · cases whole with
      | nil => exact Or.inr rfl
      | cons c whole =>
        obtain ⟨rfl, -⟩ := List.cons.inj htext
        exact Or.inl rfl
  rcases hwhole with hhead | rfl
  · have hminus := hdigits '-' (List.mem_of_head? hhead)
    cases hminus
  · rcases htext with ⟨htext, -⟩ | htext
    · cases htext
    · cases htext

end FogoSessions.SdkReact
