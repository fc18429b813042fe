import FogoSessions.Lib.Decimal

/-!
# Amounts in decimal

The token program's conversion of the text of an amount to units of the token.
-/

namespace FogoSessions.Solana.UiAmount

open Lib

/-- `try_ui_amount_into_amount`. What follows the point may end in zeros beyond the token's decimals. -/
def tryUiAmountIntoAmount (uiAmount : String) (decimals : UInt8) : Option UInt64 :=
  let parts := (utf8 uiAmount).splitOn 46
  let amountStr := parts.headD []
  let afterDecimal := (parts.getD 1 []).rdropWhile (· = 48)
  if amountStr = [] ∧ afterDecimal = [] ∨ 2 < parts.length ∨
      decimals.toNat < afterDecimal.length then none
  else (parseUnsigned 64 (amountStr ++ afterDecimal.rightpad decimals.toNat 48)).map .ofNat

example : tryUiAmountIntoAmount "1.50" 6 = some 1500000 ∧ tryUiAmountIntoAmount "+.500" 1 = some 5 ∧
    tryUiAmountIntoAmount ".5" 0 = none := by decide +kernel

theorem utf8_withFraction {whole fraction : List Char} (hwhole : IsDigits whole)
    (hfraction : IsDigits fraction) :
    utf8 (String.ofList (withFraction '.' whole fraction)) =
      withFraction 46 (asciiBytes whole) (asciiBytes fraction) := by
  rw [utf8_ofList, asciiBytes, map_withFraction]
  · rfl
  · intro c hc
    rcases mem_withFraction hc with hc | rfl | hc
    · exact hwhole.ascii c hc
    · decide
    · exact hfraction.ascii c hc

/-- A fraction that is not too long is filled up with zeros, whether or not it ends in some. -/
theorem rightpad_asciiBytes {fraction : List Char} {n : Nat} (hle : fraction.length ≤ n) :
    ((asciiBytes fraction).rdropWhile (· = 48)).rightpad n 48 =
      asciiBytes (fraction.rightpad n '0') := by
  rw [rightpad_rdropWhile (by rwa [asciiBytes, List.length_map])]
  simp only [List.rightpad, asciiBytes, List.length_map, List.map_append, List.map_replicate]
  rfl

theorem tryUiAmountIntoAmount_of_decimalOf {amount : Nat} {decimals : UInt8}
    {whole fraction : List Char} (h : DecimalOf amount decimals.toNat whole fraction)
    (hlt : amount < 2 ^ 64) :
    tryUiAmountIntoAmount (String.ofList (withFraction '.' whole fraction)) decimals =
      some (.ofNat amount) := by
  obtain ⟨hfirst, hsecond, hcount⟩ := parts_withFraction h.whole_digits.point_notMem
    h.fraction_digits.point_notMem rfl
  have hlength : (asciiBytes fraction).length ≤ decimals.toNat := by
    rw [asciiBytes, List.length_map]
    exact h.length_le
  have htrim := ((List.rdropWhile_prefix (· = (48 : UInt8)) _).length_le).trans hlength
  have hread := parseUnsigned_digits h.digits (List.append_ne_nil_of_left_ne_nil h.whole_ne_nil _)
    (by rwa [h.value])
  rw [utf8_ofList h.digits.ascii, asciiBytes, List.map_append, h.value] at hread
  simp only [tryUiAmountIntoAmount, utf8_withFraction h.whole_digits h.fraction_digits, hfirst,
    hsecond]
  rw [if_neg, rightpad_asciiBytes h.length_le]
  · exact congrArg (Option.map _) hread
  · rintro (⟨hempty, -⟩ | hmany | hlong)
    · exact h.whole_ne_nil (List.map_eq_nil_iff.1 hempty)
    · omega
    · omega

end FogoSessions.Solana.UiAmount
