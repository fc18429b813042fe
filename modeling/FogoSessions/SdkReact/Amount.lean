import FogoSessions.Lib.BigIntText
import FogoSessions.SdkTs.Intent
import FogoSessions.SessionManager.Approving
import FogoSessions.Solana.Native

/-!
# Amounts as the user sees and enters them

`sessions-sdk-react/src/amount-to-string.ts`. The text of an amount denotes it to its reader: the one
that the wallet signs to the session manager, the one that an input field shows to `stringToAmount`.
-/

namespace FogoSessions.SdkReact

open Lib Solana SessionManager SdkTs

/-- What a function throws. -/
inductive Thrown where
  | error (message : String)
  | syntaxError
deriving DecidableEq

/-- Here the number of decimals is any natural number. -/
def stringToAmount (str : String) (decimals : Nat) : Except Thrown Int := do
  let parts := str.toList.splitOn '.'
  let integerStr ← okOr parts[0]? (.error "Invalid amount string")
  require (parts.length ≤ 2) (.error "Invalid amount string")
  let integerPart := (← okOr (bigInt? integerStr) .syntaxError) * 10 ^ decimals
  require (0 ≤ integerPart) (.error "Amount cannot be negative")
  match parts[1]? with
  | none => return integerPart
  | some fractionalStr =>
    require (utf16Length fractionalStr ≤ decimals)
      (.error "This value is more precise than the token supports")
    let fractionalPart ← okOr (bigInt? (padEnd decimals fractionalStr)) .syntaxError
    return integerPart + fractionalPart

/-- Groups the digits unless told otherwise. -/
def amountToString (amount : Int) (decimals : Nat) (grouping : Bool) : Except Thrown String := do
  let (whole, decimal) := splitDecimals (toString amount).toList decimals
  let decimalPadded := padStart decimals decimal
  let decimalTruncated := trimZeros decimalPadded
  let shown ←
    if grouping then toLocaleString <$> okOr (bigInt? whole) .syntaxError else .ok whole
  return String.ofList (shown ++ if decimalTruncated = [] then [] else '.' :: decimalTruncated)

example : amountToString 1234500 2 true = .ok "12,345" ∧ stringToAmount "12.05" 3 = .ok 12050 ∧
    stringToAmount "1.2.3" 3 = .error (.error "Invalid amount string") := by decide +kernel

/-- The parts of a number are read as the amount that they denote. -/
theorem stringToAmount_of_decimalOf {amount decimals : Nat} {whole fraction : List Char}
    (h : DecimalOf amount decimals whole fraction) :
    stringToAmount (String.ofList (withFraction '.' whole fraction)) decimals = .ok amount := by
  have hsplit := splitOn_withFraction (h.whole_digits.not_mem (c := '.') rfl)
    (h.fraction_digits.not_mem rfl)
  have hpositive : (0 : Int) ≤ Nat.ofDigitChars 10 whole 0 * 10 ^ decimals :=
    Int.mul_nonneg (Int.natCast_nonneg _) (Int.pow_nonneg (by decide))
  have hvalue := h.sum_eq
  have hinteger : okOr (bigInt? whole) Thrown.syntaxError = .ok (Nat.ofDigitChars 10 whole 0) := by
    rw [bigInt?_digits h.whole_digits]
    rfl
  unfold stringToAmount
  rw [String.toList_ofList, hsplit]
  by_cases hempty : fraction = []
  · -- Nothing follows the digits, so there is no fraction to read.
    subst hempty
    rw [List.rightpad, List.nil_append, Nat.ofDigitChars_replicate_zero, Nat.mul_zero,
      Nat.add_zero] at hvalue
    refine bind_eq_ok.2 ⟨whole, rfl, bind_eq_ok.2 ⟨(), rfl, bind_eq_ok.2 ⟨_, hinteger, ?_⟩⟩⟩
    refine bind_eq_ok.2 ⟨(), require_eq_ok.2 hpositive, ?_⟩
    rw [← hvalue, Int.natCast_mul, Int.natCast_pow]
    rfl
  · have hunits : utf16Length fraction ≤ decimals := by
      rw [utf16Length_digits h.fraction_digits]
      exact h.length_le
    have hfraction : okOr (bigInt? (padEnd decimals fraction)) Thrown.syntaxError =
        .ok (Nat.ofDigitChars 10 (fraction.rightpad decimals '0') 0) := by
      rw [padEnd_digits h.fraction_digits, bigInt?_digits (h.fraction_digits.rightpad decimals)]
      rfl
    rw [if_neg hempty]
    refine bind_eq_ok.2 ⟨whole, rfl, bind_eq_ok.2 ⟨(), rfl, bind_eq_ok.2 ⟨_, hinteger, ?_⟩⟩⟩
    refine bind_eq_ok.2 ⟨(), require_eq_ok.2 hpositive, ?_⟩
    refine bind_eq_ok.2 ⟨(), require_eq_ok.2 hunits, bind_eq_ok.2 ⟨_, hfraction, ?_⟩⟩
    rw [← hvalue, Int.natCast_add, Int.natCast_mul, Int.natCast_pow]
    rfl

/-- Without grouping, the text is the one of the other package. -/
theorem amountToString_eq (amount decimals : Nat) :
    amountToString amount decimals false =
      .ok (String.ofList (withFraction '.' (splitDecimals (Nat.toDigits 10 amount) decimals).1
        (trimZeros (padStart decimals (splitDecimals (Nat.toDigits 10 amount) decimals).2)))) := by
  have htext : (toString (amount : Int)).toList = Nat.toDigits 10 amount := by
    change amount.repr.toList = _
    rw [Nat.toList_repr]
  rw [amountToString, htext, withFraction_eq]
  rfl

/-- What is shown is read back. -/
theorem stringToAmount_amountToString (amount decimals : Nat) :
    (amountToString amount decimals false >>= fun text => stringToAmount text decimals) =
      .ok amount := by
  rw [amountToString_eq, ok_bind]
  exact stringToAmount_of_decimalOf (splitDecimals_decimalOf amount decimals)

section

variable [TokenProgram]

/-- What the wallet signs is the amount that the session manager grants. -/
theorem intoAmountInternal_amountToString (h : TokenProgram.ConvertsUiAmounts) (amount : UInt64)
    (decimals : UInt8) :
    UiTokenAmount.intoAmountInternal ⟨SdkTs.amountToString amount decimals⟩ decimals = .ok amount := by
  have hparts := splitDecimals_decimalOf amount.toNat decimals.toNat
  have htext : SdkTs.amountToString amount decimals = String.ofList (withFraction '.'
      (splitDecimals (Nat.toDigits 10 amount.toNat) decimals.toNat).1
      (trimZeros (padStart decimals.toNat
        (splitDecimals (Nat.toDigits 10 amount.toNat) decimals.toNat).2))) := by
    rw [withFraction_eq]
    rfl
  refine intoAmountInternal_eq_ok.2 ?_
  rw [h.eq, htext, UiAmount.tryUiAmountIntoAmount_of_decimalOf hparts amount.toNat_lt,
    UInt64.ofNat_toNat]

theorem amount_texts_faithful (h : TokenProgram.ConvertsUiAmounts) (amount : UInt64)
    (decimals : UInt8) :
    UiTokenAmount.intoAmountInternal ⟨SdkTs.amountToString amount decimals⟩ decimals = .ok amount ∧
      (amountToString amount.toNat decimals.toNat false >>=
        fun text => stringToAmount text decimals.toNat) = .ok amount.toNat :=
  ⟨intoAmountInternal_amountToString h amount decimals,
    stringToAmount_amountToString amount.toNat decimals.toNat⟩

end

/-- Fewer digits than decimals. -/
theorem amount_texts_faithful_sample :
    let _ := Native.tokenProgram
    SdkTs.amountToString 105 5 = "0.00105" ∧
      UiTokenAmount.intoAmountInternal ⟨SdkTs.amountToString 105 5⟩ 5 = .ok 105 ∧
      (amountToString (105 : UInt64).toNat (5 : UInt8).toNat false >>=
        fun text => stringToAmount text (5 : UInt8).toNat) = .ok (105 : UInt64).toNat :=
  let _ := Native.tokenProgram
  ⟨by decide +kernel, amount_texts_faithful Native.tokenProgram_convertsUiAmounts 105 5⟩

end FogoSessions.SdkReact
