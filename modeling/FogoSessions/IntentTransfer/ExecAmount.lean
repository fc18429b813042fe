import FogoSessions.IntentTransfer.SignedQuote
import FogoSessions.IntentTransfer.Verify
import FogoSessions.Lib.Rounding

/-!
# The price of a relay

`intent-transfer/src/bridge/processor/bridge_ntt_tokens.rs`: what the relayer is paid, by its quote,
for the gas and the lamports that it spends on the destination chain.
-/

namespace FogoSessions.IntentTransfer

open Lib Solana

inductive WormholeChainId where
  | solana
  | fogo
deriving DecidableEq

def WormholeChainId.decimalsNative : WormholeChainId → Nat
  | solana => 9
  | fogo => 9

/-- The decimals of the gas price specification. -/
def WormholeChainId.decimalsGasPrice : WormholeChainId → Nat
  | solana => 15
  | fogo => 15

def lamportsPerSignature : Nat := 5000

def rentTokenAccountSolana : Nat := 2039280

def computeMsgValueAndGasLimitSolana (payDestinationAtaRent : Bool) : Nat × Nat :=
  let msgValue := 0
  let msgValue := saturatingAdd128 msgValue (2 * lamportsPerSignature + 7 * lamportsPerSignature + 1400000)
  let msgValue := saturatingAdd128 msgValue (2 * lamportsPerSignature + 7 * lamportsPerSignature)
  let msgValue := saturatingAdd128 msgValue (5000 + 3200000)
  let msgValue := saturatingAdd128 msgValue (5000 + 5000000)
  let msgValue := saturatingAdd128 msgValue 5000
  let msgValue :=
    if payDestinationAtaRent then saturatingAdd128 msgValue rentTokenAccountSolana else msgValue
  (msgValue, 250000)

def decimalsQuote : Nat := 10
def decimalsMax : Nat := 18

/-- The amount with other decimals. -/
def normalize (amount decimalsFrom decimalsTo : Nat) : Except Error Nat :=
  if decimalsTo < decimalsFrom then .ok (amount / 10 ^ (decimalsFrom - decimalsTo))
  else okOr (checkedMul128 amount (10 ^ (decimalsTo - decimalsFrom))) .arithmeticOverflow

def computeExecAmount (toChainId : WormholeChainId) (quote : SignedQuote) (gasLimit msgValue : Nat) :
    Except Error UInt64 := do
  let decimalsDestinationNative := toChainId.decimalsNative
  let decimalsDestinationGas := toChainId.decimalsGasPrice
  let decimalsSourceNative := WormholeChainId.fogo.decimalsNative
  let baseFee := quote.baseFee.toNat
  let sourcePrice := quote.sourcePrice.toNat
  let destinationPrice := quote.destinationPrice.toNat
  let destinationGasPrice := quote.destinationGasPrice.toNat
  let amountBase ← normalize baseFee decimalsQuote decimalsSourceNative
  let gasLimitCost ← okOr (checkedMul128 gasLimit destinationGasPrice) .arithmeticOverflow
  let gasLimitCostNormalized ← normalize gasLimitCost decimalsDestinationGas decimalsMax
  let gasProduct ← okOr (checkedMul128 gasLimitCostNormalized destinationPrice) .arithmeticOverflow
  let gasQuotient ← okOr (checkedDiv128 gasProduct sourcePrice) .arithmeticOverflow
  let amountGas ← normalize gasQuotient decimalsMax decimalsSourceNative
  let msgValueNormalized ← normalize msgValue decimalsDestinationNative decimalsMax
  let msgProduct ← okOr (checkedMul128 msgValueNormalized destinationPrice) .arithmeticOverflow
  let msgQuotient ← okOr (checkedDiv128 msgProduct sourcePrice) .arithmeticOverflow
  let amountMsgValue ← normalize msgQuotient decimalsMax decimalsSourceNative
  let amount ← okOr (checkedAdd128 amountBase amountGas) .arithmeticOverflow
  let totalAmount ← okOr (checkedAdd128 amount amountMsgValue) .arithmeticOverflow
  okOr (tryIntoU64 totalAmount) .foreign

/-! ## The total -/

/-- The base fee, and what the gas and the lamports cost on the source chain. -/
def execTotal (quote : SignedQuote) (gasLimit msgValue : Nat) : Nat :=
  quote.baseFee.toNat / 10 +
    gasLimit * quote.destinationGasPrice.toNat * 10 ^ 3 * quote.destinationPrice.toNat /
      (quote.sourcePrice.toNat * 10 ^ 9) +
    msgValue * 10 ^ 9 * quote.destinationPrice.toNat / (quote.sourcePrice.toNat * 10 ^ 9)

/-- The original logic, which rounds the ratio of the prices first. -/
def originalTotal (quote : SignedQuote) (gasLimit msgValue : Nat) : Nat :=
  let ratio := quote.destinationPrice.toNat * 10 ^ 18 / quote.sourcePrice.toNat
  quote.baseFee.toNat / 10 +
    gasLimit * quote.destinationGasPrice.toNat * 10 ^ 3 * ratio / 10 ^ 27 +
    msgValue * 10 ^ 9 * ratio / 10 ^ 27

theorem normalize_down {amount decimalsFrom decimalsTo : Nat} (h : decimalsTo < decimalsFrom) :
    normalize amount decimalsFrom decimalsTo = .ok (amount / 10 ^ (decimalsFrom - decimalsTo)) :=
  if_pos h

theorem normalize_up {amount decimalsFrom decimalsTo : Nat} (h : decimalsFrom ≤ decimalsTo) :
    normalize amount decimalsFrom decimalsTo =
      okOr (checkedMul128 amount (10 ^ (decimalsTo - decimalsFrom))) .arithmeticOverflow :=
  if_neg (Nat.not_lt.2 h)

/-- The amount with 18 decimals at the price, in units of the source chain. -/
def convert (quote : SignedQuote) (x : Nat) : Except Error Nat := do
  let product ← okOr (checkedMul128 x quote.destinationPrice.toNat) .arithmeticOverflow
  let quotient ← okOr (checkedDiv128 product quote.sourcePrice.toNat) .arithmeticOverflow
  return quotient / 10 ^ 9

/-- The computation, with the decimals of the two chains. -/
theorem computeExecAmount_eq {toChainId : WormholeChainId} {quote : SignedQuote}
    {gasLimit msgValue : Nat} :
    computeExecAmount toChainId quote gasLimit msgValue = (do
      let cost ← okOr (checkedMul128 gasLimit quote.destinationGasPrice.toNat) .arithmeticOverflow
      let gas ← okOr (checkedMul128 cost (10 ^ 3)) .arithmeticOverflow
      let amountGas ← convert quote gas
      let msg ← okOr (checkedMul128 msgValue (10 ^ 9)) .arithmeticOverflow
      let amountMsgValue ← convert quote msg
      let amount ← okOr (checkedAdd128 (quote.baseFee.toNat / 10) amountGas) .arithmeticOverflow
      let totalAmount ← okOr (checkedAdd128 amount amountMsgValue) .arithmeticOverflow
      okOr (tryIntoU64 totalAmount) .foreign) := by
  have hgas (x : Nat) : normalize x toChainId.decimalsGasPrice decimalsMax =
      okOr (checkedMul128 x (10 ^ 3)) .arithmeticOverflow := by
    cases toChainId <;> exact normalize_up (by decide)
  have hmsg (x : Nat) : normalize x toChainId.decimalsNative decimalsMax =
      okOr (checkedMul128 x (10 ^ 9)) .arithmeticOverflow := by
    cases toChainId <;> exact normalize_up (by decide)
  have hback (x : Nat) : normalize x decimalsMax WormholeChainId.fogo.decimalsNative =
      .ok (x / 10 ^ 9) :=
    normalize_down (by decide)
  have hbase (x : Nat) : normalize x decimalsQuote WormholeChainId.fogo.decimalsNative =
      .ok (x / 10) :=
    normalize_down (by decide)
  -- as a hypothesis the equation is rewritten with; as a `rfl` lemma it is left to the kernel
  have hok {α β : Type} (a : α) (f : α → Except Error β) : (Except.ok a >>= f) = f a := rfl
  simp only [computeExecAmount, convert, hgas, hmsg, hback, hbase, bind_assoc, hok, pure_bind]

theorem convert_eq_ok {quote : SignedQuote} {x y : Nat} :
    convert quote x = .ok y ↔ x * quote.destinationPrice.toNat ≤ u128Max ∧
      quote.sourcePrice.toNat ≠ 0 ∧
      x * quote.destinationPrice.toNat / (quote.sourcePrice.toNat * 10 ^ 9) = y := by
  simp only [convert, bind_eq_ok, okOr_eq_ok, checkedMul128_eq_some, checkedDiv128_eq_some, pure_eq_ok]
  constructor
  · rintro ⟨_, ⟨hle, rfl⟩, _, ⟨hne, rfl⟩, rfl⟩
    exact ⟨hle, hne, (Nat.div_div_eq_div_mul _ _ _).symm⟩
  · rintro ⟨hle, hne, rfl⟩
    exact ⟨_, ⟨hle, rfl⟩, _, ⟨hne, rfl⟩, Nat.div_div_eq_div_mul _ _ _⟩

/-- What is computed is the exact total. -/
theorem computeExecAmount_eq_ok {toChainId : WormholeChainId} {quote : SignedQuote}
    {gasLimit msgValue : Nat} {amount : UInt64}
    (h : computeExecAmount toChainId quote gasLimit msgValue = .ok amount) :
    quote.sourcePrice.toNat ≠ 0 ∧ amount.toNat = execTotal quote gasLimit msgValue := by
  rw [computeExecAmount_eq] at h
  simp only [bind_eq_ok, okOr_eq_ok, checkedMul128_eq_some, checkedAdd128_eq_some, convert_eq_ok,
    tryIntoU64_eq_some] at h
  obtain ⟨_, ⟨-, rfl⟩, _, ⟨-, rfl⟩, _, ⟨-, hne, rfl⟩, _, ⟨-, rfl⟩, _, ⟨-, -, rfl⟩, _, ⟨-, rfl⟩, _,
    ⟨-, rfl⟩, htotal⟩ := h
  exact ⟨hne, htotal⟩

/-! ## Nothing overflows -/

theorem convert_of_le (quote : SignedQuote) {x : Nat}
    (h : x * quote.destinationPrice.toNat ≤ u128Max) :
    convert quote x = if quote.sourcePrice.toNat = 0 then .error .arithmeticOverflow else
      .ok (x * quote.destinationPrice.toNat / (quote.sourcePrice.toNat * 10 ^ 9)) := by
  rw [convert, checkedMul128_of_le h, okOr_some, ok_bind, checkedDiv128]
  by_cases hzero : quote.sourcePrice.toNat = 0
  · rw [if_pos hzero, if_pos hzero]
    rfl
  · rw [if_neg hzero, if_neg hzero, okOr_some, ok_bind, ← Nat.div_div_eq_div_mul]
    rfl

/-- Two factors of 64 bits make a product of 128, and what is left of it after the conversion is small. -/
theorem convert_fits (quote : SignedQuote) {x : Nat} (hx : x < 2 ^ 64) :
    x * quote.destinationPrice.toNat ≤ u128Max ∧ (quote.sourcePrice.toNat ≠ 0 →
      x * quote.destinationPrice.toNat / (quote.sourcePrice.toNat * 10 ^ 9) * 10 ^ 9 ≤ u128Max) := by
  have hproduct : x * quote.destinationPrice.toNat ≤ u128Max := by
    have hle := Nat.mul_le_mul (Nat.le_pred_of_lt hx)
      (Nat.le_pred_of_lt quote.destinationPrice.toNat_lt)
    exact hle.trans (by decide)
  refine ⟨hproduct, ?_⟩
  intro hne
  have hone : 1 ≤ quote.sourcePrice.toNat := Nat.one_le_iff_ne_zero.2 hne
  have hscale : 10 ^ 9 ≤ quote.sourcePrice.toNat * 10 ^ 9 := Nat.le_mul_of_pos_left _ hone
  exact ((Nat.mul_le_mul_left _ hscale).trans (Nat.div_mul_le_self _ _)).trans hproduct

/-- The gas and the lamports of a relay to Solana fit into 64 bits, with 18 decimals. -/
theorem relay_fits {quote : SignedQuote} (hprice : quote.destinationGasPrice.toNat ≤ 73786976294)
    (payDestinationAtaRent : Bool) :
    (computeMsgValueAndGasLimitSolana payDestinationAtaRent).2 * quote.destinationGasPrice.toNat *
        10 ^ 3 < 2 ^ 64 ∧
      (computeMsgValueAndGasLimitSolana payDestinationAtaRent).1 * 10 ^ 9 < 2 ^ 64 := by
  have hlamports (payRent : Bool) : (computeMsgValueAndGasLimitSolana payRent).1 ≤ 11744280 := by
    cases payRent <;> decide
  have hgas : (computeMsgValueAndGasLimitSolana payDestinationAtaRent).2 = 250000 := rfl
  have hmsg := hlamports payDestinationAtaRent
  rw [hgas]
  omega

theorem sum_fits {base a b : Nat} (hbase : base < 2 ^ 64) (ha : a * 10 ^ 9 ≤ u128Max)
    (hb : b * 10 ^ 9 ≤ u128Max) : base / 10 + a ≤ u128Max ∧ base / 10 + a + b ≤ u128Max := by
  have hmax : u128Max = 340282366920938463463374607431768211455 := by decide
  omega

theorem computeExecAmount_of_fits {toChainId : WormholeChainId} {quote : SignedQuote}
    {gasLimit msgValue : Nat} (hgas : gasLimit * quote.destinationGasPrice.toNat * 10 ^ 3 < 2 ^ 64)
    (hmsg : msgValue * 10 ^ 9 < 2 ^ 64) :
    computeExecAmount toChainId quote gasLimit msgValue =
      if quote.sourcePrice.toNat = 0 then .error .arithmeticOverflow else
        okOr (tryIntoU64 (execTotal quote gasLimit msgValue)) .foreign := by
  have hmax : (2 ^ 64 : Nat) ≤ u128Max := by decide
  have hgasMul := hgas.le.trans hmax
  have hmsgMul := hmsg.le.trans hmax
  have hcost : gasLimit * quote.destinationGasPrice.toNat ≤ u128Max :=
    (Nat.le_mul_of_pos_right _ (by decide)).trans hgasMul
  obtain ⟨hgasProduct, hgasSmall⟩ := convert_fits quote hgas
  obtain ⟨hmsgProduct, hmsgSmall⟩ := convert_fits quote hmsg
  rw [computeExecAmount_eq, checkedMul128_of_le hcost, okOr_some, ok_bind,
    checkedMul128_of_le hgasMul, okOr_some, ok_bind, convert_of_le quote hgasProduct]
  by_cases hzero : quote.sourcePrice.toNat = 0
  · rw [if_pos hzero, if_pos hzero, error_bind]
  · obtain ⟨hsum, htotal⟩ := sum_fits quote.baseFee.toNat_lt (hgasSmall hzero) (hmsgSmall hzero)
    rw [if_neg hzero, if_neg hzero, ok_bind, checkedMul128_of_le hmsgMul, okOr_some, ok_bind,
      convert_of_le quote hmsgProduct, if_neg hzero, ok_bind, checkedAdd128_of_le hsum, okOr_some,
      ok_bind, checkedAdd128_of_le htotal, okOr_some, ok_bind, execTotal]

/-- **The payment is exact**: it is the total, and it is refused for a price of zero and for a total
    that does not fit, never because something on the way does not. -/
theorem computeExecAmount_exact (toChainId : WormholeChainId) {quote : SignedQuote}
    (hprice : quote.destinationGasPrice.toNat ≤ 73786976294) (payDestinationAtaRent : Bool)
    {msgValue gasLimit : Nat}
    (hvalues : computeMsgValueAndGasLimitSolana payDestinationAtaRent = (msgValue, gasLimit)) :
    ((∃ e, computeExecAmount toChainId quote gasLimit msgValue = .error e) ↔
      quote.sourcePrice = 0 ∨ 2 ^ 64 ≤ execTotal quote gasLimit msgValue) ∧
    (∀ amount, computeExecAmount toChainId quote gasLimit msgValue = .ok amount ↔
      quote.sourcePrice ≠ 0 ∧ amount.toNat = execTotal quote gasLimit msgValue) ∧
    (computeExecAmount toChainId quote gasLimit msgValue = .error .arithmeticOverflow ↔
      quote.sourcePrice = 0) := by
  obtain ⟨hgas, hmsg⟩ := relay_fits hprice payDestinationAtaRent
  rw [hvalues] at hgas hmsg
  rw [computeExecAmount_of_fits hgas hmsg]
  have hzero : quote.sourcePrice = 0 ↔ quote.sourcePrice.toNat = 0 := UInt64.toNat_inj.symm
  by_cases hsource : quote.sourcePrice.toNat = 0
  · rw [if_pos hsource]
    simp [hzero.2 hsource]
  · rw [if_neg hsource]
    have hne : quote.sourcePrice ≠ 0 := fun h => hsource (hzero.1 h)
    have hlimit : u64Max = 2 ^ 64 - 1 := rfl
    refine ⟨?_, ?_, ?_⟩
    · rw [or_iff_right hne, tryIntoU64]
      by_cases hle : execTotal quote gasLimit msgValue ≤ u64Max
      · rw [if_pos hle, okOr_some]
        simp only [reduceCtorEq, exists_false, false_iff]
        omega
      · rw [if_neg hle]
        refine iff_of_true ⟨_, rfl⟩ ?_
        omega
    · intro amount
      rw [okOr_eq_ok, tryIntoU64_eq_some, and_iff_right hne]
    · rw [iff_false_right hne, tryIntoU64]
      split
      · rintro ⟨⟩
      · rintro ⟨⟩

/-- A quote for a relay to Solana. -/
def quoteForSolana : SignedQuote where
  header := {
    quotePrefix := ⟨utf8 "EQ01", by decide⟩
    quoterAddress := .ofNat 0
    payeeAddress := .ofNat 0
    sourceChain := 0
    destinationChain := 1
    expiryTime := 0 }
  baseFee := 500000000
  destinationGasPrice := 10000
  sourcePrice := 2000000000
  destinationPrice := 1531800000000
  signature := .ofNat 0

theorem computeExecAmount_exact_sample :
    computeExecAmount .solana quoteForSolana 250000 9705000 = .ok 7484974250 := by
  have hprice : quoteForSolana.destinationGasPrice.toNat ≤ 73786976294 := by decide
  obtain ⟨-, hok, -⟩ := computeExecAmount_exact .solana hprice false rfl
  exact (hok 7484974250).2 ⟨by decide, by decide⟩

/-! ## The original logic -/

/-- **The payment covers the original one**, and exceeds it by no more than the amounts with 27
    decimals, rounded up. -/
theorem computeExecAmount_covers {toChainId : WormholeChainId} {quote : SignedQuote}
    {gasLimit msgValue : Nat} {amount : UInt64}
    (h : computeExecAmount toChainId quote gasLimit msgValue = .ok amount) :
    originalTotal quote gasLimit msgValue ≤ amount.toNat ∧
      amount.toNat - originalTotal quote gasLimit msgValue ≤
        (gasLimit * quote.destinationGasPrice.toNat * 10 ^ 3) ⌈/⌉ 10 ^ 27 +
          (msgValue * 10 ^ 9) ⌈/⌉ 10 ^ 27 := by
  obtain ⟨hne, hamount⟩ := computeExecAmount_eq_ok h
  have hsource : 0 < quote.sourcePrice.toNat := Nat.pos_of_ne_zero hne
  have hscale : (10 ^ 18 * 10 ^ 9 : Nat) = 10 ^ 27 := by decide
  have hcovers (x : Nat) :
      x * (quote.destinationPrice.toNat * 10 ^ 18 / quote.sourcePrice.toNat) / 10 ^ 27 ≤
        x * quote.destinationPrice.toNat / (quote.sourcePrice.toNat * 10 ^ 9) := by
    rw [← hscale]
    exact roundEarly_le_roundLate (by decide) hsource (by decide)
  have hexcess (x : Nat) :
      x * quote.destinationPrice.toNat / (quote.sourcePrice.toNat * 10 ^ 9) ≤
        x * (quote.destinationPrice.toNat * 10 ^ 18 / quote.sourcePrice.toNat) / 10 ^ 27 +
          x ⌈/⌉ 10 ^ 27 := by
    rw [← hscale]
    exact roundLate_le_roundEarly_add (by decide) hsource (by decide)
  rw [hamount, execTotal, originalTotal]
  constructor
  · exact Nat.add_le_add (Nat.add_le_add_left (hcovers _) _) (hcovers _)
  · have hgas := hexcess (gasLimit * quote.destinationGasPrice.toNat * 10 ^ 3)
    have hmsg := hexcess (msgValue * 10 ^ 9)
    omega

theorem computeExecAmount_covers_sample :
    originalTotal quoteForSolana 250000 9705000 ≤ 7484974250 ∧
      7484974250 - originalTotal quoteForSolana 250000 9705000 ≤ 2 := by
  have hrun : computeExecAmount .solana quoteForSolana 250000 9705000 = .ok 7484974250 := by
    decide +kernel
  exact computeExecAmount_covers hrun

end FogoSessions.IntentTransfer
