import FogoSessions.Paymaster.DomainState
import FogoSessions.Solana.Native

/-!
# Swapping tolls into FOGO

`paymaster/src/swap.rs`: the paymaster asks an exchange for a quote on most of its balance of a token,
then for a transaction that gives at least nearly the quoted output, and signs and sends it.
-/

namespace FogoSessions.Paymaster

open Lib Solana

/-- `MAX_SLIPPAGE_BPS`. -/
def maxSlippageBps : UInt64 := 50

/-- `PERCENTAGE_TO_SWAP_BPS`. -/
def percentageToSwapBps : UInt64 := 9900

/-- `native_mint::ID`. -/
def nativeMint : Pubkey :=
  .ofNat 0x069b8857feab8184fb687f634618c035dac439dc1aeb3b5598a0f00000000001

/-- What a quote is asked for. -/
structure TwoHopQuoteParams where
  inputMint : Pubkey
  outputMint : Pubkey
  inputAmount : UInt64
  isExactIn : Bool
  directOnly : Bool

/-- A quote: the estimated output, and the way there. -/
structure TwoHopQuoteResponse where
  tokenEstOut : UInt64
  route : List Pubkey
  pools : List Pubkey

/-- What a transaction is asked for; the output is the least that is accepted. -/
structure TwoHopSwapParams where
  userAddress : Pubkey
  route : List Pubkey
  pools : List Pubkey
  isExactIn : Bool
  inputAmount : UInt64
  outputAmount : UInt64
  useAlt : Bool
  includeFee : Bool

/-- How a transaction ended. -/
inductive ConfirmationResultInternal where
  | success (signature : Signature)
  | failed (signature : Signature) (error : String)
  | unconfirmedPreflightFailure (signature : Signature) (error : String)
deriving DecidableEq

/-- How the swap of a token ended. -/
structure SwapConfirmationResult where
  mint : Pubkey
  confirmation : ConfirmationResultInternal
deriving DecidableEq

/-! ## What a swap calls -/

/-- What a swap asks of the node, the exchange and the signer. -/
inductive SwapOp where
  | rpcGetAccount (account : Pubkey)
  /-- `/dex/twoHopQuote` -/
  | getTwoHopQuote (params : TwoHopQuoteParams)
  /-- `/dex/txs/twoHopSwap` -/
  | getTwoHopSwap (params : TwoHopSwapParams)
  | signMessage (sponsor : Pubkey) (message : Bytes)
  | sendAndConfirm (transaction : VersionedTransaction) (skipPreflight : Bool)

/-- An error of other code is its text. -/
@[reducible] def SwapAns : SwapOp → Type
  | .rpcGetAccount _ => Except String Bytes
  | .getTwoHopQuote _ => Except String TwoHopQuoteResponse
  | .getTwoHopSwap _ => Except String String
  | .signMessage _ _ => Signature
  | .sendAndConfirm _ _ => Except String ConfirmationResultInternal

/-- A step of a swap; it may return an error with a text. -/
abbrev Swap (α : Type) := Task SwapOp SwapAns (Fault String) α

section

variable [External] [TokenProgram]

/-- The balance of the associated token account. -/
def getSplAtaBalance (owner mint : Pubkey) : Swap UInt64 := do
  let ata := associatedTokenAddress owner mint
  let account ← .perform (.rpcGetAccount ata)
  let data ← .lift (mapErr .err account)
  let tokenAccount ← .lift (okOr (TokenProgram.unpackAccount data)
    (.err "Failed to unpack token account"))
  return tokenAccount.amount

omit [TokenProgram] in
def parseTransactionFromBase64 (encodedTx : String) : Outcome String VersionedTransaction := do
  let txBytes ← okOr (External.decodeBase64 encodedTx)
    (.err "Failed to decode base64 transaction")
  okOr (External.decodeTransaction txBytes) (.err "Failed to deserialize transaction")

omit [TokenProgram] in
/-- A transaction of the exchange that gives at least nearly the quoted output. -/
def getValiantSwapTransaction (mintIn : Pubkey) (amountIn : UInt64)
    (transactionSponsorPubkey : Pubkey) : Swap VersionedTransaction := do
  let quote ← .perform (.getTwoHopQuote {
    inputMint := mintIn, outputMint := nativeMint, inputAmount := amountIn, isExactIn := true,
    directOnly := false })
  let quoteResponse ← .lift (mapErr .err quote)
  let scaled ← .lift (okOr (checkedMul quoteResponse.tokenEstOut (10000 - maxSlippageBps))
    (.err "Overflow on minimum output amount calculation"))
  let amountOutMin := scaled / 10000
  let swap ← .perform (.getTwoHopSwap {
    userAddress := transactionSponsorPubkey, route := quoteResponse.route,
    pools := quoteResponse.pools, isExactIn := true, inputAmount := amountIn,
    outputAmount := amountOutMin, useAlt := true, includeFee := true })
  let serializedTx ← .lift (mapErr .err swap)
  .lift (parseTransactionFromBase64 serializedTx)

/-- The program is built with overflow checks, so a product that does not fit is a panic. -/
def swapToken (mint transactionSponsor : Pubkey) : Swap SwapConfirmationResult := do
  let splBalance ← getSplAtaBalance transactionSponsor mint
  let scaled ← .lift (okOr (checkedMul splBalance percentageToSwapBps) .panic)
  let amountToSwap := scaled / 10000
  let swapTransaction ← getValiantSwapTransaction mint amountToSwap transactionSponsor
  let signature ← .perform
    (.signMessage transactionSponsor (External.serialize swapTransaction.message))
  let signedTransaction ← .lift (mapErr
    (fun e => .err s!"Failed to sign swap transaction: {e.message}")
    (signedVersionedTransaction swapTransaction signature))
  let result ← .perform (.sendAndConfirm signedTransaction true)
  let confirmation ← .lift (mapErr
    (fun e => .err s!"Failed to send and confirm swap transaction for mint {mint}: {e}") result)
  return { mint, confirmation }

/-! ## The amounts of a swap -/

/-- The part of the balance that is swapped. -/
structure Sized (balance amount : UInt64) : Prop where
  exact : amount.toNat = balance.toNat * percentageToSwapBps.toNat / 10000
  le_balance : amount ≤ balance

/-- The chain answers with the account's data and the exchange with the estimate, if they answer; the
    requests have the amounts that these give. -/
def swapContract (data : Bytes) (balance tokenEstOut : UInt64) : Task.Contract SwapOp SwapAns where
  rely
    | .rpcGetAccount _, account => ∀ d, account = .ok d → d = data
    | .getTwoHopQuote _, quote => ∀ q, quote = .ok q → q.tokenEstOut = tokenEstOut
    | .getTwoHopSwap _, _ | .signMessage _ _, _ | .sendAndConfirm _ _, _ => True
  guar
    | .getTwoHopQuote params => Sized balance params.inputAmount
    | .getTwoHopSwap params => Sized balance params.inputAmount ∧
        params.outputAmount.toNat = tokenEstOut.toNat * (10000 - maxSlippageBps.toNat) / 10000
    | .rpcGetAccount _ | .signMessage _ _ | .sendAndConfirm _ _ => True

variable {data : Bytes} {balance tokenEstOut : UInt64}

omit [External] [TokenProgram] in
/-- A product that fits gives the part of the balance. -/
theorem sized_of_checkedMul {scaled : UInt64}
    (h : checkedMul balance percentageToSwapBps = some scaled) : Sized balance (scaled / 10000) := by
  have hscaled := checkedMul_eq_some.1 h
  have hexact : (scaled / 10000).toNat = balance.toNat * percentageToSwapBps.toNat / 10000 := by
    rw [UInt64.toNat_div, hscaled]
    rfl
  refine ⟨hexact, UInt64.le_iff_toNat_le.2 ?_⟩
  rw [hexact]
  change balance.toNat * 9900 / 10000 ≤ balance.toNat
  omega

omit [TokenProgram] in
/-- The exchange is asked for the amount, and for nearly the output that it estimated. -/
theorem getValiantSwapTransaction_meets {amount : UInt64} (hsized : Sized balance amount)
    (mint sponsor : Pubkey) : (getValiantSwapTransaction mint amount sponsor).Meets
      (swapContract data balance tokenEstOut) NoPanic := by
  refine Task.meets_perform_bind.2 ⟨hsized, fun quote hquote => ?_⟩
  refine Task.noPanic_lift_bind noPanic_mapErr fun response hresponse => ?_
  have hest := hquote response (mapErr_eq_ok.1 hresponse)
  refine Task.noPanic_lift_bind noPanic_okOr fun scaled hscaled => ?_
  have hproduct := checkedMul_eq_some.1 (okOr_eq_ok.1 hscaled)
  refine Task.meets_perform_bind.2 ⟨⟨hsized, ?_⟩, fun swap _ => ?_⟩
  · rw [UInt64.toNat_div, hproduct, hest]
    rfl
  · refine Task.noPanic_lift_bind noPanic_mapErr fun serializedTx _ => ?_
    exact noPanic_okOr.bind fun _ _ => noPanic_okOr

/-- A balance is read or an error returned. -/
theorem getSplAtaBalance_meets_iff {account : TokenAccount}
    (hdata : TokenProgram.unpackAccount data = some account) (owner mint : Pubkey)
    {post : Outcome String UInt64 → Prop} (herr : ∀ e, post (.error (.err e))) :
    (getSplAtaBalance owner mint).Meets (swapContract data balance tokenEstOut) post ↔
      post (.ok account.amount) := by
  refine Task.meets_perform_bind.trans ⟨fun h => ?_, fun hpost => ⟨trivial, fun answer hanswer => ?_⟩⟩
  · have hread := h.2 (.ok data) (fun d hd => (Except.ok.inj hd).symm)
    change Task.Meets _ post (.lift (okOr (TokenProgram.unpackAccount data) _) >>= _) at hread
    rw [hdata] at hread
    exact hread
  · cases answer with
    | error e => exact herr e
    | ok d =>
      obtain rfl : d = data := hanswer d rfl
      change Task.Meets _ post (.lift (okOr (TokenProgram.unpackAccount d) _) >>= _)
      rw [hdata]
      exact hpost

/-- The scaled balance is computed before anything is requested. -/
theorem swapToken_meets_iff {account : TokenAccount}
    (hdata : TokenProgram.unpackAccount data = some account) (mint sponsor : Pubkey) :
    (swapToken mint sponsor).Meets (swapContract data account.amount tokenEstOut) NoPanic ↔
      ∃ scaled, checkedMul account.amount percentageToSwapBps = some scaled := by
  unfold swapToken
  refine Task.meets_bind.trans (Iff.trans (getSplAtaBalance_meets_iff hdata sponsor mint ?_) ?_)
  · intro e
    exact noPanic_bail
  cases hscaled : checkedMul account.amount percentageToSwapBps with
  | none =>
    refine iff_of_false (fun h => ?_) (by simp)
    simp only [Task.Continue, hscaled] at h
    exact h rfl
  | some scaled =>
    refine iff_of_true ?_ ⟨scaled, rfl⟩
    simp only [Task.Continue, hscaled]
    have hswap : (getValiantSwapTransaction mint (scaled / 10000) sponsor).Meets
        (swapContract data account.amount tokenEstOut) NoPanic :=
      getValiantSwapTransaction_meets (sized_of_checkedMul hscaled) mint sponsor
    refine Task.noPanic_lift_bind noPanic_ok fun _ heq => ?_
    cases heq
    refine Task.noPanic_bind hswap fun transaction => ?_
    refine Task.meets_perform_bind.2 ⟨trivial, fun signature _ => ?_⟩
    refine Task.noPanic_lift_bind noPanic_mapErr fun signed _ => ?_
    refine Task.meets_perform_bind.2 ⟨trivial, fun result _ => ?_⟩
    exact Task.noPanic_lift_bind noPanic_mapErr fun confirmation _ => noPanic_ok

/-- **Swap sizing.** Whatever the exchange and the chain answer, a swap of the balance asks for the
    amounts that it should and does not panic, if and only if the scaled balance fits a word. -/
theorem swapToken_exact_iff {account : TokenAccount}
    (hdata : TokenProgram.unpackAccount data = some account) (tokenEstOut : UInt64)
    (mint sponsor : Pubkey) :
    (swapToken mint sponsor).Meets (swapContract data account.amount tokenEstOut) NoPanic ↔
      account.amount.toNat * percentageToSwapBps.toNat < 2 ^ 64 := by
  rw [swapToken_meets_iff hdata]
  constructor
  · rintro ⟨scaled, hscaled⟩
    rw [← checkedMul_eq_some.1 hscaled]
    exact scaled.toNat_lt
  · intro hfits
    refine Option.ne_none_iff_exists'.1 fun hnone => ?_
    have hlarge := checkedMul_eq_none.1 hnone
    omega

end

/-! ## Two balances -/

namespace SwapSample

scoped instance : External := .uncalled
scoped instance : TokenProgram := Native.tokenProgram

/-- A token account of the paymaster's. -/
def tokenData (amount : UInt64) : Bytes :=
  (FixedBytes.ofNat 1 : Pubkey).bytes ++ (FixedBytes.ofNat 2 : Pubkey).bytes ++
    leBytes 8 amount.toNat ++ zeros 36 ++ [1] ++ zeros 56

/-- The account that these bytes are unpacked to. -/
def tokenAccount (amount : UInt64) : TokenAccount where
  mint := .ofNat 1
  owner := .ofNat 2
  amount := amount
  delegate := none
  delegatedAmount := 0

end SwapSample

open SwapSample

/-- A balance of a thousand is swapped without a panic. -/
theorem swapToken_exact_iff_sample :
    (swapToken (.ofNat 1) (.ofNat 2)).Meets (swapContract (tokenData 1000) 1000 77) NoPanic :=
  have hdata : TokenProgram.unpackAccount (tokenData 1000) = some (tokenAccount 1000) := by
    decide +kernel
  (swapToken_exact_iff hdata 77 (.ofNat 1) (.ofNat 2)).2 (by decide)

/-- About two million tokens of nine decimals are too many. -/
theorem swapToken_panics : ¬ (swapToken (.ofNat 1) (.ofNat 2)).Meets
    (swapContract (tokenData 2000000000000000) 2000000000000000 77) NoPanic := by
  have hdata : TokenProgram.unpackAccount (tokenData 2000000000000000) =
      some (tokenAccount 2000000000000000) := by decide +kernel
  have hnone : checkedMul 2000000000000000 percentageToSwapBps = none := by decide
  intro h
  obtain ⟨scaled, hscaled⟩ := (swapToken_meets_iff hdata (.ofNat 1) (.ofNat 2)).1 h
  cases hnone.symm.trans hscaled

end FogoSessions.Paymaster
