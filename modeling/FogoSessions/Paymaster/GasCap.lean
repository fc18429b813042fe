import FogoSessions.Paymaster.Constraint

/-!
# The gas spend against the runtime's charge

`runtimeCharge` is what the runtime takes from the fee payer: 5000 lamports for each signature and
for each signature a precompile instruction declares, and the compute-unit price times the limit,
rounded up. `computeGasSpend_covers_iff` says exactly for which transactions the paymaster's
figure is at least that.
-/

namespace FogoSessions.Paymaster

open Lib Solana

/-! ## What the runtime charges -/

section Charge

variable (keys : List Pubkey)

/-- The compute-budget instruction that `ix` is, if it is one that decodes. -/
def budgetInstruction (ix : CompiledInstruction) : Option ComputeBudgetInstruction :=
  if keys[ix.programIdIndex.toNat]? = some Ids.computeBudget then
    (ComputeBudgetInstruction.decode.tryFromSlice ix.data).toOption
  else none

def ComputeBudgetInstruction.limit? : ComputeBudgetInstruction → Option Nat
  | .setComputeUnitLimit units => some units.toNat
  | _ => none

def ComputeBudgetInstruction.price? : ComputeBudgetInstruction → Option Nat
  | .setComputeUnitPrice microLamports => some microLamports.toNat
  | _ => none

/-- The value of the first instruction for which `value?` gives one. -/
def budgetValue (value? : ComputeBudgetInstruction → Option Nat)
    (ixs : List CompiledInstruction) : Option Nat :=
  ixs.findSome? fun ix => (budgetInstruction keys ix).bind value?

/-- The signatures an instruction declares: its first data byte, when its program is a
    signature-verifying precompile. -/
def declaredSignatures (ix : CompiledInstruction) : Nat :=
  match keys[ix.programIdIndex.toNat]? with
  | some programId =>
    if programId ∈ precompileSignaturePrograms then (ix.data.head?.getD 0).toNat else 0
  | none => 0

end Charge

namespace Charge

variable (tx : VersionedTransaction)

def keys : List Pubkey := tx.message.staticAccountKeys

/-- The transaction's signatures and the declared ones. -/
def signatures : Nat :=
  tx.signatures.length + (tx.message.instructions.map (declaredSignatures (keys tx))).sum

/-- The `SetComputeUnitLimit` value, if there is one. -/
def setLimit : Option Nat :=
  budgetValue (keys tx) ComputeBudgetInstruction.limit? tx.message.instructions

/-- The `SetComputeUnitPrice` value, 0 if there is none. -/
def price : Nat :=
  (budgetValue (keys tx) ComputeBudgetInstruction.price? tx.message.instructions).getD 0

/-- The number of instructions that are not compute-budget ones. -/
def nonBudget : Nat :=
  tx.message.instructions.countP fun ix =>
    (keys tx)[ix.programIdIndex.toNat]? ≠ some Ids.computeBudget

/-- The compute-unit limit of the transaction. -/
def limit : Nat := min ((setLimit tx).getD (200000 * nonBudget tx)) 1400000

/-- `⌈n / 10^6⌉`. -/
def ceilMicro (n : Nat) : Nat := (n + 999999) / 1000000

def priorityFee : Nat := ceilMicro (price tx * limit tx)

/-- What the runtime takes from the fee payer. -/
def runtimeCharge : Nat := 5000 * signatures tx + priorityFee tx

end Charge

/-! ## What the paymaster computes -/

/-- The limit and the price noted so far, as numbers. -/
def BudgetRequests.limit? (r : BudgetRequests) : Option Nat := r.cuLimit.map UInt64.toNat
def BudgetRequests.price? (r : BudgetRequests) : Option Nat := r.microLamportsPerCu.map UInt64.toNat

theorem note_values {r r' : BudgetRequests} {cuIx : ComputeBudgetInstruction}
    (h : r.note cuIx = .ok r') :
    r'.limit? = r.limit?.or cuIx.limit? ∧ r'.price? = r.price?.or cuIx.price? := by
  cases cuIx with
  | unused => cases h
  | requestHeapFrame bytes =>
    simp only [BudgetRequests.note] at h
    split at h
    · cases h
    · cases h
      simp [BudgetRequests.limit?, BudgetRequests.price?, ComputeBudgetInstruction.limit?,
        ComputeBudgetInstruction.price?]
  | setLoadedAccountsDataSizeLimit bytes =>
    simp only [BudgetRequests.note] at h
    split at h
    · cases h
    · cases h
      simp [BudgetRequests.limit?, BudgetRequests.price?, ComputeBudgetInstruction.limit?,
        ComputeBudgetInstruction.price?]
  | setComputeUnitLimit units =>
    simp only [BudgetRequests.note] at h
    split at h
    · cases h
    · rename_i hnone
      cases h
      have hn : r.cuLimit = none := by simpa using hnone
      simp [BudgetRequests.limit?, BudgetRequests.price?, ComputeBudgetInstruction.limit?,
        ComputeBudgetInstruction.price?, hn]
  | setComputeUnitPrice microLamports =>
    simp only [BudgetRequests.note] at h
    split at h
    · cases h
    · rename_i hnone
      cases h
      have hn : r.microLamportsPerCu = none := by simpa using hnone
      simp [BudgetRequests.limit?, BudgetRequests.price?, ComputeBudgetInstruction.limit?,
        ComputeBudgetInstruction.price?, hn]

/-- One round: the noted values are extended by those of the instruction. -/
theorem visit_values {keys : List Pubkey} {r r' : BudgetRequests} {ix : CompiledInstruction}
    (h : r.visit keys ix = .ok r') :
    r'.limit? = r.limit?.or ((budgetInstruction keys ix).bind (·.limit?)) ∧
      r'.price? = r.price?.or ((budgetInstruction keys ix).bind (·.price?)) := by
  obtain ⟨programId, hprogram, h⟩ := bind_eq_ok.1 h
  have hkey : keys[ix.programIdIndex.toNat]? = some programId := index_eq_ok.1 hprogram
  by_cases hid : programId = Ids.computeBudget
  · rw [if_neg (not_not.2 hid)] at h
    split at h
    · rename_i cuIx hdecode
      have hbudget : budgetInstruction keys ix = some cuIx := by
        simp [budgetInstruction, hkey, hid, hdecode, Except.toOption]
      simpa [hbudget] using note_values h
    · cases h
  · rw [if_pos hid] at h
    cases h
    have hbudget : budgetInstruction keys ix = none := by
      simp [budgetInstruction, hkey, hid]
    simp [hbudget]

/-- The whole loop: the first values of the list are the ones noted. -/
theorem foldlM_visit_values {keys : List Pubkey} :
    ∀ {ixs : List CompiledInstruction} {r r' : BudgetRequests},
      ixs.foldlM (BudgetRequests.visit keys) r = .ok r' →
      r'.limit? = r.limit?.or (budgetValue keys (·.limit?) ixs) ∧
        r'.price? = r.price?.or (budgetValue keys (·.price?) ixs)
  | [], r, r', h => by
    cases h
    simp [budgetValue]
  | ix :: ixs, r, r', h => by
    obtain ⟨r₁, hvisit, h⟩ := bind_eq_ok.1 h
    obtain ⟨hlimit, hprice⟩ := visit_values hvisit
    obtain ⟨ihlimit, ihprice⟩ := foldlM_visit_values h
    constructor
    · rw [ihlimit, hlimit, Option.or_assoc, budgetValue, budgetValue, List.findSome?_cons]
      cases (budgetInstruction keys ix).bind (·.limit?) <;> rfl
    · rw [ihprice, hprice, Option.or_assoc, budgetValue, budgetValue, List.findSome?_cons]
      cases (budgetInstruction keys ix).bind (·.price?) <;> rfl

/-- The priority fee as the paymaster computes it: rounded down, saturated before the division, and
    with a default limit that does not depend on the instructions. -/
def paymasterPriorityFee (tx : VersionedTransaction) : Nat :=
  min ((Charge.setLimit tx).getD 200000 * Charge.price tx) u64Max / 1000000

theorem processComputeBudgetInstructions_toNat {tx : VersionedTransaction} {fee : UInt64}
    (h : processComputeBudgetInstructions tx = .ok fee) :
    fee.toNat = paymasterPriorityFee tx := by
  obtain ⟨r, hr, h⟩ := bind_eq_ok.1 h
  cases h
  obtain ⟨hlimit, hprice⟩ := foldlM_visit_values hr
  have hl : (r.cuLimit.getD defaultComputeUnitLimit).toNat = (Charge.setLimit tx).getD 200000 := by
    rw [Charge.setLimit, Charge.keys, ← Option.none_or (o := budgetValue _ _ _)]
    change _ = (BudgetRequests.none.limit?.or _).getD 200000
    rw [← hlimit, BudgetRequests.limit?]
    cases r.cuLimit <;> rfl
  have hp : (r.microLamportsPerCu.getD 0).toNat = Charge.price tx := by
    rw [Charge.price, Charge.keys, ← Option.none_or (o := budgetValue _ _ _)]
    change _ = (BudgetRequests.none.price?.or _).getD 0
    rw [← hprice, BudgetRequests.price?]
    cases r.microLamportsPerCu <;> rfl
  rw [UInt64.toNat_div, toNat_saturatingMul, hl, hp]
  rfl

theorem precompileSignatures_toNat {keys : List Pubkey} {ix : CompiledInstruction}
    {count : Option UInt64} (h : precompileSignatures keys ix = .ok count) :
    (count.getD 0).toNat = declaredSignatures keys ix := by
  obtain ⟨programId, hprogram, h⟩ := bind_eq_ok.1 h
  have hkey : keys[ix.programIdIndex.toNat]? = some programId := index_eq_ok.1 hprogram
  rw [declaredSignatures, hkey]
  by_cases hid : programId ∈ precompileSignaturePrograms
  · rw [if_pos hid] at h
    cases h
    simp [hid]
  · rw [if_neg hid] at h
    cases h
    simp [hid]

theorem foldl_saturatingAdd_declared {keys : List Pubkey} :
    ∀ {ixs : List CompiledInstruction} {counts : List (Option UInt64)},
      ixs.mapM (precompileSignatures keys) = .ok counts → ∀ acc : UInt64,
        ((counts.filterMap id).foldl saturatingAdd acc).toNat =
          min (acc.toNat + (ixs.map (declaredSignatures keys)).sum) u64Max
  | [], counts, h, acc => by
    cases h
    simpa using toNat_le_u64Max acc
  | ix :: ixs, counts, h, acc => by
    rw [List.mapM_cons] at h
    obtain ⟨count, hcount, h⟩ := bind_eq_ok.1 h
    obtain ⟨rest, hrest, h⟩ := bind_eq_ok.1 h
    cases h
    have hdeclared := precompileSignatures_toNat hcount
    have ih := foldl_saturatingAdd_declared hrest
    rw [List.map_cons, List.sum_cons, ← hdeclared]
    cases count with
    | none => simpa using ih acc
    | some n =>
      have hcons : (some n :: rest).filterMap id = n :: rest.filterMap id := rfl
      rw [hcons, List.foldl_cons, ih, toNat_saturatingAdd]
      simp only [Option.getD_some]
      omega

/-- The paymaster's figure in closed form. -/
theorem computeGasSpend_toNat {tx : VersionedTransaction} {g : UInt64}
    (h : computeGasSpend tx = .ok g) :
    g.toNat = min (5000 * Charge.signatures tx + paymasterPriorityFee tx) u64Max := by
  obtain ⟨precompile, hprecompile, h⟩ := bind_eq_ok.1 h
  obtain ⟨fee, hfee, h⟩ := bind_eq_ok.1 h
  cases h
  obtain ⟨counts, hcounts, hsum⟩ := bind_eq_ok.1 hprecompile
  cases hsum
  have hdeclared := foldl_saturatingAdd_declared hcounts 0
  have hfive : lamportsPerSignature.toNat = 5000 := rfl
  rw [toNat_saturatingAdd, toNat_saturatingMul, toNat_saturatingAdd, lenAsU64, toNat_saturate,
    hdeclared, processComputeBudgetInstructions_toNat hfee, hfive, Charge.signatures, Charge.keys]
  simp only [UInt64.toNat_zero, zero_add]
  omega

/-! ## When the figure covers the charge -/

/-- The paymaster's priority fee covers the runtime's: there is no price; or the default limits
    agree, because at most one instruction is not a compute-budget one, and nothing is rounded or
    saturated; or a set limit is within the runtime's cap and nothing is rounded or saturated; or a
    set limit beyond the cap is large enough to make up for the rounding. -/
def PriorityCovered (price nonBudget : Nat) (setLimit : Option Nat) : Prop :=
  price = 0 ∨
  match setLimit with
  | none => nonBudget = 0 ∨ nonBudget = 1 ∧ 5 ∣ price ∧ 200000 * price < 2 ^ 64
  | some units =>
    if units ≤ 1400000 then units * price < 2 ^ 64 ∧ 1000000 ∣ units * price
    else 7 * price ≤ 5 * (min (units * price) u64Max / 1000000)

theorem ceilMicro_le_div_iff (n : Nat) :
    Charge.ceilMicro n ≤ min n u64Max / 1000000 ↔ n < 2 ^ 64 ∧ 1000000 ∣ n := by
  unfold Charge.ceilMicro u64Max
  omega

theorem priorityFee_covered_iff (tx : VersionedTransaction) :
    Charge.priorityFee tx ≤ paymasterPriorityFee tx ↔
      PriorityCovered (Charge.price tx) (Charge.nonBudget tx) (Charge.setLimit tx) := by
  unfold Charge.priorityFee paymasterPriorityFee Charge.limit PriorityCovered
  generalize Charge.price tx = p
  generalize Charge.nonBudget tx = n
  cases Charge.setLimit tx with
  | none =>
    simp only [Option.getD_none]
    rcases Nat.lt_or_ge n 2 with hn | hn
    · obtain rfl | rfl : n = 0 ∨ n = 1 := by omega
      · simp [Charge.ceilMicro]
      · have hmin : min (200000 * 1) 1400000 = 200000 := rfl
        rw [hmin, mul_comm p, ceilMicro_le_div_iff]
        omega
    · -- two instructions at least: the runtime's default limit is twice the paymaster's
      rcases Nat.eq_zero_or_pos p with rfl | hp
      · simp [Charge.ceilMicro]
      have hlimit : p * 400000 ≤ p * min (200000 * n) 1400000 :=
        Nat.mul_le_mul_left p (by omega)
      generalize p * min (200000 * n) 1400000 = q at hlimit
      unfold Charge.ceilMicro u64Max
      omega
  | some units =>
    simp only [Option.getD_some]
    split
    · rename_i hle
      rw [min_eq_left hle, mul_comm p, ceilMicro_le_div_iff]
      constructor
      · exact Or.inr
      · rintro (rfl | h)
        · simp
        · exact h
    · rename_i hgt
      rw [min_eq_right (by omega)]
      unfold Charge.ceilMicro
      omega

/-- The figure is at least the runtime's charge exactly when the priority fee is covered and the
    charge fits in 64 bits. -/
theorem runtimeCharge_le_iff {tx : VersionedTransaction} {g : UInt64}
    (h : computeGasSpend tx = .ok g) :
    Charge.runtimeCharge tx ≤ g.toNat ↔
      PriorityCovered (Charge.price tx) (Charge.nonBudget tx) (Charge.setLimit tx) ∧
        Charge.runtimeCharge tx < 2 ^ 64 := by
  rw [← priorityFee_covered_iff, computeGasSpend_toNat h]
  unfold Charge.runtimeCharge u64Max
  omega

/-- The V1 validation of a transaction, from parsing it on. -/
def validateV1 [External] (transaction : VersionedTransaction) (feeCoefficients : FeeCoefficients)
    (variation : ParsedVariationOrderedInstructionConstraints)
    (contextualDomainKeys : ContextualDomainKeys) : Handler Unit := do
  let t ← TransactionToValidate.parse transaction feeCoefficients
  variation.validateTransaction t contextualDomainKeys

theorem validateV1_ensures_gas [External] {tx : VersionedTransaction} {g : UInt64}
    (h : computeGasSpend tx = .ok g) (feeCoefficients : FeeCoefficients)
    (variation : ParsedVariationOrderedInstructionConstraints)
    (contextualDomainKeys : ContextualDomainKeys) :
    (validateV1 tx feeCoefficients variation contextualDomainKeys).Ensures .free fun _ =>
      g ≤ variation.maxGasSpend := by
  refine (parse_ensures (Task.ensures_true _)).bind fun t ht => ?_
  have hg : t.gasSpend = g := by
    have heq := ht.1.gasSpend_eq.symm.trans h
    cases heq
    rfl
  refine (Task.ensures_lift.2 fun _ hgas => require_eq_ok.1 hgas).bind fun _ hgas => ?_
  exact (Task.ensures_true _).mono fun _ _ => hg ▸ hgas

/-- **When the gas cap is sound.** For a transaction of which the paymaster computes a figure, the
    figure is at least the runtime's charge, and every V1 variation that accepts it bounds the
    charge by its `maxGasSpend`, exactly when the runtime's priority fee is covered and the charge
    fits in 64 bits. -/
theorem gasCap_sound_iff [External] (tx : VersionedTransaction) (g : UInt64)
    (h : computeGasSpend tx = .ok g) :
    (Charge.runtimeCharge tx ≤ g.toNat ∧
      ∀ feeCoefficients variation contextualDomainKeys,
        (validateV1 tx feeCoefficients variation contextualDomainKeys).Ensures .free fun _ =>
          Charge.runtimeCharge tx ≤ variation.maxGasSpend.toNat) ↔
      PriorityCovered (Charge.price tx) (Charge.nonBudget tx) (Charge.setLimit tx) ∧
        Charge.runtimeCharge tx < 2 ^ 64 := by
  rw [← runtimeCharge_le_iff h]
  refine ⟨And.left, fun hle => ⟨hle, fun feeCoefficients variation contextualDomainKeys => ?_⟩⟩
  refine (validateV1_ensures_gas h feeCoefficients variation contextualDomainKeys).mono ?_
  intro _ hmax
  exact hle.trans (UInt64.le_iff_toNat_le.1 hmax)

/-! ## A transaction that costs more than its figure -/

namespace Underpriced

/-- A price of one micro-lamport for each compute unit, no limit, and one more instruction: the
    runtime charges a fifth of a lamport, rounded up, the paymaster counts it as nothing. -/
def transaction : VersionedTransaction where
  signatures := [.ofNat 1]
  message := .legacy
    { header := ⟨1, 0, 2⟩
      accountKeys := [.ofNat 7, Ids.computeBudget, Ids.systemProgram]
      recentBlockhash := .ofNat 0
      instructions := [⟨1, [], [3, 1, 0, 0, 0, 0, 0, 0, 0]⟩, ⟨2, [], []⟩] }

/-- A variation that accepts it with a cap of 5000 lamports. -/
def variation : ParsedVariationOrderedInstructionConstraints where
  name := "any system instruction"
  instructions := [⟨⟨Ids.systemProgram, systemProgram_substantive⟩, [], [], true⟩]
  maxGasSpend := 5000
  paymasterFeeLamports := none
  swapIntoFogo := []

theorem gasCap_exceeded :
    letI := External.uncalled
    computeGasSpend transaction = .ok 5000 ∧ Charge.runtimeCharge transaction = 5001 ∧
      validateV1 transaction (fun _ => none) variation ⟨.ofNat 0, .ofNat 7⟩ = .done (.ok ()) ∧
      variation.maxGasSpend.toNat < Charge.runtimeCharge transaction :=
  ⟨by decide +kernel, by decide +kernel, rfl, by decide +kernel⟩

end Underpriced

/-- With the limit set and a whole number of lamports to pay, the figure is exact. -/
theorem gasCap_sound_iff_exact :
    letI := External.uncalled
    letI tx : VersionedTransaction :=
      { signatures := [.ofNat 1]
        message := .legacy
          { header := ⟨1, 0, 2⟩
            accountKeys := [.ofNat 7, Ids.computeBudget, Ids.systemProgram]
            recentBlockhash := .ofNat 0
            instructions := [⟨1, [], [3, 10, 0, 0, 0, 0, 0, 0, 0]⟩, ⟨1, [], [2, 160, 134, 1, 0]⟩] } }
    (Charge.runtimeCharge tx ≤ 5001 ∧
      ∀ feeCoefficients variation contextualDomainKeys,
        (validateV1 tx feeCoefficients variation contextualDomainKeys).Ensures .free fun _ =>
          Charge.runtimeCharge tx ≤ variation.maxGasSpend.toNat) ↔
      PriorityCovered (Charge.price tx) (Charge.nonBudget tx) (Charge.setLimit tx) ∧
        Charge.runtimeCharge tx < 2 ^ 64 :=
  letI := External.uncalled
  gasCap_sound_iff _ 5001 (by decide +kernel)

end FogoSessions.Paymaster
