import FogoSessions.Paymaster.FeeHandler
import FogoSessions.Paymaster.Greedy
import FogoSessions.Paymaster.Malformed

/-!
# The quote and the count

The handler quotes the fee of a variation rounded up to whole units of a mint, the validator counts
the tolls that a transaction pays in lamports. `fee_quote_exact` says that the quote is the least
amount that the validator accepts, and what the count is for any tolls.
-/

namespace FogoSessions.Paymaster

open Lib Solana

/-! ## The count -/

section

variable [External] {view : View} {message : VersionedMessage} {feeCoefficients : FeeCoefficients}

/-- The instruction is a `pay_toll` of that amount, in a mint that the lookups resolve. -/
def PaysToll (view : View) (message : VersionedMessage) (ix : CompiledInstruction)
    (toll : UInt64 × Pubkey) : Prop :=
  parsePayTollInstruction ix = .ok toll.1 ∧
    accountKey view.entry message ix payTollInstructionMintIndex = some toll.2

/-- The tollbooth instructions of the message pay these tolls. -/
def PaysTolls (view : View) (message : VersionedMessage) (tolls : List (UInt64 × Pubkey)) : Prop :=
  List.Forall₂ (PaysToll view message)
    (message.instructions.filter (isTollbooth message.staticAccountKeys)) tolls

theorem addToll_other {ix : InstructionWithIndex} {total : UInt64}
    (hrange : ix.instruction.programIdIndex.toNat < message.staticAccountKeys.length)
    (hix : isTollbooth message.staticAccountKeys ix.instruction = false) :
    (addToll message feeCoefficients total ix).Returns (view.contract message) (· = total) := by
  have hkey := List.getElem?_eq_getElem hrange
  refine (Task.returns_lift.2 ⟨_, index_eq_ok.2 hkey, rfl⟩).bind fun programId hprogram => ?_
  have hother : programId ≠ ProgramIds.tollbooth := by
    rintro rfl
    rw [isTollbooth, hkey, hprogram] at hix
    simp at hix
  rw [if_neg hother]
  exact rfl

theorem addToll_toll {ix : InstructionWithIndex} {total : UInt64} {toll : UInt64 × Pubkey}
    (hix : isTollbooth message.staticAccountKeys ix.instruction = true)
    (htoll : PaysToll view message ix.instruction toll) :
    (addToll message feeCoefficients total ix).Returns (view.contract message) fun total' =>
      total' = saturatingAdd total
        (saturatingMul toll.1 ((feeCoefficients toll.2).getD 0)) := by
  obtain ⟨hamount, hmint⟩ := htoll
  have hkey : message.staticAccountKeys[ix.instruction.programIdIndex.toNat]? =
      some ProgramIds.tollbooth := by simpa [isTollbooth] using hix
  refine (Task.returns_lift.2 ⟨_, index_eq_ok.2 hkey, rfl⟩).bind fun programId hprogram => ?_
  rw [if_pos hprogram.symm]
  refine (Task.returns_lift.2 ⟨_, mapFault_eq_ok.2 hamount, rfl⟩).bind fun amount hamount => ?_
  refine (Task.returns_of_decides (ChainIndex.resolve_decides ix _) hmint).bind fun mint h => ?_
  obtain rfl : mint = toll.2 := Option.some.inj (h.symm.trans hmint)
  rw [hamount]
  exact rfl

theorem foldlM_addToll (ixs : List InstructionWithIndex) (total : UInt64)
    (tolls : List (UInt64 × Pubkey))
    (hrange : ∀ ix ∈ ixs,
      ix.instruction.programIdIndex.toNat < message.staticAccountKeys.length)
    (htolls : List.Forall₂ (PaysToll view message)
      ((ixs.map (·.instruction)).filter (isTollbooth message.staticAccountKeys)) tolls) :
    (ixs.foldlM (addToll message feeCoefficients) total).Returns (view.contract message)
      fun total' => total'.toNat =
        min (total.toNat + (tolls.map (tollLamports feeCoefficients)).sum) u64Max := by
  induction ixs generalizing total tolls with
  | nil =>
    cases htolls
    change total.toNat = _
    simpa using toNat_le_u64Max total
  | cons ix ixs ih =>
    have hrest : ∀ ix' ∈ ixs,
        ix'.instruction.programIdIndex.toNat < message.staticAccountKeys.length :=
      fun ix' hix' => hrange ix' (List.mem_cons_of_mem ix hix')
    rw [List.map_cons] at htolls
    cases hix : isTollbooth message.staticAccountKeys ix.instruction with
    | false =>
      rw [List.filter_cons_of_neg (by simp [hix])] at htolls
      refine (addToll_other (hrange ix List.mem_cons_self) hix).bind ?_
      rintro _ rfl
      exact ih _ tolls hrest htolls
    | true =>
      rw [List.filter_cons_of_pos hix] at htolls
      cases htolls with
      | cons htoll htolls =>
        refine (addToll_toll hix htoll).bind ?_
        rintro _ rfl
        refine (ih _ _ hrest htolls).mono fun total' htotal => ?_
        rw [htotal, toNat_saturatingAdd, toNat_saturatingMul, List.map_cons, List.sum_cons,
          tollLamports]
        omega

/-- The count of any tolls, in any order. -/
theorem computePaymasterFees_returns {transaction : VersionedTransaction}
    (hrange : ProgramsInRange transaction.message) {tolls : List (UInt64 × Pubkey)}
    (htolls : PaysTolls view transaction.message tolls) :
    (computePaymasterFees transaction feeCoefficients).Returns (view.contract transaction.message)
      fun total =>
        total.toNat = min (tolls.map (tollLamports feeCoefficients)).sum u64Max := by
  have hixs : ∀ ix ∈ enumerate transaction.message.instructions,
      ix.instruction.programIdIndex.toNat < transaction.message.staticAccountKeys.length :=
    fun ix hix => hrange _ (instruction_mem_of_mem_enumerate hix)
  refine (foldlM_addToll _ 0 tolls hixs ?_).mono fun total htotal => ?_
  · rwa [map_instruction_enumerate]
  rw [htotal, UInt64.toNat_zero, Nat.zero_add]

end

/-! ## The quote -/

/-- The rounded-up quote is the least amount whose saturated value covers the fee. -/
theorem le_min_mul_iff {fee amount coefficient : UInt64} (hc : coefficient ≠ 0) :
    fee.toNat ≤ min (amount.toNat * coefficient.toNat) u64Max ↔
      fee.toNat ⌈/⌉ coefficient.toNat ≤ amount.toNat := by
  have hpos : 0 < coefficient.toNat := Nat.pos_of_ne_zero fun h => hc (UInt64.toNat_inj.1 h)
  have hfee := toNat_le_u64Max fee
  rw [ceilDiv_le_iff_le_mul hpos, le_min_iff, and_iff_left hfee, Nat.mul_comm]

/-- **The quote is sufficient and minimal.** Whatever the fee of a V1 variation and the non-zero
    coefficient of a mint, the handler quotes an amount; a transaction whose only toll is that
    amount in that mint passes the fee check, and one whose only toll is one unit less fails it.
    For any tolls, the count is the sum of their lamports, up to the largest word. -/
theorem fee_quote_exact [External] :
    (∀ state query v coefficient, Finds state query (.v1 v) coefficient → 1 ≤ coefficient →
      ∃ q, feeHandler state query = .ok q ∧
        (∀ view transaction, ProgramsInRange transaction.message →
          PaysTolls view transaction.message [(q, query.mint)] →
          (computePaymasterFees transaction state.feeCoefficients).Returns
            (view.contract transaction.message) fun total =>
              ∀ t : TransactionToValidate, t.totalFeeLamports = total →
                v.validatePaymasterFees t = .ok ⟨⟩) ∧
        (0 < q → ∀ view transaction, ProgramsInRange transaction.message →
          PaysTolls view transaction.message [(q - 1, query.mint)] →
          (computePaymasterFees transaction state.feeCoefficients).Returns
            (view.contract transaction.message) fun total =>
              ∀ t : TransactionToValidate, t.totalFeeLamports = total →
                v.validatePaymasterFees t = .error "Paymaster fee is not sufficient")) ∧
    ∀ view transaction feeCoefficients tolls, ProgramsInRange transaction.message →
      PaysTolls view transaction.message tolls →
      (computePaymasterFees transaction feeCoefficients).Returns
        (view.contract transaction.message) fun total =>
          total.toNat = min (tolls.map (tollLamports feeCoefficients)).sum u64Max := by
  refine ⟨fun state query v coefficient hfinds hone => ?_,
    fun view transaction feeCoefficients tolls hrange htolls =>
      computePaymasterFees_returns hrange htolls⟩
  have hc : coefficient ≠ 0 := by
    rintro rfl
    exact absurd hone (by decide)
  obtain ⟨q, hq, hvalue⟩ :=
    divCeil_of_ne_zero (ε := ErrorReply) (a := v.paymasterFeeLamports.getD 0) hc
  -- the check of one toll, in terms of its amount
  have hcheck {view : View} {transaction : VersionedTransaction} {amount : UInt64}
      (hrange : ProgramsInRange transaction.message)
      (htolls : PaysTolls view transaction.message [(amount, query.mint)]) :
      (computePaymasterFees transaction state.feeCoefficients).Returns
        (view.contract transaction.message) fun total =>
          v.paymasterFeeLamports.getD 0 ≤ total ↔ q ≤ amount := by
    refine (computePaymasterFees_returns hrange htolls).mono fun total htotal => ?_
    simp only [List.map_cons, List.map_nil, List.sum_cons, List.sum_nil, tollLamports,
      hfinds.coefficient_eq, Option.getD_some, Nat.add_zero] at htotal
    rw [UInt64.le_iff_toNat_le, htotal, le_min_mul_iff hc, ← hvalue, UInt64.le_iff_toNat_le]
  refine ⟨q, (feeHandler_of_finds hfinds).trans hq, fun view transaction hrange htolls => ?_,
    fun hpos view transaction hrange htolls => ?_⟩
  · refine (hcheck hrange htolls).mono fun total htotal t ht => ?_
    refine require_eq_ok.2 ?_
    rw [ht]
    exact htotal.2 (UInt64.le_refl q)
  · refine (hcheck hrange htolls).mono fun total htotal t ht => ?_
    refine if_neg ?_
    rw [ht]
    intro hle
    have hlt := UInt64.le_iff_toNat_le.1 (htotal.1 hle)
    have hpos : 0 < q.toNat := UInt64.lt_iff_toNat_lt.1 hpos
    have hone : (1 : UInt64) ≤ q := UInt64.le_iff_toNat_le.2 hpos
    rw [UInt64.toNat_sub_of_le _ _ hone, UInt64.toNat_one] at hlt
    omega

/-- A fee of 10 lamports is 4 units of a mint that counts 3 lamports for each. -/
theorem fee_quote_exact_four :
    letI := External.uncalled
    letI mint : Pubkey := .ofNat 5
    letI v : ParsedVariationOrderedInstructionConstraints :=
      { name := "variation", instructions := [], maxGasSpend := 0, paymasterFeeLamports := some 10
        swapIntoFogo := [] }
    letI transaction : VersionedTransaction :=
      { signatures := []
        message := .legacy
          { header := ⟨1, 0, 1⟩
            accountKeys := [.ofNat 7, ProgramIds.tollbooth, mint]
            recentBlockhash := .ofNat 0
            instructions := [⟨1, [0, 0, 0, 0, 2], [0, 4, 0, 0, 0, 0, 0, 0, 0, 0]⟩] } }
    letI state := singleDomain (FeeCoefficients.insert (fun _ => none) mint 3) (.v1 v)
    feeHandler state ⟨some "domain", none, "variation", mint⟩ = .ok 4 ∧
      (computePaymasterFees transaction state.feeCoefficients).Returns
        ((⟨fun _ _ => none, fun _ => False⟩ : View).contract transaction.message) fun total =>
          ∀ t : TransactionToValidate, t.totalFeeLamports = total →
            v.validatePaymasterFees t = .ok ⟨⟩ := by
  let _ := External.uncalled
  have hfinds : Finds (singleDomain (FeeCoefficients.insert (fun _ => none) (.ofNat 5) 3)
      (.v1 { name := "variation", instructions := [], maxGasSpend := 0
             paymasterFeeLamports := some 10, swapIntoFogo := [] }))
      ⟨some "domain", none, "variation", .ofNat 5⟩ _ 3 := singleDomain_finds (if_pos rfl)
  obtain ⟨q, hq, hpasses, -⟩ := fee_quote_exact.1 _ _ _ _ hfinds (by decide)
  have hfour := feeHandler_of_finds hfinds
  obtain rfl : q = 4 := Except.ok.inj (hq.symm.trans hfour)
  refine ⟨hfour, hpasses _ ⟨[], .legacy ⟨⟨1, 0, 1⟩, _, _, _⟩⟩ ?_ ?_⟩
  · exact List.forall_mem_singleton.2 (Nat.succ_lt_succ (Nat.succ_pos 1))
  · exact .cons ⟨rfl, rfl⟩ .nil

end FogoSessions.Paymaster
