import FogoSessions.Lib.Word
import FogoSessions.Paymaster.ChainIndex
import FogoSessions.Tollbooth.Program
import Mathlib.Data.List.Forall2

/-!
# Paymaster fees

`constraint/fee.rs`: the tolls a transaction pays, in lamports, as the paymaster counts them from
the tollbooth instructions it contains.
-/

namespace FogoSessions.Paymaster

open Lib Solana Tollbooth

def payTollInstructionMintIndex : Nat := 4

/-- The coefficient of each known mint. -/
abbrev FeeCoefficients := Pubkey → Option UInt64

def parsePayTollInstruction (instruction : CompiledInstruction) : Outcome String UInt64 :=
  match slice? instruction.data 0 1 with
  | none => bail "PayToll instruction data is too short"
  | some discriminator =>
    if discriminator = PayToll.discriminator then
      match PayToll.decode.tryFromSlice (instruction.data.drop 1) with
      | .ok payToll => .ok payToll.amount
      | .error _ => bail "Failed to deserialize PayToll instruction"
    else bail "Mismatching discriminator for PayToll instruction"

/-- An instruction list with each instruction's position. -/
def enumerate (instructions : List CompiledInstruction) : List InstructionWithIndex :=
  instructions.zipIdx.map fun (instruction, index) => { index, instruction }

theorem map_instruction_enumerate (ixs : List CompiledInstruction) :
    (enumerate ixs).map (·.instruction) = ixs := by
  unfold enumerate
  rw [List.map_map]
  exact List.zipIdx_map_fst 0 ixs

theorem instruction_mem_of_mem_enumerate {ixs : List CompiledInstruction}
    {ix : InstructionWithIndex} (h : ix ∈ enumerate ixs) : ix.instruction ∈ ixs :=
  map_instruction_enumerate ixs ▸ List.mem_map_of_mem h

variable [External]

/-- The toll of one instruction, on top of the tolls so far. -/
def addToll (message : VersionedMessage) (feeCoefficients : FeeCoefficients) (totalFee : UInt64)
    (ix : InstructionWithIndex) : Handler UInt64 := do
  let programId ← .lift (ix.instruction.programId message.staticAccountKeys)
  if programId = ProgramIds.tollbooth then
    let amount ← .lift (mapFault badRequest (parsePayTollInstruction ix.instruction))
    let mint ← ChainIndex.resolveInstructionAccountPubkey message ix payTollInstructionMintIndex
    return saturatingAdd totalFee (saturatingMul amount ((feeCoefficients mint).getD 0))
  else return totalFee

def computePaymasterFees (transaction : VersionedTransaction) (feeCoefficients : FeeCoefficients) :
    Handler UInt64 :=
  (enumerate transaction.message.instructions).foldlM
    (addToll transaction.message feeCoefficients) 0

/-! ## What the fee counts -/

section

variable (known : Pubkey → List Pubkey → Prop) (message : VersionedMessage)
  (feeCoefficients : FeeCoefficients)

omit [External] in
/-- The instruction is the tollbooth's. -/
def isTollbooth (keys : List Pubkey) (ix : CompiledInstruction) : Bool :=
  keys[ix.programIdIndex.toNat]? = some ProgramIds.tollbooth

omit [External] in
/-- The instruction is a `pay_toll` of that amount, with that mint at the place of the mint. -/
def Tolls (ix : CompiledInstruction) (toll : UInt64 × Pubkey) : Prop :=
  parsePayTollInstruction ix = .ok toll.1 ∧
    Resolves known message ix payTollInstructionMintIndex toll.2

omit [External] in
/-- The lamports that a toll counts for. -/
def tollLamports (toll : UInt64 × Pubkey) : Nat :=
  toll.1.toNat * ((feeCoefficients toll.2).getD 0).toNat

omit [External] in
/-- The total of the tolls that the instructions pay, up to the largest word. -/
def CountsTolls (ixs : List CompiledInstruction) (total : UInt64) : Prop :=
  ∃ tolls, List.Forall₂ (Tolls known message)
      (ixs.filter (isTollbooth message.staticAccountKeys)) tolls ∧
    total.toNat = min (tolls.map (tollLamports feeCoefficients)).sum u64Max

end

section

variable {known : Pubkey → List Pubkey → Prop} {signs : Pubkey → Bytes → Prop}
  {message : VersionedMessage} {feeCoefficients : FeeCoefficients}

omit [External] in
theorem CountsTolls.snoc_other {ixs : List CompiledInstruction} {total : UInt64}
    {ix : CompiledInstruction} (h : CountsTolls known message feeCoefficients ixs total)
    (hix : isTollbooth message.staticAccountKeys ix = false) :
    CountsTolls known message feeCoefficients (ixs ++ [ix]) total := by
  obtain ⟨tolls, htolls, htotal⟩ := h
  refine ⟨tolls, ?_, htotal⟩
  rw [List.filter_append, List.filter_cons_of_neg (by simp [hix]), List.filter_nil, List.append_nil]
  exact htolls

omit [External] in
theorem CountsTolls.snoc_toll {ixs : List CompiledInstruction} {total : UInt64}
    {ix : CompiledInstruction} {amount : UInt64} {mint : Pubkey}
    (h : CountsTolls known message feeCoefficients ixs total)
    (hix : isTollbooth message.staticAccountKeys ix = true)
    (htoll : Tolls known message ix (amount, mint)) :
    CountsTolls known message feeCoefficients (ixs ++ [ix])
      (saturatingAdd total (saturatingMul amount ((feeCoefficients mint).getD 0))) := by
  obtain ⟨tolls, htolls, htotal⟩ := h
  refine ⟨tolls ++ [(amount, mint)], ?_, ?_⟩
  · rw [List.filter_append, List.filter_cons_of_pos hix, List.filter_nil]
    exact List.rel_append htolls (.cons htoll .nil)
  · rw [toNat_saturatingAdd, toNat_saturatingMul, htotal, List.map_append, List.sum_append]
    simp only [List.map_cons, List.map_nil, List.sum_cons, List.sum_nil, tollLamports]
    omega

/-- The paymaster fee of a transaction counts the tolls of all its instructions. -/
theorem computePaymasterFees_ensures (transaction : VersionedTransaction)
    (feeCoefficients : FeeCoefficients) :
    (computePaymasterFees transaction feeCoefficients).Ensures (lookupContract known signs)
      (CountsTolls known transaction.message feeCoefficients transaction.message.instructions) := by
  have hloop := Task.ensures_foldlM (c := lookupContract known signs)
    (P := fun seen => CountsTolls known transaction.message feeCoefficients
      (seen.map InstructionWithIndex.instruction))
    (f := addToll transaction.message feeCoefficients) (fun seen total ix h => ?_)
    (enumerate transaction.message.instructions) [] 0 ⟨[], .nil, rfl⟩
  · rwa [List.nil_append, map_instruction_enumerate] at hloop
  rw [List.map_append]
  unfold addToll
  refine (Task.ensures_lift.2 fun _ h => h).bind fun programId hprogram => ?_
  have hkey := index_eq_ok.1 hprogram
  split
  · rename_i htollbooth
    refine (Task.ensures_lift.2 fun _ h => mapFault_eq_ok.1 h).bind fun amount hamount => ?_
    refine (ChainIndex.resolve_ensures _ _ _).bind fun mint hmint => ?_
    exact h.snoc_toll (by simp [isTollbooth, hkey, htollbooth]) ⟨hamount, hmint⟩
  · rename_i hother
    exact h.snoc_other (by simp [isTollbooth, hkey, hother])

end

end FogoSessions.Paymaster
