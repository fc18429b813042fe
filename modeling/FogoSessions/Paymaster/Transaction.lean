import FogoSessions.Paymaster.Fee
import FogoSessions.Paymaster.Gas

/-!
# The transaction to validate

`constraint/transaction.rs`: what the paymaster computes of a transaction once, before it tries the
variations of a domain on it.
-/

namespace FogoSessions.Paymaster

open Lib Solana

/-- `NON_SUBSTANTIVE_PROGRAM_IDS`. -/
def nonSubstantiveProgramIds : List Pubkey := [Ids.computeBudget, ProgramIds.tollbooth]

structure TransactionToValidate where
  message : VersionedMessage
  signatures : List Signature
  substantiveInstructions : List InstructionWithIndex
  gasSpend : UInt64
  totalFeeLamports : UInt64
deriving DecidableEq

/-- The instruction, if its program is one that constraints apply to. -/
def substantive? {ε : Type} (keys : List Pubkey) (ix : CompiledInstruction) :
    Outcome ε (Option CompiledInstruction) := do
  let programId ← ix.programId keys
  return if programId ∈ nonSubstantiveProgramIds then none else some ix

/-- The instructions that constraints apply to, numbered after the others are dropped. -/
def parseSubstantiveInstructions {ε : Type} (message : VersionedMessage) :
    Outcome ε (List InstructionWithIndex) := do
  let kept ← message.instructions.filterMapM (substantive? message.staticAccountKeys)
  return enumerate kept

/-- The instruction's program is known and one that constraints apply to. -/
def isSubstantive (keys : List Pubkey) (ix : CompiledInstruction) : Bool :=
  keys[ix.programIdIndex.toNat]?.any (· ∉ nonSubstantiveProgramIds)

theorem filterMapM_substantive?_eq_ok {ε : Type} {keys : List Pubkey} :
    ∀ {ixs kept : List CompiledInstruction},
      ixs.filterMapM (substantive? keys) = (.ok kept : Outcome ε _) →
        kept = ixs.filter (isSubstantive keys)
  | [], kept, h => (pure_eq_ok.1 h).symm
  | ix :: ixs, kept, h => by
    rw [List.filterMapM_cons] at h
    obtain ⟨o, ho, h⟩ := bind_eq_ok.1 h
    obtain ⟨programId, hprogram, ho⟩ := bind_eq_ok.1 ho
    have hkey : keys[ix.programIdIndex.toNat]? = some programId := index_eq_ok.1 hprogram
    rw [pure_eq_ok] at ho
    by_cases hsub : programId ∈ nonSubstantiveProgramIds
    · rw [if_pos hsub] at ho
      subst ho
      have hdrop : isSubstantive keys ix = false := by simp [isSubstantive, hkey, hsub]
      rw [List.filter_cons_of_neg (by simp [hdrop])]
      exact filterMapM_substantive?_eq_ok h
    · rw [if_neg hsub] at ho
      subst ho
      have hkeep : isSubstantive keys ix = true := by simp [isSubstantive, hkey, hsub]
      obtain ⟨rest, hrest, h⟩ := bind_eq_ok.1 h
      rw [List.filter_cons_of_pos hkeep, ← filterMapM_substantive?_eq_ok hrest]
      exact (pure_eq_ok.1 h).symm

variable [External]

def TransactionToValidate.parse (transaction : VersionedTransaction)
    (feeCoefficients : FeeCoefficients) : Handler TransactionToValidate := do
  let substantiveInstructions ← .lift (parseSubstantiveInstructions transaction.message)
  let gasSpend ← .lift (mapFault badRequest (computeGasSpend transaction))
  let totalFeeLamports ← computePaymasterFees transaction feeCoefficients
  return { message := transaction.message, signatures := transaction.signatures,
           substantiveInstructions, gasSpend, totalFeeLamports }

/-- What a parsed transaction consists of. -/
structure Parsed (transaction : VersionedTransaction) (t : TransactionToValidate) : Prop where
  message_eq : t.message = transaction.message
  signatures_eq : t.signatures = transaction.signatures
  substantive_eq : parseSubstantiveInstructions transaction.message =
    (.ok t.substantiveInstructions : Outcome ErrorReply _)
  gasSpend_eq : computeGasSpend transaction = .ok t.gasSpend

omit [External] in
/-- The substantive instructions are those of the message whose program is substantive, in order. -/
theorem Parsed.map_instruction {transaction : VersionedTransaction} {t : TransactionToValidate}
    (ht : Parsed transaction t) :
    t.substantiveInstructions.map (·.instruction) =
      transaction.message.instructions.filter
        (isSubstantive transaction.message.staticAccountKeys) := by
  obtain ⟨kept, hkept, h⟩ := bind_eq_ok.1 ht.substantive_eq
  rw [← pure_eq_ok.1 h, map_instruction_enumerate, filterMapM_substantive?_eq_ok hkept]

theorem parse_ensures {c : Task.Contract Op Ans} {transaction : VersionedTransaction}
    {feeCoefficients : FeeCoefficients} {P : UInt64 → Prop}
    (hfees : (computePaymasterFees transaction feeCoefficients).Ensures c P) :
    (TransactionToValidate.parse transaction feeCoefficients).Ensures c fun t =>
      Parsed transaction t ∧ P t.totalFeeLamports := by
  unfold TransactionToValidate.parse
  refine (Task.ensures_lift.2 fun _ h => h).bind fun ixs hixs => ?_
  refine (Task.ensures_lift.2 fun _ h => mapFault_eq_ok.1 h).bind fun gas hgas => ?_
  exact hfees.bind fun fees hfees => ⟨⟨rfl, rfl, hixs, hgas⟩, hfees⟩

end FogoSessions.Paymaster
