import FogoSessions.Lib.Borsh
import FogoSessions.Lib.Word
import FogoSessions.Solana.Message

/-!
# Gas spend

`constraint/gas.rs`: what the paymaster takes a transaction to cost in lamports, from its
signatures and its compute-budget instructions.
-/

namespace FogoSessions.Paymaster

open Lib Solana

/-- The instructions of the compute-budget program. -/
inductive ComputeBudgetInstruction where
  | unused
  | requestHeapFrame (bytes : UInt32)
  | setComputeUnitLimit (units : UInt32)
  | setComputeUnitPrice (microLamports : UInt64)
  | setLoadedAccountsDataSizeLimit (bytes : UInt32)
deriving DecidableEq

def ComputeBudgetInstruction.decode : Decoder ComputeBudgetInstruction := do
  match ← Decoder.u8 with
  | 0 => return .unused
  | 1 => .requestHeapFrame <$> Decoder.u32
  | 2 => .setComputeUnitLimit <$> Decoder.u32
  | 3 => .setComputeUnitPrice <$> Decoder.u64
  | 4 => .setLoadedAccountsDataSizeLimit <$> Decoder.u32
  | _ => Decoder.fail (.invalidData "Unexpected variant tag")

/-- `DEFAULT_COMPUTE_UNIT_LIMIT`. -/
def defaultComputeUnitLimit : UInt64 := 200000

/-- The compute-budget instructions seen so far. -/
structure BudgetRequests where
  cuLimit : Option UInt64
  microLamportsPerCu : Option UInt64
  requestHeapFrame : Bool
  setLoadedAccountsDataSizeLimit : Bool

def BudgetRequests.none : BudgetRequests where
  cuLimit := .none
  microLamportsPerCu := .none
  requestHeapFrame := false
  setLoadedAccountsDataSizeLimit := false

/-- Takes note of a compute-budget instruction; a second one of the same kind is an error. -/
def BudgetRequests.note (r : BudgetRequests) :
    ComputeBudgetInstruction → Outcome String BudgetRequests
  | .setComputeUnitLimit units =>
    if r.cuLimit.isSome then bail "Multiple SetComputeUnitLimit instructions found"
    else .ok { r with cuLimit := some units.toUInt64 }
  | .setComputeUnitPrice microLamports =>
    if r.microLamportsPerCu.isSome then bail "Multiple SetComputeUnitPrice instructions found"
    else .ok { r with microLamportsPerCu := some microLamports }
  | .requestHeapFrame _ =>
    if r.requestHeapFrame then bail "Multiple RequestHeapFrame instructions found"
    else .ok { r with requestHeapFrame := true }
  | .setLoadedAccountsDataSizeLimit _ =>
    if r.setLoadedAccountsDataSizeLimit then
      bail "Multiple SetLoadedAccountsDataSizeLimit instructions found"
    else .ok { r with setLoadedAccountsDataSizeLimit := true }
  | .unused => bail "Unused compute budget instruction found"

/-- One round of the loop over the instructions. -/
def BudgetRequests.visit (keys : List Pubkey) (r : BudgetRequests) (ix : CompiledInstruction) :
    Outcome String BudgetRequests := do
  let programId ← ix.programId keys
  if programId ≠ Ids.computeBudget then return r
  match ComputeBudgetInstruction.decode.tryFromSlice ix.data with
  | .ok cuIx => r.note cuIx
  | .error _ => bail "Invalid compute budget instruction data"

/-- The priority fee the compute-budget instructions ask for. -/
def processComputeBudgetInstructions (transaction : VersionedTransaction) :
    Outcome String UInt64 := do
  let msg := transaction.message
  let r ← msg.instructions.foldlM (BudgetRequests.visit msg.staticAccountKeys) .none
  let priorityFee :=
    saturatingMul (r.cuLimit.getD defaultComputeUnitLimit) (r.microLamportsPerCu.getD 0) / 1000000
  return priorityFee

/-- `PRECOMPILE_SIGNATURE_PROGRAMS`. -/
def precompileSignaturePrograms : List Pubkey :=
  [Ids.ed25519Program, Ids.secp256k1Program, Ids.secp256r1Program]

/-- The number of signatures an instruction declares, when its program verifies signatures. -/
def precompileSignatures (keys : List Pubkey) (ix : CompiledInstruction) :
    Outcome String (Option UInt64) := do
  let programId ← ix.programId keys
  if programId ∈ precompileSignaturePrograms then return some (ix.data.head?.getD 0).toUInt64
  else return none

def getNumberPrecompileSignatures (transaction : VersionedTransaction) :
    Outcome String UInt64 := do
  let counts ← transaction.message.instructions.mapM
    (precompileSignatures transaction.message.staticAccountKeys)
  return (counts.filterMap id).foldl saturatingAdd 0

/-- `FeeStructure::default().lamports_per_signature`. -/
def lamportsPerSignature : UInt64 := 5000

def computeGasSpend (transaction : VersionedTransaction) : Outcome String UInt64 := do
  let precompile ← getNumberPrecompileSignatures transaction
  let nSignatures := saturatingAdd (lenAsU64 transaction.signatures.length) precompile
  let priorityFee ← processComputeBudgetInstructions transaction
  return saturatingAdd (saturatingMul nSignatures lamportsPerSignature) priorityFee

end FogoSessions.Paymaster
