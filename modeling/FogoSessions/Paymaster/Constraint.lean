import FogoSessions.Paymaster.DataConstraint
import FogoSessions.Paymaster.Transaction

/-!
# Transaction variations

`constraint/mod.rs`: a variation is a kind of transaction that a domain sponsors, either any
transaction of whitelisted programs (V0) or a sequence of constrained instructions (V1).
-/

namespace FogoSessions.Paymaster

open Lib Solana

/-- The keys that constraints refer to by role. -/
structure ContextualDomainKeys where
  domainRegistry : Pubkey
  sponsor : Pubkey
deriving DecidableEq

/-! ## Account constraints -/

inductive ContextualPubkey where
  | explicit (pubkey : Pubkey)
  | sponsor
  | nonFeePayerSigner
  | domainRegistry
deriving DecidableEq

/-- Whether the account is the one, or one of those, that the constraint means. -/
def ContextualPubkey.denotes (c : ContextualPubkey) (account : Pubkey) (signers : List Pubkey)
    (contextualDomainKeys : ContextualDomainKeys) : Bool :=
  match c with
  | .explicit pubkey => account = pubkey
  | .nonFeePayerSigner => account ∈ signers.drop 1
  | .sponsor => account = contextualDomainKeys.sponsor
  | .domainRegistry => account = contextualDomainKeys.domainRegistry

/-- What the error says of an account that should have been included, or excluded. -/
def ContextualPubkey.complaint (expectInclude : Bool) : ContextualPubkey → String
  | .explicit _ => if expectInclude then "is not explicitly included" else "is explicitly excluded"
  | .nonFeePayerSigner =>
    if expectInclude then "is not a non-fee-payer signer"
    else "should be excluded as a non-fee-payer signer"
  | .sponsor =>
    if expectInclude then "is not the sponsor account"
    else "should be excluded as the sponsor account"
  | .domainRegistry =>
    if expectInclude then "is not the domain registry account"
    else "should be excluded as the domain registry account"

def ContextualPubkey.matchesAccount (c : ContextualPubkey) (account : Pubkey)
    (signers : List Pubkey) (contextualDomainKeys : ContextualDomainKeys) (expectInclude : Bool)
    (instructionIndex : Nat) : Except String Unit :=
  require (expectInclude = c.denotes account signers contextualDomainKeys)
    s!"Instruction {instructionIndex}: Account {account} {c.complaint expectInclude}"

structure AccountConstraint where
  index : UInt16
  includes : List ContextualPubkey
  excludes : List ContextualPubkey
deriving DecidableEq

/-- No exclude matches, and some include does unless there are none. -/
def AccountConstraint.checkAccount (c : AccountConstraint) (account : Pubkey)
    (signers : List Pubkey) (contextualDomainKeys : ContextualDomainKeys) (instructionIndex : Nat) :
    Except String Unit := do
  c.excludes.forM fun excluded =>
    excluded.matchesAccount account signers contextualDomainKeys false instructionIndex
  if ¬ c.includes.isEmpty then
    let matchesAny := c.includes.any fun included =>
      (included.matchesAccount account signers contextualDomainKeys true instructionIndex).isOk
    require matchesAny
      (s!"Instruction {instructionIndex}: Account {account} does not match any include constraints")

/-! ## Instruction constraints -/

/-- `SubstantiveProgramId`: never a program that constraints do not apply to. -/
structure SubstantiveProgramId where
  pubkey : Pubkey
  substantive : pubkey ∉ nonSubstantiveProgramIds
deriving DecidableEq

theorem systemProgram_substantive : Ids.systemProgram ∉ nonSubstantiveProgramIds := by
  decide +kernel

theorem tokenProgram_substantive : Ids.tokenProgram ∉ nonSubstantiveProgramIds := by
  decide +kernel

structure ParsedInstructionConstraint where
  program : SubstantiveProgramId
  accounts : List AccountConstraint
  data : List ParsedDataConstraint
  required : Bool

section

variable [External]

/-- The account check of one constraint, on the key its index resolves to. -/
def ParsedInstructionConstraint.validateAccount (transaction : TransactionToValidate)
    (ix : InstructionWithIndex) (contextualDomainKeys : ContextualDomainKeys)
    (accountConstraint : AccountConstraint) : Handler Unit := do
  let accountPubkey ← ChainIndex.resolveInstructionAccountPubkey transaction.message ix
    accountConstraint.index.toNat
  let signers := transaction.message.staticAccountKeys.take transaction.signatures.length
  .lift (mapErr (.err ∘ badRequest)
    (accountConstraint.checkAccount accountPubkey signers contextualDomainKeys ix.index))

def ParsedInstructionConstraint.validateInstruction (c : ParsedInstructionConstraint)
    (transaction : TransactionToValidate) (ix : InstructionWithIndex)
    (contextualDomainKeys : ContextualDomainKeys) (variationName : String) : Handler Unit := do
  let programId ← .lift (ix.instruction.programId transaction.message.staticAccountKeys)
  if programId ≠ c.program.pubkey then
    reply (badRequest (s!"Transaction instruction {ix.index} program ID {programId} does not match "
      ++ s!"expected ID {c.program.pubkey} for variation {variationName}"))
  else
    c.accounts.forM (validateAccount transaction ix contextualDomainKeys)
    .lift (c.data.forM fun dataConstraint => mapFault badRequest (dataConstraint.checkData ix))

/-! ## Variations -/

structure VariationProgramWhitelist where
  name : String
  whitelistedPrograms : List Pubkey

omit [External] in
def VariationProgramWhitelist.validateTransaction (v : VariationProgramWhitelist)
    (transaction : TransactionToValidate) : Outcome ErrorReply Unit :=
  transaction.message.instructions.forM fun instruction => do
    let programId ← instruction.programId transaction.message.staticAccountKeys
    require (programId ∈ v.whitelistedPrograms) (.err (badRequest
      (s!"Transaction contains unauthorized program ID {programId} for variation {v.name}")))

/-- The rate is an IEEE double, kept as its bits. -/
structure MintSwapRate where
  mint : Pubkey
  rate : UInt64
deriving DecidableEq

/-- `rate != 0.0`: neither of the two zeros. -/
def MintSwapRate.nonzero (r : MintSwapRate) : Bool := r.rate ≠ 0 ∧ r.rate ≠ 0x8000000000000000

structure ParsedVariationOrderedInstructionConstraints where
  name : String
  instructions : List ParsedInstructionConstraint
  maxGasSpend : UInt64
  paymasterFeeLamports : Option UInt64
  swapIntoFogo : List MintSwapRate

namespace ParsedVariationOrderedInstructionConstraints

omit [External] in
def validateComputeUnits (v : ParsedVariationOrderedInstructionConstraints)
    (transaction : TransactionToValidate) : Outcome ErrorReply Unit :=
  require (transaction.gasSpend ≤ v.maxGasSpend) (.err (badRequest
    (s!"Transaction gas spend {transaction.gasSpend} exceeds maximum allowed {v.maxGasSpend}")))

omit [External] in
def validatePaymasterFees (v : ParsedVariationOrderedInstructionConstraints)
    (transaction : TransactionToValidate) : Except String Unit :=
  require (transaction.totalFeeLamports ≥ v.paymasterFeeLamports.getD 0)
    "Paymaster fee is not sufficient"

/-- The check of a constraint against the next instruction, if there is one. -/
def validateNext (v : ParsedVariationOrderedInstructionConstraints)
    (transaction : TransactionToValidate) (contextualDomainKeys : ContextualDomainKeys)
    (constraintIndex : Nat) (constraint : ParsedInstructionConstraint) :
    List InstructionWithIndex → Handler Unit
  | ix :: _ => constraint.validateInstruction transaction ix contextualDomainKeys v.name
  | [] => reply (badRequest
      (s!"Ran out of instructions while validating constraint {constraintIndex} for variation {v.name}"))

/-- The loop over the constraints, from the one at `constraintIndex` on: an instruction is consumed
    when it satisfies the constraint, and a constraint that is not satisfied is skipped unless it
    is required. Returns the instructions that are left. -/
def matchConstraints (v : ParsedVariationOrderedInstructionConstraints)
    (transaction : TransactionToValidate) (contextualDomainKeys : ContextualDomainKeys) :
    Nat → List ParsedInstructionConstraint → List InstructionWithIndex →
      Handler (List InstructionWithIndex)
  | _, [], ixs => return ixs
  | constraintIndex, constraint :: constraints, ixs => do
    match ← (validateNext v transaction contextualDomainKeys constraintIndex constraint ixs).attempt with
    | .ok _ =>
      matchConstraints v transaction contextualDomainKeys (constraintIndex + 1) constraints ixs.tail
    | .error e =>
      if constraint.required then reply e
      else matchConstraints v transaction contextualDomainKeys (constraintIndex + 1) constraints ixs

def validateInstructionConstraints (v : ParsedVariationOrderedInstructionConstraints)
    (transaction : TransactionToValidate) (contextualDomainKeys : ContextualDomainKeys) :
    Handler Unit := do
  let rest ← matchConstraints v transaction contextualDomainKeys 0 v.instructions
    transaction.substantiveInstructions
  match rest with
  | [] => return
  | ix :: _ => reply (badRequest
      (s!"Ran out of constraints while validating instruction {ix.index} for variation {v.name}"))

def validateTransaction (v : ParsedVariationOrderedInstructionConstraints)
    (transaction : TransactionToValidate) (contextualDomainKeys : ContextualDomainKeys) :
    Handler Unit := do
  .lift (v.validateComputeUnits transaction)
  .lift (mapErr (.err ∘ badRequest) (v.validatePaymasterFees transaction))
  v.validateInstructionConstraints transaction contextualDomainKeys

end ParsedVariationOrderedInstructionConstraints

end

inductive ParsedTransactionVariation where
  | v0 (variation : VariationProgramWhitelist)
  | v1 (variation : ParsedVariationOrderedInstructionConstraints)

def ParsedTransactionVariation.name : ParsedTransactionVariation → String
  | v0 v => v.name
  | v1 v => v.name

def ParsedTransactionVariation.swapIntoFogo : ParsedTransactionVariation → List MintSwapRate
  | v0 _ => []
  | v1 v => v.swapIntoFogo

end FogoSessions.Paymaster
