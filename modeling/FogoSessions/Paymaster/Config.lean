import FogoSessions.Lib.Hex
import FogoSessions.Paymaster.Templates

/-!
# Configured variations

`constraint/config.rs` and `config_manager/config.rs`: variations as an operator or a tenant writes
them, and their conversion into the form that is enforced.
-/

namespace FogoSessions.Paymaster

open Lib Solana IntentTransfer

/-! ## Data constraints -/

inductive DataValue where
  | u8 (value : UInt8)
  | u16 (value : UInt16)
  | u32 (value : UInt32)
  | u64 (value : UInt64)
  | bool (value : Bool)
  | pubkey (value : Pubkey)
  | bytes (value : String)
  | nttSignedQuoter (value : H160)
deriving DecidableEq

inductive DataConstraintSpecification where
  | lessThan (value : DataValue)
  | greaterThan (value : DataValue)
  | equalTo (values : List DataValue)
  | neq (values : List DataValue)
deriving DecidableEq

structure DataConstraint where
  startByte : UInt16
  constraint : DataConstraintSpecification
deriving DecidableEq

/-- The values, all of the type that `mapper` selects. -/
def extractValues {T : Type} (values : List DataValue) (mapper : DataValue → Option T) :
    Except String (List T) :=
  values.mapM fun value =>
    okOr (mapper value) "EqualTo/Neq constraint contains elements of different types"

/-- The text without a leading `0x`, if it has one. -/
def stripHexMark (value : String) : String :=
  match value.toList with
  | '0' :: 'x' :: rest => String.ofList rest
  | _ => value

def decodeHexBytes (value : String) : Except String Bytes :=
  let hexPart := stripHexMark value
  mapErr (fun e => s!"Invalid hex string {hexPart}: {e}") (Hex.decode hexPart)

def extractBytes (values : List DataValue) (expectedLength : Nat) : Except String (List Bytes) :=
  values.mapM fun
    | .bytes value => do
      let bytes ← decodeHexBytes value
      require (bytes.length = expectedLength)
        ("Multiple Bytes values in an EqualTo/Neq constraint must all have the same length. "
          ++ s!"Expected {expectedLength} bytes, got {bytes.length}")
      return bytes
    | _ => .error "EqualTo/Neq constraint contains elements of different types"

/-- `EqualTo` or `Neq` on integers. -/
def IntegerConstraint.exactMatch {T : Type} (isEqual : Bool) (values : List T) :
    IntegerConstraint T :=
  if isEqual then .equalTo values else .neq values

/-- `EqualTo` or `Neq` on other values. -/
def ScalarConstraint.exactMatch {T : Type} (isEqual : Bool) (values : List T) :
    ScalarConstraint T :=
  if isEqual then .equalTo values else .neq values

/-- The first value decides the type, and for bytes the length, that all must have. -/
def parseExactMatchValues (values : List DataValue) (isEqual : Bool) :
    Except String ParsedDataConstraintSpecification := do
  let first ← okOr values.head? "EqualTo/Neq constraints must include at least one value"
  match first with
  | .u8 _ =>
    let parsed ← extractValues values fun | .u8 v => some v | _ => none
    return .u8 (.exactMatch isEqual parsed)
  | .u16 _ =>
    let parsed ← extractValues values fun | .u16 v => some v | _ => none
    return .u16 (.exactMatch isEqual parsed)
  | .u32 _ =>
    let parsed ← extractValues values fun | .u32 v => some v | _ => none
    return .u32 (.exactMatch isEqual parsed)
  | .u64 _ =>
    let parsed ← extractValues values fun | .u64 v => some v | _ => none
    return .u64 (.exactMatch isEqual parsed)
  | .bool _ =>
    let parsed ← extractValues values fun | .bool v => some v | _ => none
    return .bool (.exactMatch isEqual parsed)
  | .pubkey _ =>
    let parsed ← extractValues values fun | .pubkey v => some v | _ => none
    return .pubkey (.exactMatch isEqual parsed)
  | .bytes value =>
    let firstValue ← decodeHexBytes value
    let values ← extractBytes values firstValue.length
    return .bytes (if isEqual then .equalTo firstValue.length values
      else .neq firstValue.length values)
  | .nttSignedQuoter _ =>
    let parsed ← extractValues values fun | .nttSignedQuoter v => some v | _ => none
    return .nttSignedQuoter (.exactMatch isEqual parsed)

def ParsedDataConstraintSpecification.tryFrom :
    DataConstraintSpecification → Except String ParsedDataConstraintSpecification
  | .lessThan (.u8 v) => .ok (.u8 (.lessThan v))
  | .lessThan (.u16 v) => .ok (.u16 (.lessThan v))
  | .lessThan (.u32 v) => .ok (.u32 (.lessThan v))
  | .lessThan (.u64 v) => .ok (.u64 (.lessThan v))
  | .lessThan _ => .error "LessThan constraints are only supported for unsigned integer types"
  | .greaterThan (.u8 v) => .ok (.u8 (.greaterThan v))
  | .greaterThan (.u16 v) => .ok (.u16 (.greaterThan v))
  | .greaterThan (.u32 v) => .ok (.u32 (.greaterThan v))
  | .greaterThan (.u64 v) => .ok (.u64 (.greaterThan v))
  | .greaterThan _ => .error "GreaterThan constraints are only supported for unsigned integer types"
  | .equalTo values => parseExactMatchValues values true
  | .neq values => parseExactMatchValues values false

def ParsedDataConstraint.tryFrom (dataConstraint : DataConstraint) :
    Except String ParsedDataConstraint := do
  let constraint ← ParsedDataConstraintSpecification.tryFrom dataConstraint.constraint
  return { startByte := dataConstraint.startByte, constraint }

/-! ## Variations -/

structure InstructionConstraint where
  program : SubstantiveProgramId
  accounts : List AccountConstraint
  data : List DataConstraint
  required : Bool
  requiresWrappedNativeTokens : Bool
deriving DecidableEq

def ParsedInstructionConstraint.tryFrom (base : InstructionConstraint) :
    Except String ParsedInstructionConstraint := do
  let data ← base.data.mapM ParsedDataConstraint.tryFrom
  return { program := base.program, accounts := base.accounts, data, required := base.required }

structure VariationOrderedInstructionConstraints where
  name : String
  instructions : List InstructionConstraint
  maxGasSpend : UInt64
  paymasterFeeLamports : Option UInt64
  swapIntoFogo : List MintSwapRate

/-- The constraint itself, between those of the instructions that wrap native tokens for it and
    unwrap them after it. -/
def expand (base : InstructionConstraint) : Except String (List ParsedInstructionConstraint) := do
  let parsed ← ParsedInstructionConstraint.tryFrom base
  if base.requiresWrappedNativeTokens then
    return [.sessionWrapInstructionConstraint, .createAtaIdempotentInstructionConstraint,
      .syncNativeInstructionConstraint, parsed, .closeTokenAccountConstraint]
  else return [parsed]

def ParsedVariationOrderedInstructionConstraints.tryFrom
    (v : VariationOrderedInstructionConstraints) :
    Except String ParsedVariationOrderedInstructionConstraints := do
  let constraints ← v.instructions.mapM expand
  return { name := v.name
           instructions := constraints.flatten
           maxGasSpend := v.maxGasSpend
           paymasterFeeLamports := v.paymasterFeeLamports
           swapIntoFogo := v.swapIntoFogo.filter (·.nonzero) }

inductive TransactionVariation where
  | v0 (variation : VariationProgramWhitelist)
  | v1 (variation : VariationOrderedInstructionConstraints)

def TransactionVariation.name : TransactionVariation → String
  | v0 v => v.name
  | v1 v => v.name

def ParsedTransactionVariation.tryFrom :
    TransactionVariation → Except String ParsedTransactionVariation
  | .v0 v => .ok (.v0 v)
  | .v1 v => .v1 <$> ParsedVariationOrderedInstructionConstraints.tryFrom v

/-! ## Domains -/

/-- The configuration of one domain. -/
structure Domain where
  domain : String
  enableSessionManagement : Bool
  enablePreflightSimulation : Bool
  numberOfSigners : UInt8
  numberOfSigners_pos : numberOfSigners ≠ 0
  txVariations : NameMap TransactionVariation

/-- `default_one` -/
theorem defaultOne_pos : (1 : UInt8) ≠ 0 := by decide

/-- Adds a variation under its name if it converts; otherwise it is skipped with a warning. -/
def insertParsed (parsed : NameMap ParsedTransactionVariation)
    (entry : Sigma fun _ : String => TransactionVariation) : NameMap ParsedTransactionVariation :=
  match ParsedTransactionVariation.tryFrom entry.2 with
  | .ok variation => parsed.insert entry.1 variation
  | .error _ => parsed

/-- The variations that convert. -/
def parseVariations (txVariations : NameMap TransactionVariation) :
    NameMap ParsedTransactionVariation :=
  txVariations.entries.foldl insertParsed ∅

def Domain.intoParsedTransactionVariations (txVariations : NameMap TransactionVariation)
    (enableSessionManagement : Bool) : Except String (NameMap ParsedTransactionVariation) :=
  let parsed := parseVariations txVariations
  if enableSessionManagement then insertSessionManagementVariations parsed else .ok parsed

end FogoSessions.Paymaster
