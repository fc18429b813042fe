import FogoSessions.IntentTransfer.SignedQuote
import FogoSessions.Paymaster.ChainIndex

/-!
# Data constraints

`constraint/mod.rs`: the checks a variation makes on a range of an instruction's data, in the form
they have after the configuration is parsed.
-/

namespace FogoSessions.Paymaster

open Lib Solana IntentTransfer

inductive IntegerConstraint (T : Type) where
  | lessThan (expected : T)
  | greaterThan (expected : T)
  | equalTo (values : List T)
  | neq (values : List T)

inductive ScalarConstraint (T : Type) where
  | equalTo (values : List T)
  | neq (values : List T)

inductive BytesConstraint where
  | equalTo (length : Nat) (values : List Bytes)
  | neq (length : Nat) (values : List Bytes)

inductive ParsedDataConstraintSpecification where
  | u8 (constraint : IntegerConstraint UInt8)
  | u16 (constraint : IntegerConstraint UInt16)
  | u32 (constraint : IntegerConstraint UInt32)
  | u64 (constraint : IntegerConstraint UInt64)
  | bool (constraint : ScalarConstraint Bool)
  | pubkey (constraint : ScalarConstraint Pubkey)
  | bytes (constraint : BytesConstraint)
  | nttSignedQuoter (constraint : ScalarConstraint H160)

def ParsedDataConstraintSpecification.byteLength : ParsedDataConstraintSpecification → Nat
  | .u8 _ => 1
  | .u16 _ => 2
  | .u32 _ => 4
  | .u64 _ => 8
  | .bool _ => 1
  | .pubkey _ => 32
  | .bytes (.equalTo length _) => length
  | .bytes (.neq length _) => length
  | .nttSignedQuoter _ => 165

/-! ## The checks -/

section

variable {T : Type} [DecidableEq T]

def checkEqualTo (values : List T) (value : T) : Except String Unit :=
  require (value ∈ values) "No matching value found"

def checkNeq (values : List T) (value : T) : Except String Unit :=
  require (value ∉ values) "Value matches an excluded value"

def IntegerConstraint.check [LT T] [DecidableLT T] (value : T) :
    IntegerConstraint T → Except String Unit
  | .lessThan expected => require (value < expected) "Constraint not met"
  | .greaterThan expected => require (expected < value) "Constraint not met"
  | .equalTo values => checkEqualTo values value
  | .neq values => checkNeq values value

def ScalarConstraint.check (value : T) : ScalarConstraint T → Except String Unit
  | .equalTo values => checkEqualTo values value
  | .neq values => checkNeq values value

end

def BytesConstraint.check (value : Bytes) : BytesConstraint → Except String Unit
  | .equalTo _ values => checkEqualTo values value
  | .neq _ values => checkNeq values value

/-- `try_into` of a slice to an array of `n` bytes, for a value of the type called `name`. -/
def exactly (n : Nat) (name : String) (data : Bytes) : Outcome String (FixedBytes n) :=
  okOr (FixedBytes.ofBytes? data)
    (.err s!"Data constraint expects {n} bytes for {name}, found {data.length} bytes")

variable [External]

/-- The address that signed the quote, which has to be the one the quote states. -/
def recoverSignerPubkey (signedQuote : SignedQuote) : Outcome String H160 := do
  let messageBody ← mapErr (fun e => .err s!"Failed to extract message from signed quote: {e}")
    signedQuote.tryGetMessageBody
  let message := External.keccak messageBody.bytes
  let (signature, recoveryIndex) ←
    mapErr (fun e => .err s!"Failed to extract signature components from signed quote: {e}")
      signedQuote.tryGetSignatureComponents
  let secpPubkey ← mapErr .err (External.secp256k1Recover message signature recoveryIndex)
  let pubkeyHashed := External.keccak (secpPubkey.bytes.drop 1)
  let evmAddress : H160 ← okOr (FixedBytes.ofBytes? (pubkeyHashed.bytes.drop 12)) .panic
  require (evmAddress = signedQuote.header.quoterAddress)
    (.err "Recovered quoter address does not match stated quoter address")
  return evmAddress

/-- Decodes the bytes of the constraint's range and checks the value; the inner result is the
    check's own. -/
def ParsedDataConstraintSpecification.checkBytes (data : Bytes) :
    ParsedDataConstraintSpecification → Outcome String (Except String Unit)
  | .bool constraint => do
    let byte ← okOr data.head? .panic
    return constraint.check (byte ≠ 0 : Bool)
  | .u8 constraint => do
    let byte ← okOr data.head? .panic
    return constraint.check byte
  | .u16 constraint => do
    let value ← exactly 2 "U16" data
    return constraint.check (UInt16.ofNat (leNat value.bytes))
  | .u32 constraint => do
    let value ← exactly 4 "U32" data
    return constraint.check (UInt32.ofNat (leNat value.bytes))
  | .u64 constraint => do
    let value ← exactly 8 "U64" data
    return constraint.check (UInt64.ofNat (leNat value.bytes))
  | .pubkey constraint => do
    let value ← exactly 32 "Pubkey" data
    return constraint.check value
  | .bytes constraint => return constraint.check data
  | .nttSignedQuoter constraint => do
    let (signedQuote, _) ← mapErr
      (fun e => .err s!"Failed to deserialize NTT SignedQuote: {e.message}")
      (SignedQuote.codec.decode data)
    let recoveredQuoter ← recoverSignerPubkey signedQuote
    return constraint.check recoveredQuoter

structure ParsedDataConstraint where
  startByte : UInt16
  constraint : ParsedDataConstraintSpecification

/-- The instruction's data satisfies the constraint. -/
def ParsedDataConstraint.checkData (c : ParsedDataConstraint) (ix : InstructionWithIndex) :
    Outcome String Unit :=
  let length := c.constraint.byteLength
  let endByte := length + c.startByte.toNat
  match slice? ix.instruction.data c.startByte.toNat length with
  | none =>
    -- out of bounds: the range ends past the data, so it is not empty
    bail (s!"Instruction {ix.index}: Data constraint byte range {c.startByte}-{endByte - 1} is out of bounds "
      ++ s!"for data length {ix.instruction.data.length}")
  | some dataToAnalyze => do
    let checkResult ← c.constraint.checkBytes dataToAnalyze
    mapErr (fun err => .err s!"Instruction {ix.index}: Data constraint not satisfied: {err}")
      checkResult

theorem ParsedDataConstraint.checkData_eq_ok {c : ParsedDataConstraint} {ix : InstructionWithIndex} :
    c.checkData ix = .ok ⟨⟩ ↔
      ∃ bytes, slice? ix.instruction.data c.startByte.toNat c.constraint.byteLength = some bytes ∧
        c.constraint.checkBytes bytes = .ok (.ok ⟨⟩) := by
  unfold checkData
  dsimp only
  cases slice? ix.instruction.data c.startByte.toNat c.constraint.byteLength with
  | none => simp [bail_ne_ok]
  | some bytes => simp [bind_eq_ok, mapErr_eq_ok]

omit [External] in
theorem exactly_eq_ok {n : Nat} {name : String} {data : Bytes} {value : FixedBytes n} :
    exactly n name data = .ok value ↔ value.bytes = data := by
  rw [exactly, okOr_eq_ok, FixedBytes.ofBytes?_eq_some]

omit [External] in
theorem checkEqualTo_eq_ok {T : Type} [DecidableEq T] {values : List T} {value : T} {r : Unit} :
    checkEqualTo values value = .ok r ↔ value ∈ values := require_eq_ok

omit [External] in
theorem checkNeq_eq_ok {T : Type} [DecidableEq T] {values : List T} {value : T} {r : Unit} :
    checkNeq values value = .ok r ↔ value ∉ values := require_eq_ok

end FogoSessions.Paymaster
