import FogoSessions.Paymaster.Constraint
import Mathlib.Data.List.AList

/-!
# Template constraints and variations

`constraint/templates.rs`: the constraints and variations that the paymaster adds by itself.
-/

namespace FogoSessions.Paymaster

open Lib Solana

/-- The data constraint that an integer at `startByte` is one given value. -/
def byteIs (startByte : UInt16) (value : UInt8) : ParsedDataConstraint :=
  ⟨startByte, .u8 (.equalTo [value])⟩

def shortIs (startByte : UInt16) (value : UInt16) : ParsedDataConstraint :=
  ⟨startByte, .u16 (.equalTo [value])⟩

namespace ParsedInstructionConstraint

/-- A single intent signature, verified by the ed25519 program. -/
def intentInstructionConstraint : ParsedInstructionConstraint where
  program := ⟨Ids.ed25519Program, by decide +kernel⟩
  accounts := []
  data := [
    -- numSignatures = 1
    byteIs 0 1,
    -- padding = 0
    byteIs 1 0,
    -- signatureInstructionIndex = publicKeyInstructionIndex = messageInstructionIndex = 0xffff
    shortIs 4 0xffff,
    shortIs 8 0xffff,
    shortIs 14 0xffff]
  required := true

def startSessionInstructionConstraint : ParsedInstructionConstraint where
  program := ⟨ProgramIds.sessionManager, by decide +kernel⟩
  accounts := [
    { index := 0, includes := [.sponsor], excludes := [] },
    { index := 2, includes := [.nonFeePayerSigner], excludes := [] },
    { index := 4, includes := [.domainRegistry], excludes := [] }]
  data := [byteIs 0 0]
  required := true

def revokeSessionInstructionConstraint : ParsedInstructionConstraint where
  program := ⟨ProgramIds.sessionManager, by decide +kernel⟩
  accounts := [{ index := 0, includes := [.nonFeePayerSigner], excludes := [] }]
  data := [byteIs 0 1]
  required := true

/-- Wrapping native tokens, `system_program::session_wrap`. -/
def sessionWrapInstructionConstraint : ParsedInstructionConstraint where
  program := ⟨Ids.systemProgram, systemProgram_substantive⟩
  accounts := []
  data := [⟨0, .u32 (.equalTo [4000000])⟩]
  required := false

def createAtaIdempotentInstructionConstraint : ParsedInstructionConstraint where
  program := ⟨Ids.associatedTokenProgram, by decide +kernel⟩
  accounts := [{ index := 0, includes := [.nonFeePayerSigner], excludes := [] }]
  data := [byteIs 0 1]
  required := false

def syncNativeInstructionConstraint : ParsedInstructionConstraint where
  program := ⟨Ids.tokenProgram, tokenProgram_substantive⟩
  accounts := []
  data := [byteIs 0 17]
  required := false

def closeTokenAccountConstraint : ParsedInstructionConstraint where
  program := ⟨Ids.tokenProgram, tokenProgram_substantive⟩
  accounts := []
  data := [byteIs 0 9]
  required := false

end ParsedInstructionConstraint

def defaultTemplateMaxGasSpend : UInt64 := 15000

namespace ParsedTransactionVariation

open ParsedInstructionConstraint

/-- A template variation: no fee, no swaps. -/
def template (name : String) (instructions : List ParsedInstructionConstraint)
    (maxGasSpend : UInt64) : ParsedTransactionVariation :=
  .v1 { name, instructions, maxGasSpend, paymasterFeeLamports := none, swapIntoFogo := [] }

def sessionEstablishmentVariation (maxGasSpend : UInt64) : ParsedTransactionVariation :=
  template "Session Establishment" [intentInstructionConstraint, startSessionInstructionConstraint]
    maxGasSpend

def sessionRevocationVariation (maxGasSpend : UInt64) : ParsedTransactionVariation :=
  template "Session Revocation" [revokeSessionInstructionConstraint] maxGasSpend

end ParsedTransactionVariation

/-- A `HashMap` from names; the order of the entries means nothing. -/
abbrev NameMap (α : Type) := AList fun _ : String => α

/-- Adds a template under its own name, which must be free. -/
def insertTemplateVariation (txVariations : NameMap ParsedTransactionVariation)
    (variation : ParsedTransactionVariation) :
    Except String (NameMap ParsedTransactionVariation) :=
  let key := variation.name
  if key ∈ txVariations then
    .error s!"Template transaction variation '{key}' conflicts with user-defined variation"
  else .ok (txVariations.insert key variation)

def insertSessionManagementVariations (txVariations : NameMap ParsedTransactionVariation) :
    Except String (NameMap ParsedTransactionVariation) := do
  let txVariations ← insertTemplateVariation txVariations
    (.sessionEstablishmentVariation defaultTemplateMaxGasSpend)
  insertTemplateVariation txVariations (.sessionRevocationVariation defaultTemplateMaxGasSpend)

end FogoSessions.Paymaster
