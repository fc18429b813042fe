import FogoSessions.Solana.Pubkey

/-!
# Instructions
-/

namespace FogoSessions.Solana

open Lib

/-- An account an instruction names, and the rights it claims on it. -/
structure AccountMeta where
  pubkey : Pubkey
  isSigner : Bool
  isWritable : Bool
deriving DecidableEq

structure Instruction where
  programId : Pubkey
  accounts : List AccountMeta
  data : Bytes
deriving DecidableEq

/-- `get_instruction_relative(-1, ..)`: the instruction of the transaction right before the current
    one. -/
def precedingInstruction (instructions : List Instruction) (current : Nat) : Option Instruction :=
  if current = 0 then none else instructions[current - 1]?

theorem mem_of_precedingInstruction {instructions : List Instruction} {current : Nat}
    {ix : Instruction} (h : precedingInstruction instructions current = some ix) :
    ix ∈ instructions := by
  unfold precedingInstruction at h
  split at h
  · cases h
  · exact List.mem_of_getElem? h

end FogoSessions.Solana
