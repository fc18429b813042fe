import FogoSessions.Solana.Pubkey

/-!
# Derived addresses

Program derived addresses, and the hash they are made with. The curve check and the search for the
bump are the platform's; what the programs rely on is that a derived address is never the key of a
signer.
-/

namespace FogoSessions.Solana

open Lib

class Addressing where
  /-- `hash::hashv`, of the concatenation -/
  sha256 : Bytes → FixedBytes 32
  /-- the bytes are a point of the ed25519 curve, so someone can hold the secret key -/
  onCurve : Pubkey → Bool
  /-- `Pubkey::find_program_address`: the derived address and its bump -/
  findProgramAddress : List Bytes → Pubkey → Pubkey × UInt8
  /-- a derived address is off the curve -/
  derived_off_curve : ∀ seeds program, onCurve (findProgramAddress seeds program).1 = false

variable [Addressing]

/-- The address derived from the seeds for a program. -/
def derivedAddress (seeds : List Bytes) (program : Pubkey) : Pubkey :=
  (Addressing.findProgramAddress seeds program).1

/-- `get_associated_token_address`. -/
def associatedTokenAddress (wallet mint : Pubkey) : Pubkey :=
  derivedAddress [wallet.bytes, Ids.tokenProgram.bytes, mint.bytes] Ids.associatedTokenProgram

end FogoSessions.Solana
