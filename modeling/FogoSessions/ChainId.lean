import FogoSessions.ProgramIds
import FogoSessions.Solana.Anchor

/-!
# The chain id

`chain-id/src/lib.rs`: the account that says which chain this is, so that an intent signed for one
chain is worth nothing on another.
-/

namespace FogoSessions

open Lib Solana

structure ChainId where
  chainId : String
deriving DecidableEq

namespace ChainId

/-- `SEED`. -/
def seed : Bytes := utf8 "chain_id"

def discriminator : Bytes := [203, 146, 201, 161, 230, 71, 157, 218]

def codec : Codec ChainId := .iso (fun s => ⟨s⟩) ChainId.chainId (fun _ => rfl) .string

variable [Addressing]

def address : Pubkey := derivedAddress [seed] ProgramIds.chainId

/-- The chain id account of an instruction. -/
def load {ε : Type} (l : Ledger) (account : AccountMeta) : Except (ProgramError ε) ChainId := do
  Anchor.seeds account [seed] ProgramIds.chainId
  Anchor.account l account.pubkey ProgramIds.chainId
    (Anchor.tryDeserialize discriminator codec)

/-- The ledger's chain id. -/
def onLedger (l : Ledger) : Option ChainId :=
  if (l address).owner = ProgramIds.chainId then
    (Anchor.tryDeserialize discriminator codec (l address).data).toOption
  else none

theorem load_eq_ok {ε : Type} {l : Ledger} {account : AccountMeta} {chainId : ChainId}
    (h : (load l account : Except (ProgramError ε) ChainId) = .ok chainId) :
    onLedger l = some chainId := by
  simp only [load, bind_eq_ok, Anchor.seeds, require_eq_ok] at h
  obtain ⟨-, haddress, haccount⟩ := h
  have hkey : account.pubkey = address := haddress
  rw [hkey] at haccount
  obtain ⟨howner, hdata⟩ := Anchor.account_eq_ok haccount
  rw [onLedger, if_pos howner, hdata]
  rfl

end ChainId

end FogoSessions
