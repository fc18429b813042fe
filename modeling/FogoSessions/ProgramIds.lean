import FogoSessions.Solana.Pubkey

/-!
# Program ids

The addresses this repository's programs declare with `declare_id!`.
-/

namespace FogoSessions.ProgramIds

open Lib Solana

def chainId : Pubkey := .ofNat
  0xadd51c2be0260e6cacbab563d4e248903918b7677b8cf910689132e0d853948f
def domainRegistry : Pubkey := .ofNat
  0xbe475c79ab1d603ee35807bedb235d12343f1aa56b873bd9a9f28e88940223eb
def intentTransfer : Pubkey := .ofNat
  0x07db5d775bba92eb66c3f8dc0f9d31c5f63aba807b59c8d5a409d4dc861f6348
def sessionManager : Pubkey := .ofNat
  0x0692591efa705f5efcd2e4a55bffadc662b328427efffbdbe2ded137e385140b
def tollbooth : Pubkey := .ofNat
  0x0d4502b47ffb2fe0ffb70c68240f22609bc0c990f51a2dea63efcce1536aee6b

example : ∀ p ∈ [
    ("Cha1RcWkdcF1dmGuTui53JmSnVCacCc2Kx2SY7zSFhaN", chainId),
    ("DomaLfEueNY6JrQSEFjuXeUDiohFmSrFeTNTPamS2yog", domainRegistry),
    ("Xfry4dW9m42ncAqm8LyEnyS5V6xu5DSJTMRQLiGkARD", intentTransfer),
    ("SesswvJ7puvAgpyqp7N8HnjNnvpnS8447tKNF3sPgbC", sessionManager),
    ("toLLShH3xqYgVZuNUotUgQNWZ3Ldwrq9qCp27sJBaDp", tollbooth)],
    Pubkey.fromStr p.1 = some p.2 := by decide +kernel

/-! No account has two owners. -/

theorem sessionManager_ne_systemProgram : sessionManager ≠ Ids.systemProgram := by decide

theorem sessionManager_ne_tokenProgram : sessionManager ≠ Ids.tokenProgram := by decide

theorem domainRegistry_ne_sessionManager : domainRegistry ≠ sessionManager := by decide

end FogoSessions.ProgramIds
