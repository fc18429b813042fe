import FogoSessions.Lib.Result
import FogoSessions.Solana.Ledger

/-!
# The system program

The native program that owns every account no other program does. What its instructions do when
they succeed is documented; when they succeed is left open, and what succeeds at least is the
hypothesis `SystemProgram.Serves`.
-/

namespace FogoSessions.Solana

open Lib

class SystemProgram where
  /-- `Rent::minimum_balance`, of an account with that many bytes of data -/
  minimumBalance : Nat → Nat
  /-- `create_account`: payer, new account, lamports, space, owner -/
  createAccount : Ledger → Pubkey → Pubkey → Nat → Nat → Pubkey → Option Ledger
  /-- `transfer`: source, destination, lamports -/
  transfer : Ledger → Pubkey → Pubkey → Nat → Option Ledger
  /-- `allocate`: account, space -/
  allocate : Ledger → Pubkey → Nat → Option Ledger
  /-- `assign`: account, owner -/
  assign : Ledger → Pubkey → Pubkey → Option Ledger
  /-- the transfer out of the wallet of a signed intent's signer, on the word of the intent transfer
      program: source, destination, authority, lamports -/
  intentTransfer : Ledger → Pubkey → Pubkey → Pubkey → Nat → Option Ledger
  minimumBalance_pos : ∀ space, 0 < minimumBalance space
  createAccount_eq_some : ∀ {l l' : Ledger} {source key owner : Pubkey} {lamports space : Nat},
    0 < lamports → createAccount l source key lamports space owner = some l' →
      (l source).owner = Ids.systemProgram ∧ (l key).owner = Ids.systemProgram ∧
      (l key).data = [] ∧ (l key).lamports = 0 ∧
      l' = l.create source key lamports (zeros space) owner
  transfer_eq_some : ∀ {l l' : Ledger} {source destination : Pubkey} {lamports : Nat},
    0 < lamports → transfer l source destination lamports = some l' →
      (l source).owner = Ids.systemProgram ∧ l' = l.move source destination lamports
  allocate_eq_some : ∀ {l l' : Ledger} {key : Pubkey} {space : Nat},
    allocate l key space = some l' →
      (l key).owner = Ids.systemProgram ∧ (l key).data = [] ∧ l' = l.setData key (zeros space)
  assign_eq_some : ∀ {l l' : Ledger} {key owner : Pubkey},
    assign l key owner = some l' →
      ((l key).owner = Ids.systemProgram ∨ (l key).owner = owner) ∧ l' = l.setOwner key owner
  intentTransfer_eq_some : ∀ {l l' : Ledger} {source destination authority : Pubkey} {lamports : Nat},
    intentTransfer l source destination authority lamports = some l' →
      (0 < lamports → (l source).owner = Ids.systemProgram) ∧ lamports ≤ (l source).lamports ∧
      l' = l.move source destination lamports

/-- When the system program's instructions succeed. -/
structure SystemProgram.Serves [SystemProgram] : Prop where
  minimumBalance_mono : Monotone SystemProgram.minimumBalance
  transfer_eq : ∀ {l : Ledger} {source destination : Pubkey} {lamports : Nat},
    (l source).owner = Ids.systemProgram → (l source).data = [] → lamports ≤ (l source).lamports →
      SystemProgram.transfer l source destination lamports =
        some (l.move source destination lamports)
  createAccount_eq : ∀ {l : Ledger} {source key owner : Pubkey} {lamports space : Nat},
    (l source).owner = Ids.systemProgram → (l source).data = [] → lamports ≤ (l source).lamports →
    l key = .empty → space ≤ 10485760 →
      SystemProgram.createAccount l source key lamports space owner =
        some (l.create source key lamports (zeros space) owner)
  allocate_eq : ∀ {l : Ledger} {key : Pubkey} {space : Nat},
    (l key).owner = Ids.systemProgram → (l key).data = [] → space ≤ 10485760 →
      SystemProgram.allocate l key space = some (l.setData key (zeros space))
  assign_eq : ∀ {l : Ledger} {key owner : Pubkey}, (l key).owner = Ids.systemProgram →
    SystemProgram.assign l key owner = some (l.setOwner key owner)

/-! ## New accounts -/

section

variable [Addressing] [SystemProgram]

/-- A transfer that is left out when there is nothing to transfer. -/
def topUp (l : Ledger) (payer key : Pubkey) (lamports : Nat) : Option Ledger :=
  if 0 < lamports then SystemProgram.transfer l payer key lamports else some l

/-- Creates an account with room for `space` bytes, also when somebody has already sent lamports to
    its address. `none` when an invoked instruction fails. -/
def createOrFund (l : Ledger) (payer newAccount owner : Pubkey) (space : Nat) : Option Ledger :=
  let currentLamports := (l newAccount).lamports
  if currentLamports = 0 then
    SystemProgram.createAccount l payer newAccount (SystemProgram.minimumBalance space) space owner
  else do
    let requiredLamports := max (SystemProgram.minimumBalance space) 1 - currentLamports
    let l ← topUp l payer newAccount requiredLamports
    let l ← SystemProgram.allocate l newAccount space
    SystemProgram.assign l newAccount owner

/-- An account that was nobody's, and is the program's now. -/
structure Created (owner key : Pubkey) (space : Nat) (l l' : Ledger) : Prop where
  system : (l key).owner = Ids.systemProgram
  empty : (l key).data = []
  owner_eq : (l' key).owner = owner
  data_eq : (l' key).data = zeros space
  lamports_pos : 0 < (l' key).lamports

omit [Addressing] in
theorem topUp_eq_some {l l' : Ledger} {payer key : Pubkey} {lamports : Nat}
    (h : topUp l payer key lamports = some l') :
    (0 < lamports → (l payer).owner = Ids.systemProgram) ∧ l' = l.move payer key lamports := by
  unfold topUp at h
  split at h
  · rename_i hpos
    obtain ⟨hpayer, rfl⟩ := SystemProgram.transfer_eq_some hpos h
    exact ⟨fun _ => hpayer, rfl⟩
  · cases h
    rename_i hzero
    obtain rfl : lamports = 0 := by omega
    exact ⟨fun h => absurd h hzero, Ledger.move_zero.symm⟩

omit [Addressing] in
/-- A payer with enough lamports makes the top-up succeed. -/
theorem topUp_of_serves (hserves : SystemProgram.Serves) {l : Ledger} {payer key : Pubkey}
    {lamports : Nat} (howner : 0 < lamports → (l payer).owner = Ids.systemProgram)
    (hdata : 0 < lamports → (l payer).data = []) (hle : lamports ≤ (l payer).lamports) :
    topUp l payer key lamports = some (l.move payer key lamports) := by
  unfold topUp
  split
  · rename_i hpos
    exact hserves.transfer_eq (howner hpos) (hdata hpos) hle
  · rename_i hzero
    obtain rfl : lamports = 0 := by omega
    rw [Ledger.move_zero]

/-- A top-up is no business of the programs, and leaves lamports on the account. -/
theorem topUp_frame {ids : List Pubkey} {l l' : Ledger} {payer key : Pubkey} {lamports : Nat}
    (hids : Ids.systemProgram ∉ ids) (h : topUp l payer key lamports = some l') :
    Frame ids l l' ∧ (∀ k, (l' k).owner = (l k).owner ∧ (l' k).data = (l k).data) ∧
      (0 < (l key).lamports ∨ 0 < lamports → 0 < (l' key).lamports) := by
  obtain ⟨hpayer, rfl⟩ := topUp_eq_some h
  refine ⟨frame_move hids hpayer, fun k => ⟨Ledger.move_owner, Ledger.move_data⟩, fun hpos => ?_⟩
  rcases Nat.eq_zero_or_pos lamports with rfl | hlamports
  · rw [Ledger.move_zero]
    exact hpos.resolve_right (Nat.lt_irrefl 0)
  · exact hlamports.trans_le Ledger.le_move_destination

omit [Addressing] in
/-- Nobody's account becomes the program's, with lamports of the payer's. -/
theorem createOrFund_eq_create {l l' : Ledger} {payer key owner : Pubkey} {space : Nat}
    (h : createOrFund l payer key owner space = some l') :
    (l key).owner = Ids.systemProgram ∧ (l key).data = [] ∧ ∃ lamports,
      (0 < lamports → (l payer).owner = Ids.systemProgram) ∧
      0 < (l.move payer key lamports key).lamports ∧
      l' = l.create payer key lamports (zeros space) owner := by
  unfold createOrFund at h
  dsimp only at h
  split at h
  · have hpos := SystemProgram.minimumBalance_pos space
    obtain ⟨hpayer, howner, hdata, -, rfl⟩ := SystemProgram.createAccount_eq_some hpos h
    exact ⟨howner, hdata, _, fun _ => hpayer, hpos.trans_le Ledger.le_move_destination, rfl⟩
  · rename_i hlamports
    simp only [Option.bind_eq_bind, Option.bind_eq_some_iff] at h
    obtain ⟨l₁, htop, l₂, hallocate, hassign⟩ := h
    obtain ⟨hpayer, rfl⟩ := topUp_eq_some htop
    obtain ⟨howner, hdata, rfl⟩ := SystemProgram.allocate_eq_some hallocate
    obtain ⟨-, rfl⟩ := SystemProgram.assign_eq_some hassign
    rw [Ledger.move_owner] at howner
    rw [Ledger.move_data] at hdata
    refine ⟨howner, hdata, _, hpayer, ?_, rfl⟩
    rcases Nat.eq_zero_or_pos (max (SystemProgram.minimumBalance space) 1 - (l key).lamports) with
      hzero | hpos
    · rw [hzero, Ledger.move_zero]
      exact Nat.pos_of_ne_zero hlamports
    · exact hpos.trans_le Ledger.le_move_destination

omit [Addressing] in
/-- A payer whose lamports, with the ones that are already there, cover the rent makes the creation
    succeed. -/
theorem createOrFund_of_serves (hserves : SystemProgram.Serves) {l : Ledger}
    {payer key owner : Pubkey} {space : Nat} (hpayer : (l payer).owner = Ids.systemProgram)
    (hdata : (l payer).data = []) (hkey : (l key).owner = Ids.systemProgram)
    (hempty : (l key).data = []) (hspace : space ≤ 10485760)
    (hrent : SystemProgram.minimumBalance space ≤ (l payer).lamports + (l key).lamports) :
    ∃ lamports, lamports ≤ (l payer).lamports ∧
      createOrFund l payer key owner space =
        some (l.create payer key lamports (zeros space) owner) := by
  have hpos := SystemProgram.minimumBalance_pos space
  unfold createOrFund
  dsimp only
  split
  · rename_i hzero
    have hle : SystemProgram.minimumBalance space ≤ (l payer).lamports := by omega
    refine ⟨_, hle, hserves.createAccount_eq hpayer hdata hle ?_ hspace⟩
    show l key = ⟨0, Ids.systemProgram, []⟩
    rw [← hzero, ← hkey, ← hempty]
  · have hle : max (SystemProgram.minimumBalance space) 1 - (l key).lamports ≤
        (l payer).lamports := by omega
    refine ⟨_, hle, ?_⟩
    rw [topUp_of_serves hserves (fun _ => hpayer) (fun _ => hdata) hle]
    simp only [Option.bind_eq_bind, Option.bind_some]
    rw [hserves.allocate_eq (by rwa [Ledger.move_owner]) (by rwa [Ledger.move_data]) hspace]
    simp only [Option.bind_some]
    rw [hserves.assign_eq (by rwa [Ledger.setData_owner, Ledger.move_owner])]
    rfl

theorem createOrFund_eq_some {ids : List Pubkey} {l l' : Ledger} {payer key owner : Pubkey}
    {space : Nat} (hids : Ids.systemProgram ∉ ids)
    (h : createOrFund l payer key owner space = some l') :
    FrameExcept ids key l l' ∧ Created owner key space l l' := by
  obtain ⟨howner, hdata, lamports, hpayer, hpos, rfl⟩ := createOrFund_eq_create h
  refine ⟨frameExcept_create hids hpayer, howner, hdata, by simp, by simp, ?_⟩
  rwa [Ledger.create, Ledger.setOwner_lamports, Ledger.setData_lamports]

end

end FogoSessions.Solana
