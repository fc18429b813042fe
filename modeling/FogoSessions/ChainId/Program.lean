import FogoSessions.ChainId
import FogoSessions.Solana.Custody
import FogoSessions.Solana.Native
import FogoSessions.Solana.Replay

/-!
# Setting the chain id

`chain-id/src/lib.rs` has one instruction, and anybody may send it: the first that goes through says
which chain this is for good.
-/

namespace FogoSessions.ChainId

open Lib Solana

/-- The result of an instruction: the ledger after it. -/
abbrev Result := Except (ProgramError Empty) Ledger

def setDiscriminator : Bytes := [198, 51, 53, 241, 116, 29, 126, 194]

/-- The argument of `set`, after the discriminator. -/
def readSet (data : Bytes) : Except (ProgramError Empty) String :=
  if data.take 8 = setDiscriminator then
    match Codec.string.decode (data.drop 8) with
    | .ok (chainId, _) => .ok chainId
    | .error _ => .error (.anchor .instructionDidNotDeserialize)
  else .error (.anchor .instructionFallbackNotFound)

section

variable [Addressing] [SystemProgram]

def set (accounts : List AccountMeta) (chainId : String) (l : Ledger) : Result :=
  match accounts with
  | sponsor :: chainIdAccount :: systemProgram :: _ => do
    Anchor.signer sponsor
    Anchor.writable sponsor
    Anchor.program systemProgram Ids.systemProgram
    Anchor.seeds chainIdAccount [seed] ProgramIds.chainId
    Anchor.writable chainIdAccount
    require ((l chainIdAccount.pubkey).lamports = 0 ∨ sponsor.pubkey ≠ chainIdAccount.pubkey)
      (.anchor .tryingToInitPayerAsProgramAccount)
    let l ← okOr (createOrFund l sponsor.pubkey chainIdAccount.pubkey ProgramIds.chainId
      (8 + 4 + (utf8 chainId).length)) .invoked
    let data ← mapErr .anchor
      (Anchor.trySerialize discriminator codec ⟨chainId⟩ (l chainIdAccount.pubkey).data)
    return l.setData chainIdAccount.pubkey data
  | _ => .error (.anchor .accountNotEnoughKeys)

def process (ix : Instruction) (l : Ledger) : Result := do
  let chainId ← readSet ix.data
  set ix.accounts chainId l

/-- The program on a runtime of its own. -/
def programs : Programs where
  ids := [ProgramIds.chainId]
  process _ ix l := (process ix l).toOption

/-! ## What the instruction does -/

variable {l l' : Ledger} {chainId : String}

omit [SystemProgram] in
/-- The account says which chain it is. -/
theorem onLedger_of_holds {data : Bytes} (howner : (l address).owner = ProgramIds.chainId)
    (hdata : (l address).data = data)
    (hholds : Anchor.tryDeserialize discriminator codec data = .ok ⟨chainId⟩) :
    onLedger l = some ⟨chainId⟩ := by
  rw [onLedger, if_pos howner, hdata, hholds]
  rfl

/-- What a `set` that went through needs, and what it leaves. -/
structure Sets (chainId : String) (l l' : Ledger) : Prop where
  unset : (l address).owner = Ids.systemProgram
  owner_eq : (l' address).owner = ProgramIds.chainId
  holds : Anchor.tryDeserialize discriminator codec (l' address).data = .ok ⟨chainId⟩
  lamports_pos : 0 < (l' address).lamports

theorem set_eq_ok {accounts : List AccountMeta} (h : set accounts chainId l = .ok l') :
    Sets chainId l l' := by
  unfold set at h
  split at h
  · rename_i sponsor chainIdAccount systemProgram _
    simp only [bind_eq_ok, Anchor.signer_eq_ok, Anchor.writable, Anchor.program, Anchor.seeds,
      require_eq_ok, okOr_eq_ok, mapErr_eq_ok, pure_eq_ok, exists_const] at h
    obtain ⟨-, -, -, haddress, -, -, l₁, hcreate, data, hserialize, rfl⟩ := h
    have hkey : chainIdAccount.pubkey = address := haddress
    rw [hkey] at hcreate hserialize ⊢
    obtain ⟨hsystem, -, lamports, -, hpos, rfl⟩ := createOrFund_eq_create hcreate
    constructor
    · exact hsystem
    · rw [Ledger.setData_owner, Ledger.create_owner]
    · rw [Ledger.setData_same]
      exact Anchor.tryDeserialize_trySerialize hserialize
    · rw [Ledger.setData_lamports, Ledger.create, Ledger.setOwner_lamports, Ledger.setData_lamports]
      exact hpos
  · cases h

/-! ## Every run -/

variable [Ed25519] {w : World} {e : Event}

theorem invoked_sets (he : Invoked programs w e) :
    ∃ chainId, readSet e.instruction.data = .ok chainId ∧ Sets chainId e.before e.after := by
  have hprocess := toOption_eq_some.1 he.process
  obtain ⟨chainId, hread, hset⟩ := bind_eq_ok.1 hprocess
  exact ⟨chainId, hread, set_eq_ok hset⟩

omit [Ed25519] in
theorem system_not_mem : Ids.systemProgram ∉ programs.ids := by
  rw [programs, List.mem_singleton]
  decide

/-- The program has one account, and every instruction of its writes to it. -/
theorem custodian : Custodian programs address fun _ => True where
  derived := not_canSign_derived (List.mem_singleton_self _) _
  system := system_not_mem
  quiet _ _ _ _ h := absurd trivial h
  writes w e _ he _ := by
    obtain ⟨chainId, -, hsets⟩ := invoked_sets he
    exact ⟨List.mem_singleton.2 hsets.owner_eq, hsets.lamports_pos⟩

/-- **A chain has one id.** In every run, at most one `set` goes through. Before it the ledger has no
    chain id, and from then on, whatever anybody does, the chain id is the one that it set. -/
theorem set_once (hw : Observed programs w) :
    (w.log = [] ∧ onLedger w.ledger = none) ∨
      ∃ e chainId, w.log = [e] ∧ readSet e.instruction.data = .ok chainId ∧
        onLedger w.ledger = some ⟨chainId⟩ := by
  have hids : ProgramIds.chainId ∈ programs.ids := List.mem_singleton_self _
  cases custodian.observed hw with
  | unused hquiet howner =>
    refine .inl ⟨List.eq_nil_iff_forall_not_mem.2 fun e he => hquiet e he trivial, ?_⟩
    refine if_neg fun heq => howner ?_
    rw [heq]
    exact hids
  | written e older hsince _ howner hdata _ _ =>
    obtain ⟨newer, hlog, hnewer⟩ := Since.iff_append.1 hsince
    obtain rfl : newer = [] := List.eq_nil_iff_forall_not_mem.2 fun x hx => hnewer x hx trivial
    obtain ⟨w', hw', hold, -, he⟩ := hw.history [] e older hlog
    obtain ⟨chainId, hread, hsets⟩ := invoked_sets he
    -- the account was nobody's, so nothing has gone through before
    have holder : older = [] := by
      cases custodian.observed hw' with
      | unused hquiet _ =>
        rw [← hold]
        exact List.eq_nil_iff_forall_not_mem.2 fun x hx => hquiet x hx trivial
      | written _ _ _ _ _ _ hmem _ =>
        rw [← he.before_eq, hsets.unset] at hmem
        exact absurd (List.mem_singleton.1 hmem) (by decide)
    subst holder
    refine .inr ⟨e, chainId, hlog, hread, ?_⟩
    exact onLedger_of_holds (howner.trans hsets.owner_eq) hdata hsets.holds

end

namespace Sample

def sponsor : Pubkey := .ofNat
  0x4dc21aac8658d938f2f37253691ad8462f8e33b7bb0eea4adb7dd5f4cef993a7
def chainId : Pubkey := .ofNat
  0xe1d007b79211cb2d932e3c36cd718c97412292ba37e4ea3d10b4a277283e7ace
def other : Pubkey := .ofNat
  0xf4ba74f1da0688e62469c75cc8892973c54cd0544a4521705cf4622fe56db009

def book : AddressBook where
  hashes := []
  wallets := [sponsor]
  derived := [(([seed], ProgramIds.chainId), chainId, 255)]
  other := other
  derived_off_curve := by decide +kernel
  other_off_curve := by decide +kernel

scoped instance : Addressing := book.addressing
scoped instance : SystemProgram := Native.systemProgram
scoped instance : Ed25519 := ⟨fun _ _ _ => false⟩

def accounts : List (Pubkey × Account) := [(sponsor, ⟨10000000000, Ids.systemProgram, []⟩)]

/-- The chain is named. -/
def schedule : List (Int64 × List Instruction) := [(1000, [{
  programId := ProgramIds.chainId
  accounts := [⟨sponsor, true, true⟩, ⟨chainId, false, true⟩, ⟨Ids.systemProgram, false, false⟩]
  data := setDiscriminator ++ leBytes 4 8 ++ utf8 "localnet" }])]

def world : World := ⟨(Ledger.ofList accounts).purge, 0, []⟩

theorem world_reachable : Reachable programs world :=
  AddressBook.genesis 0 system_not_mem (by decide +kernel) (by decide +kernel)

theorem admissible : ∀ entry ∈ schedule, Admissible [ProgramIds.chainId] entry.2 :=
  AddressBook.admissible_of_allows (by decide +kernel)

theorem schedule_runs : ∃ w, world.runAll programs schedule = some w ∧ w.log.length = 1 :=
  World.exists_runAll (by decide +kernel)

theorem set_once_schedule : ∃ w e chainId, world.runAll programs schedule = some w ∧ w.log = [e] ∧
    readSet e.instruction.data = .ok chainId ∧ onLedger w.ledger = some ⟨chainId⟩ := by
  obtain ⟨w, hw, hlog⟩ := schedule_runs
  have hreachable := world_reachable.runAll admissible hw
  obtain ⟨hnil, -⟩ | ⟨e, chainId, h⟩ := set_once hreachable.observed
  · rw [hnil] at hlog
    cases hlog
  · exact ⟨w, e, chainId, hw, h⟩

end Sample

end FogoSessions.ChainId
