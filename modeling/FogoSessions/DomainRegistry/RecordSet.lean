import FogoSessions.DomainRegistry.Effects
import FogoSessions.Solana.Native
import FogoSessions.Solana.Replay

/-!
# The record as a set of programs

Over any calls of the authority, the record of a domain refines a set: `record_refines_set` says
that it holds the programs that were added and not removed since, each once, and that a call fails
exactly when it would add a member or remove what is none.
-/

namespace FogoSessions.DomainRegistry

open Lib Solana Sdk

/-! ## Calls that succeed -/

namespace ResizableAccountArray

/-- The payer covers what the account's lamports lack of the rent, and can hold what they exceed it
    by. -/
structure Covers (l : Ledger) (array : ResizableAccountArray) (rent : Nat) : Prop where
  owner_eq : (l array.accInfo).lamports < rent → (l array.payer).owner = Ids.systemProgram
  data_eq : (l array.accInfo).lamports < rent → (l array.payer).data = []
  lamports_le : rent ≤ (l array.payer).lamports + (l array.accInfo).lamports
  fits : (l array.payer).lamports + (l array.accInfo).lamports ≤ u64Max

variable {ε : Type} {l : Ledger} {self : ResizableAccountArray}

/-- The rent is there already. -/
theorem Covers.of_le {rent : Nat} (h : rent ≤ (l self.accInfo).lamports)
    (hfits : (l self.payer).lamports + (l self.accInfo).lamports ≤ u64Max) : Covers l self rent where
  owner_eq hlt := absurd hlt (Nat.not_lt.2 h)
  data_eq hlt := absurd hlt (Nat.not_lt.2 h)
  lamports_le := h.trans (Nat.le_add_left ..)
  fits := hfits

/-- Only owners, lamports and the payer's data matter. -/
theorem Covers.setData {rent : Nat} (h : Covers l self rent) (hne : self.accInfo ≠ self.payer)
    (data : Bytes) : Covers (l.setData self.accInfo data) self rent where
  owner_eq hlt := by
    rw [Ledger.setData_lamports] at hlt
    rw [Ledger.setData_owner]
    exact h.owner_eq hlt
  data_eq hlt := by
    rw [Ledger.setData_lamports] at hlt
    rw [Ledger.setData, Ledger.set_of_ne hne.symm]
    exact h.data_eq hlt
  lamports_le := by
    rw [Ledger.setData_lamports, Ledger.setData_lamports]
    exact h.lamports_le
  fits := by
    rw [Ledger.setData_lamports, Ledger.setData_lamports]
    exact h.fits

theorem contains_of_data {programs : List DomainProgram}
    (hdata : (l self.accInfo).data = recordData programs) (value : DomainProgram) :
    (self.contains l value : Except (ProgramError ε) Bool) = .ok (programs.contains value) :=
  map_eq_ok.2 ⟨programs, castSlice_eq_ok.2 hdata, rfl⟩

theorem position_of_data {programs : List DomainProgram}
    (hdata : (l self.accInfo).data = recordData programs) (predicate : DomainProgram → Bool) :
    (self.position l predicate : Except (ProgramError ε) (Option Nat)) =
      .ok (programs.findIdx? predicate) :=
  map_eq_ok.2 ⟨programs, castSlice_eq_ok.2 hdata, rfl⟩

theorem toVec_of_data {programs : List DomainProgram}
    (hdata : (l self.accInfo).data = recordData programs) :
    (self.toVec l : Except (ProgramError ε) (List AuthorizedProgram)) =
      .ok (programs.map DomainProgram.toAuthorizedProgram) :=
  map_eq_ok.2 ⟨programs, castSlice_eq_ok.2 hdata, rfl⟩

variable [SystemProgram]

/-- The account ends with exactly its rent. -/
theorem adjustRentIfNeeded_isOk (hserves : SystemProgram.Serves) (hne : self.accInfo ≠ self.payer)
    (hcovers : Covers l self (amountRequired (l self.accInfo).data.length)) :
    ∃ l', (self.adjustRentIfNeeded l : Except (ProgramError ε) Ledger) = .ok l' ∧
      (l' self.accInfo).lamports = amountRequired (l self.accInfo).data.length := by
  unfold adjustRentIfNeeded
  dsimp only
  generalize amountRequired (l self.accInfo).data.length = rent at hcovers
  obtain ⟨howner, hdata, hle, hfits⟩ := hcovers
  have htop : topUp l self.payer self.accInfo (rent - (l self.accInfo).lamports) = some _ :=
    topUp_of_serves hserves (fun h => howner (by omega)) (fun h => hdata (by omega)) (by omega)
  have hlamports := Ledger.move_destination (l := l) (n := rent - (l self.accInfo).lamports) hne
  have hpaid := Ledger.move_source (l := l) (n := rent - (l self.accInfo).lamports) hne.symm
  rw [htop, okOr]
  generalize l.move self.payer self.accInfo (rent - (l self.accInfo).lamports) = l₁
    at hlamports hpaid
  simp only [Bind.bind, Except.bind]
  split
  · rename_i hpos
    have hheld : (l₁ self.payer).lamports + ((l₁ self.accInfo).lamports - rent) ≤ u64Max := by
      omega
    rw [require, if_pos hheld]
    refine ⟨_, rfl, ?_⟩
    rw [Ledger.setLamports_same, Ledger.setLamports_of_ne hne]
    omega
  · rename_i hzero
    refine ⟨_, rfl, ?_⟩
    omega

omit [SystemProgram] in
theorem realloc_isOk {key : Pubkey} {newLen : Nat}
    (howner : (l key).owner = ProgramIds.domainRegistry)
    (hle : newLen ≤ (l key).data.length + DomainProgram.size) :
    (Anchor.realloc ProgramIds.domainRegistry l key newLen : Except (ProgramError ε) Ledger) =
      .ok (l.setData key ((l key).data.take newLen ++ zeros (newLen - (l key).data.length))) := by
  have hincrease : DomainProgram.size ≤ Anchor.maxPermittedDataIncrease := by decide
  exact bind_eq_ok.2 ⟨⟨⟩, require_eq_ok.2 howner, bind_eq_ok.2
    ⟨⟨⟩, require_eq_ok.2 (hle.trans (Nat.add_le_add_left hincrease _)), rfl⟩⟩

theorem push_isOk (hserves : SystemProgram.Serves) (hne : self.accInfo ≠ self.payer)
    (howner : (l self.accInfo).owner = ProgramIds.domainRegistry)
    (hcovers : Covers l self
      (SystemProgram.minimumBalance ((l self.accInfo).data.length + DomainProgram.size)))
    (value : DomainProgram) :
    ∃ l', (self.push l value : Except (ProgramError ε) Ledger) = .ok l' ∧
      (l' self.accInfo).lamports =
        SystemProgram.minimumBalance ((l self.accInfo).data.length + DomainProgram.size) := by
  have hrealloc := realloc_isOk (ε := ε) howner (Nat.le_refl _)
  generalize hdata : (l self.accInfo).data.take _ ++ zeros _ = data at hrealloc
  have hlength : data.length = (l self.accInfo).data.length + DomainProgram.size := by
    rw [← hdata, List.length_append, List.length_take, zeros, List.length_replicate]
    omega
  have hrequired : amountRequired ((l.setData self.accInfo data) self.accInfo).data.length =
      SystemProgram.minimumBalance ((l self.accInfo).data.length + DomainProgram.size) := by
    rw [Ledger.setData_same, hlength, amountRequired, if_neg (by simp [DomainProgram.size])]
  have hcovers' := hcovers.setData hne data
  rw [← hrequired] at hcovers'
  obtain ⟨l₁, hadjust, hlamports⟩ := adjustRentIfNeeded_isOk (ε := ε) hserves hne hcovers'
  refine ⟨_, bind_eq_ok.2 ⟨l₁, bind_eq_ok.2 ⟨_, hrealloc, hadjust⟩, rfl⟩, ?_⟩
  rw [Ledger.setData_lamports, hlamports, hrequired]

/-- Removing an element takes nothing from the payer. -/
theorem swapRemove_isOk (hserves : SystemProgram.Serves) (hne : self.accInfo ≠ self.payer)
    (howner : (l self.accInfo).owner = ProgramIds.domainRegistry) {programs : List DomainProgram}
    (hprograms : (l self.accInfo).data = recordData programs) {index : Nat}
    (hindex : index < programs.length)
    (hrent : SystemProgram.minimumBalance (l self.accInfo).data.length ≤
      (l self.accInfo).lamports)
    (hfits : (l self.payer).lamports + (l self.accInfo).lamports ≤ u64Max) :
    ∃ l', (self.swapRemove l index : Except (ProgramError ε) Ledger) = .ok l' ∧
      (l' self.accInfo).lamports =
        amountRequired ((l self.accInfo).data.length - DomainProgram.size) := by
  have hcast : (castSlice (l self.accInfo).data : Except (ProgramError ε) _) = .ok programs :=
    castSlice_eq_ok.2 hprograms
  generalize hswapped : recordData (swap programs index (programs.length - 1)) = swapped
  have hlength : swapped.length = (l self.accInfo).data.length := by
    rw [← hswapped, hprograms, length_recordData, length_recordData, length_swap]
  have hrealloc := realloc_isOk (ε := ε) (l := l.setData self.accInfo swapped)
    (by rwa [Ledger.setData_owner])
    ((Nat.sub_le (l.setData self.accInfo swapped self.accInfo).data.length DomainProgram.size).trans
      (Nat.le_add_right _ _))
  have hle : amountRequired ((l self.accInfo).data.length - DomainProgram.size) ≤
      (l self.accInfo).lamports := by
    unfold amountRequired
    split
    · exact Nat.zero_le _
    · exact (hserves.minimumBalance_mono (Nat.sub_le ..)).trans hrent
  generalize hdata : (l.setData self.accInfo swapped self.accInfo).data.take _ ++ zeros _ = data
    at hrealloc
  have hshrunk : data.length = (l self.accInfo).data.length - DomainProgram.size := by
    rw [← hdata, Ledger.setData_same, List.length_append, List.length_take, zeros,
      List.length_replicate, hlength]
    omega
  have hrequired : amountRequired
      (((l.setData self.accInfo swapped).setData self.accInfo data) self.accInfo).data.length =
        amountRequired ((l self.accInfo).data.length - DomainProgram.size) := by
    rw [Ledger.setData_same, hshrunk]
  have hcovers : Covers ((l.setData self.accInfo swapped).setData self.accInfo data) self
      (amountRequired ((l self.accInfo).data.length - DomainProgram.size)) :=
    ((Covers.of_le hle hfits).setData hne swapped).setData hne data
  rw [← hrequired] at hcovers
  obtain ⟨l', hadjust, hlamports⟩ := adjustRentIfNeeded_isOk (ε := ε) hserves hne hcovers
  refine ⟨l', ?_, hlamports.trans hrequired⟩
  rw [← hswapped] at hrealloc hadjust
  exact bind_eq_ok.2 ⟨programs, hcast, bind_eq_ok.2
    ⟨⟨⟩, require_eq_ok.2 hindex, bind_eq_ok.2 ⟨_, hrealloc, hadjust⟩⟩⟩

end ResizableAccountArray

/-! ## Runs -/

/-- A call of the authority. -/
inductive Call where
  | add (programId : Pubkey)
  | remove (programId : Pubkey)

namespace Call

/-- What the call does to a set of programs. -/
def apply : Call → Set Pubkey → Set Pubkey
  | add programId, s => insert programId s
  | remove programId, s => s \ {programId}

/-- The call would add a member, or remove what is none. -/
def Refused (s : Set Pubkey) : Call → Prop
  | add programId => programId ∈ s
  | remove programId => programId ∉ s

def refusal : Call → DomainRegistryError
  | add _ => .programAlreadyAdded
  | remove _ => .programNotFound

end Call

/-- The programs that were added and not removed since; the newest call first. -/
def members (calls : List Call) : Set Pubkey := calls.foldr Call.apply ∅

/-- A failed transaction leaves no trace. -/
def commit (l : Ledger) : Result → Ledger
  | .ok l' => l'
  | .error _ => l

section

variable [Addressing] [SystemProgram] (authority : Pubkey) (domain : String)

/-- The instruction's accounts as the registry's client passes them. -/
def Call.process (l : Ledger) : Call → Result
  | add programId =>
    addProgram
      [⟨authority, true, true⟩, ⟨configAddress, false, false⟩,
        ⟨getDomainRecordAddress domain, false, true⟩, ⟨programId, false, false⟩,
        ⟨derivedAddress [programSignerSeed] programId, false, false⟩,
        ⟨Ids.systemProgram, false, false⟩] domain l
  | remove programId =>
    removeProgram
      [⟨authority, true, true⟩, ⟨configAddress, false, false⟩,
        ⟨getDomainRecordAddress domain, false, true⟩, ⟨programId, false, false⟩,
        ⟨Ids.systemProgram, false, false⟩] domain l

/-- The registry's configuration names the authority. -/
structure Configured (l : Ledger) : Prop where
  owner_eq : (l configAddress).owner = ProgramIds.domainRegistry
  data_eq : (l configAddress).data = Config.discriminator ++ authority.bytes
  lamports_pos : 0 < (l configAddress).lamports

/-- The authority can hold whatever lamports of the record it gets back: all lamports there are fit
    64 bits. -/
def CanHold (l : Ledger) : Prop :=
  (l authority).lamports + (l (getDomainRecordAddress domain)).lamports ≤ u64Max

instance (l : Ledger) : Decidable (CanHold authority domain l) :=
  inferInstanceAs (Decidable (_ ≤ _))

/-- The authority can pay for a record that is longer by one program. -/
structure CanExtend (l : Ledger) : Prop where
  owner_eq : (l authority).owner = Ids.systemProgram
  data_eq : (l authority).data = []
  lamports_le :
    SystemProgram.minimumBalance
        ((l (getDomainRecordAddress domain)).data.length + DomainProgram.size) ≤
      (l authority).lamports + (l (getDomainRecordAddress domain)).lamports
  canHold : CanHold authority domain l

/-- The authority can pay for the call; nothing is paid for a removal. -/
def Call.Payable (l : Ledger) : Call → Prop
  | add _ => CanExtend authority domain l
  | remove _ => CanHold authority domain l

/-- The ledgers that calls for the domain lead to, with the calls made, the newest first. -/
inductive Run : List Call → Ledger → Prop
  /-- the domain has no record yet -/
  | start {l : Ledger} : Configured authority l →
      (l (getDomainRecordAddress domain)).owner = Ids.systemProgram →
      (l (getDomainRecordAddress domain)).data = [] → Run [] l
  | call {calls : List Call} {l : Ledger} (call : Call) : Run calls l →
      call.Payable authority domain l →
      Run (call :: calls) (commit l (call.process authority domain l))
  /-- other programs run -/
  | frame {calls : List Call} {l l' : Ledger} : Run calls l →
      Frame [ProgramIds.domainRegistry] l l' → Run calls l'
  /-- a transaction ends -/
  | purge {calls : List Call} {l : Ledger} : Run calls l → Run calls l.purge

end

/-! ## The representation -/

section

variable [Addressing]

/-- The data lists the members of the set, each once and with its signer. -/
def Represents (data : Bytes) (s : Set Pubkey) : Prop :=
  ∃ programs, data = recordData programs ∧ (programs.map DomainProgram.programId).Nodup ∧
    (∀ p ∈ programs, p.signerPda = derivedAddress [programSignerSeed] p.programId) ∧
    ∀ programId, programId ∈ programs.map DomainProgram.programId ↔ programId ∈ s

theorem represents_empty : Represents [] ∅ :=
  ⟨[], rfl, List.nodup_nil, List.forall_mem_nil _, fun programId => by simp⟩

/-- An entry of the record is determined by its program. -/
theorem mem_iff_programId_mem {programs : List DomainProgram}
    (hsigner : ∀ p ∈ programs, p.signerPda = derivedAddress [programSignerSeed] p.programId)
    (programId : Pubkey) :
    ⟨programId, derivedAddress [programSignerSeed] programId⟩ ∈ programs ↔
      programId ∈ programs.map DomainProgram.programId := by
  constructor
  · intro hmem
    exact List.mem_map.2 ⟨_, hmem, rfl⟩
  · intro hmem
    obtain ⟨p, hp, rfl⟩ := List.mem_map.1 hmem
    rw [← hsigner p hp]
    exact hp

theorem Represents.insert {programs : List DomainProgram} {s : Set Pubkey} {programId : Pubkey}
    (h : Represents (recordData programs) s) (hnew : programId ∉ s) :
    Represents (recordData (programs ++ [⟨programId, derivedAddress [programSignerSeed] programId⟩]))
      (insert programId s) := by
  obtain ⟨programs', hdata, hnodup, hsigner, hmem⟩ := h
  obtain rfl := recordData_injective hdata
  refine ⟨_, rfl, ?_, ?_, fun other => ?_⟩
  · rw [List.map_append, List.nodup_append]
    refine ⟨hnodup, List.nodup_singleton _, ?_⟩
    rintro other hother _ hlast rfl
    rw [List.mem_singleton.1 hlast] at hother
    exact hnew ((hmem programId).1 hother)
  · rw [List.forall_mem_append]
    exact ⟨hsigner, List.forall_mem_singleton.2 rfl⟩
  · rw [List.map_append, List.mem_append, hmem, Set.mem_insert_iff, or_comm]
    simp

theorem Represents.remove {programs programs' : List DomainProgram} {s : Set Pubkey} {index : Nat}
    {p : DomainProgram} (h : Represents (recordData programs) s) (hp : programs[index]? = some p)
    (hperm : programs'.Perm (programs.eraseIdx index)) :
    Represents (recordData programs') (s \ {p.programId}) := by
  obtain ⟨_, hdata, hnodup, hsigner, hmem⟩ := h
  obtain rfl := recordData_injective hdata
  have hsplit := cons_perm_of_eraseIdx hp hperm
  have hids := hsplit.map DomainProgram.programId
  rw [List.map_cons] at hids
  obtain ⟨hnot, hnodup'⟩ := List.nodup_cons.1 (hids.nodup_iff.2 hnodup)
  refine ⟨programs', rfl, hnodup', fun q hq => ?_, fun q => ?_⟩
  · exact hsigner q (hsplit.mem_iff.1 (List.mem_cons_of_mem p hq))
  · rw [Set.mem_sdiff_singleton, ← hmem, ← hids.mem_iff, List.mem_cons]
    constructor
    · intro hq
      exact ⟨.inr hq, fun heq => hnot (heq ▸ hq)⟩
    · rintro ⟨hq, hne⟩
      exact hq.resolve_left hne

end

/-! ## One call -/

theorem domainRegistry_mem_self : ProgramIds.domainRegistry ∈ [ProgramIds.domainRegistry] :=
  List.mem_singleton.2 rfl

theorem systemProgram_not_mem : Ids.systemProgram ∉ [ProgramIds.domainRegistry] := by decide

section

variable [Addressing] [SystemProgram]

/-- The record of the domain represents the set, and is rent exempt. -/
structure Refined (authority : Pubkey) (domain : String) (s : Set Pubkey) (l : Ledger) : Prop where
  configured : Configured authority l
  owner : (l (getDomainRecordAddress domain)).owner = ProgramIds.domainRegistry ∨
    (l (getDomainRecordAddress domain)).owner = Ids.systemProgram ∧
      (l (getDomainRecordAddress domain)).data = []
  rent : (l (getDomainRecordAddress domain)).data ≠ [] →
    SystemProgram.minimumBalance (l (getDomainRecordAddress domain)).data.length ≤
      (l (getDomainRecordAddress domain)).lamports
  represents : Represents (l (getDomainRecordAddress domain)).data s

variable {authority : Pubkey} {domain : String} {s : Set Pubkey} {l l' : Ledger}

omit [SystemProgram] in
theorem Configured.untouched (h : Configured authority l)
    (hu : Untouched [ProgramIds.domainRegistry] configAddress (l configAddress) (l' configAddress)) :
    Configured authority l' := by
  obtain ⟨howner, hdata, hlamports⟩ := hu.owned (h.owner_eq ▸ domainRegistry_mem_self)
  exact ⟨howner.trans h.owner_eq, hdata.trans h.data_eq, h.lamports_pos.trans_le hlamports⟩

omit [SystemProgram] in
theorem Configured.loadConfig_isOk (h : Configured authority l) :
    loadConfig l ⟨configAddress, false, false⟩ ⟨authority, true, true⟩ = .ok ⟨authority⟩ := by
  have hdeserialize :
      Anchor.tryDeserialize Config.discriminator Config.codec (l configAddress).data =
        .ok ⟨authority⟩ := by
    rw [h.data_eq]
    exact (Anchor.tryDeserialize_encode rfl).2 rfl
  have hexists : ¬ ((l configAddress).owner = Ids.systemProgram ∧ (l configAddress).lamports = 0) :=
    fun hnone => absurd hnone.2 h.lamports_pos.ne'
  have howned : (Anchor.owned l configAddress ProgramIds.domainRegistry :
      Except (ProgramError DomainRegistryError) Bytes) = .ok (l configAddress).data :=
    bind_eq_ok.2 ⟨⟨⟩, require_eq_ok.2 hexists, bind_eq_ok.2 ⟨⟨⟩, require_eq_ok.2 h.owner_eq, rfl⟩⟩
  refine bind_eq_ok.2 ⟨⟨⟩, require_eq_ok.2 rfl, bind_eq_ok.2 ⟨⟨⟩, require_eq_ok.2 rfl, ?_⟩⟩
  refine bind_eq_ok.2 ⟨⟨authority⟩, ?_, bind_eq_ok.2 ⟨⟨⟩, require_eq_ok.2 rfl, rfl⟩⟩
  exact bind_eq_ok.2 ⟨_, howned, mapErr_eq_ok.2 hdeserialize⟩

/-- The configuration is no record. -/
theorem Refined.config_ne (h : Refined authority domain s l) :
    configAddress ≠ getDomainRecordAddress domain := by
  intro heq
  obtain ⟨programs, hdata, -⟩ := h.represents
  rw [← heq, h.configured.data_eq] at hdata
  have hlength := congrArg List.length hdata
  rw [List.length_append, authority.length_eq, length_recordData, DomainProgram.size,
    Config.discriminator] at hlength
  simp only [List.length_cons, List.length_nil] at hlength
  omega

omit [SystemProgram] in
/-- Nobody signs for a record. -/
theorem record_ne_authority (hsigner : CanSign [ProgramIds.domainRegistry] authority) :
    getDomainRecordAddress domain ≠ authority := by
  rintro rfl
  exact not_canSign_derived domainRegistry_mem_self _ hsigner

theorem Refined.frame (h : Refined authority domain s l)
    (hframe : Frame [ProgramIds.domainRegistry] l l') : Refined authority domain s l' := by
  have hconfigured := h.configured.untouched (hframe configAddress)
  have hu := hframe (getDomainRecordAddress domain)
  rcases h.owner with howner | ⟨howner, hdata⟩
  · obtain ⟨howner', hdata', hlamports⟩ := hu.owned (howner ▸ domainRegistry_mem_self)
    refine ⟨hconfigured, .inl (howner'.trans howner), fun hne => ?_, hdata' ▸ h.represents⟩
    rw [hdata'] at hne ⊢
    exact (h.rent hne).trans hlamports
  · obtain ⟨howner', hdata'⟩ := hu.derived (not_canSign_derived domainRegistry_mem_self _) howner
    exact ⟨hconfigured, .inr ⟨howner', hdata'.trans hdata⟩, fun hne => absurd (hdata'.trans hdata) hne,
      hdata' ▸ h.represents⟩

theorem Refined.purge (h : Refined authority domain s l) : Refined authority domain s l.purge := by
  have hconfig : l.purge configAddress = l configAddress := if_neg h.configured.lamports_pos.ne'
  have hconfigured : Configured authority l.purge := by
    refine ⟨?_, ?_, ?_⟩ <;> rw [hconfig]
    · exact h.configured.owner_eq
    · exact h.configured.data_eq
    · exact h.configured.lamports_pos
  by_cases hzero : (l (getDomainRecordAddress domain)).lamports = 0
  · -- without lamports there was no data: the record is gone, and was empty
    have hpurge : l.purge (getDomainRecordAddress domain) = .empty := if_pos hzero
    have hdata : (l (getDomainRecordAddress domain)).data = [] := by
      by_contra hne
      have hrent := h.rent hne
      have hpos := SystemProgram.minimumBalance_pos (l (getDomainRecordAddress domain)).data.length
      omega
    have hempty : (l.purge (getDomainRecordAddress domain)).data = [] := by
      rw [hpurge]
      rfl
    refine ⟨hconfigured, .inr ⟨by rw [hpurge]; rfl, hempty⟩, fun hne => absurd hempty hne, ?_⟩
    rw [hempty, ← hdata]
    exact h.represents
  · have hpurge : l.purge (getDomainRecordAddress domain) = l (getDomainRecordAddress domain) :=
      if_neg hzero
    refine ⟨hconfigured, ?_, ?_, ?_⟩ <;> rw [hpurge]
    · exact h.owner
    · exact h.rent
    · exact h.represents

/-- The record exists once it is needed, and the authority still covers the next program. -/
theorem createDomainRecordIfNeeded_isOk (hserves : SystemProgram.Serves)
    (h : Refined authority domain s l) (hne : getDomainRecordAddress domain ≠ authority)
    (hextend : CanExtend authority domain l) :
    ∃ l₁, createDomainRecordIfNeeded l authority (getDomainRecordAddress domain) = .ok l₁ ∧
      (l₁ (getDomainRecordAddress domain)).owner = ProgramIds.domainRegistry ∧
      (l₁ (getDomainRecordAddress domain)).data = (l (getDomainRecordAddress domain)).data ∧
      ResizableAccountArray.Covers l₁ ⟨getDomainRecordAddress domain, authority⟩
        (SystemProgram.minimumBalance
          ((l (getDomainRecordAddress domain)).data.length + DomainProgram.size)) := by
  obtain ⟨howner, hdata, hle, hfits⟩ := hextend
  unfold createDomainRecordIfNeeded
  rcases h.owner with hrecord | ⟨hrecord, hempty⟩
  · rw [if_neg (by rw [hrecord]; decide)]
    exact ⟨l, rfl, hrecord, rfl, fun _ => howner, fun _ => hdata, hle, hfits⟩
  · rw [if_pos hrecord]
    have hrent : SystemProgram.minimumBalance 0 ≤
        (l authority).lamports + (l (getDomainRecordAddress domain)).lamports :=
      (hserves.minimumBalance_mono (Nat.zero_le _)).trans hle
    obtain ⟨n, hn, hcreate⟩ : ∃ n ≤ (l authority).lamports,
        createOrFund l authority (getDomainRecordAddress domain) ProgramIds.domainRegistry 0 =
          some (l.create authority (getDomainRecordAddress domain) n (zeros 0)
            ProgramIds.domainRegistry) :=
      createOrFund_of_serves hserves howner hdata hrecord hempty (Nat.zero_le _) hrent
    rw [hcreate]
    refine ⟨_, rfl, Ledger.create_owner, Ledger.create_data.trans hempty.symm, ?_⟩
    have hsum : (l.create authority (getDomainRecordAddress domain) n (zeros 0)
          ProgramIds.domainRegistry authority).lamports +
        (l.create authority (getDomainRecordAddress domain) n (zeros 0)
          ProgramIds.domainRegistry (getDomainRecordAddress domain)).lamports =
        (l authority).lamports + (l (getDomainRecordAddress domain)).lamports := by
      simp only [Ledger.create, Ledger.setOwner_lamports, Ledger.setData_lamports]
      rw [Ledger.move_source hne.symm, Ledger.move_destination hne]
      omega
    exact ⟨fun _ => (Ledger.create_content hne.symm).1.trans howner,
      fun _ => (Ledger.create_content hne.symm).2.trans hdata, hle.trans hsum.ge, hsum.trans_le hfits⟩

/-- The call once its accounts are checked. -/
theorem process_add (h : Configured authority l) (domain : String) (programId : Pubkey) :
    (Call.add programId).process authority domain l = (do
      let l₁ ← createDomainRecordIfNeeded l authority (getDomainRecordAddress domain)
      let record : ResizableAccountArray := ⟨getDomainRecordAddress domain, authority⟩
      let domainProgram := ⟨programId, derivedAddress [programSignerSeed] programId⟩
      let contained ← record.contains l₁ domainProgram
      require (contained = false) (.custom .programAlreadyAdded)
      record.push l₁ domainProgram) := by
  simp only [Call.process, addProgram, h.loadConfig_isOk, Anchor.writable, Anchor.seeds,
    Anchor.program, require, if_true, Bind.bind, Except.bind]

theorem process_remove (h : Configured authority l) (domain : String) (programId : Pubkey) :
    (Call.remove programId).process authority domain l = (do
      let record : ResizableAccountArray := ⟨getDomainRecordAddress domain, authority⟩
      let index ← record.position l fun program => program.programId = programId
      let indexToRemove ← okOr index (.custom .programNotFound)
      record.swapRemove l indexToRemove) := by
  simp only [Call.process, removeProgram, h.loadConfig_isOk, Anchor.writable, Anchor.program,
    require, if_true, Bind.bind, Except.bind]

/-- A changed record keeps what the registry says of the authority. -/
theorem Refined.of_changed (h : Refined authority domain s l) {s' : Set Pubkey}
    {before after : List DomainProgram}
    (hchanged : RecordChanged [ProgramIds.domainRegistry] domain before after l l')
    (hrepresents : Represents (recordData after) s')
    (hrent : (l' (getDomainRecordAddress domain)).data ≠ [] →
      SystemProgram.minimumBalance (l' (getDomainRecordAddress domain)).data.length ≤
        (l' (getDomainRecordAddress domain)).lamports) : Refined authority domain s' l' where
  configured := h.configured.untouched (hchanged.frame _ h.config_ne)
  owner := .inl hchanged.owner_after
  rent := hrent
  represents := hchanged.data_after ▸ hrepresents

/-- An addition fails on a member, and otherwise adds the program. -/
theorem add_spec (hserves : SystemProgram.Serves)
    (hsigner : CanSign [ProgramIds.domainRegistry] authority) (h : Refined authority domain s l)
    (hextend : CanExtend authority domain l) (programId : Pubkey) :
    (programId ∈ s ∧ (Call.add programId).process authority domain l =
        .error (.custom .programAlreadyAdded)) ∨
      (programId ∉ s ∧ ∃ l', (Call.add programId).process authority domain l = .ok l' ∧
        Refined authority domain (insert programId s) l') := by
  have hne : getDomainRecordAddress domain ≠ authority := record_ne_authority hsigner
  obtain ⟨l₁, hcreate, howner₁, hdata₁, hcovers⟩ :=
    createDomainRecordIfNeeded_isOk hserves h hne hextend
  obtain ⟨programs, hprograms, hnodup, hsigners, hmem⟩ := h.represents
  let record : ResizableAccountArray := ⟨getDomainRecordAddress domain, authority⟩
  have hcontains (value : DomainProgram) :
      (record.contains l₁ value : Except (ProgramError DomainRegistryError) Bool) =
        .ok (programs.contains value) :=
    ResizableAccountArray.contains_of_data (hdata₁.trans hprograms) value
  have hcontained : programs.contains
      ⟨programId, derivedAddress [programSignerSeed] programId⟩ = true ↔ programId ∈ s := by
    rw [List.contains_iff_mem, mem_iff_programId_mem hsigners, hmem]
  have hprocess := process_add h.configured domain programId
  rw [hcreate] at hprocess
  simp only [Bind.bind, Except.bind] at hprocess
  rw [hcontains] at hprocess
  by_cases hin : programId ∈ s
  · refine .inl ⟨hin, ?_⟩
    rw [hprocess, hcontained.2 hin]
    rfl
  · refine .inr ⟨hin, ?_⟩
    rw [Bool.eq_false_iff.2 fun hc => hin (hcontained.1 hc)] at hprocess
    rw [← hdata₁] at hcovers
    obtain ⟨l', hpush, hlamports⟩ : ∃ l', (record.push l₁
        ⟨programId, derivedAddress [programSignerSeed] programId⟩ : Result) = .ok l' ∧ _ :=
      ResizableAccountArray.push_isOk hserves hne howner₁ hcovers _
    have hok : (Call.add programId).process authority domain l = .ok l' := hprocess.trans hpush
    have hadd := hok
    rw [Call.process] at hadd
    obtain ⟨programId', before, hid, -, hchanged⟩ := addProgram_eq_ok systemProgram_not_mem hadd
    cases hid
    obtain rfl := recordData_injective (hprograms.symm.trans hchanged.data_before)
    refine ⟨l', hok, h.of_changed hchanged ?_ fun _ => ?_⟩
    · exact Represents.insert ⟨programs, rfl, hnodup, hsigners, hmem⟩ hin
    · have hlength : (l' record.accInfo).data.length =
          (l₁ record.accInfo).data.length + DomainProgram.size := by
        rw [hchanged.data_after, hdata₁, hprograms, recordData_concat, List.length_append,
          DomainProgram.length_toBytes]
      rw [hlength, ← hlamports]

/-- A removal fails on what is no member, and otherwise removes the program. -/
theorem remove_spec (hserves : SystemProgram.Serves)
    (hsigner : CanSign [ProgramIds.domainRegistry] authority) (h : Refined authority domain s l)
    (hhold : CanHold authority domain l) (programId : Pubkey) :
    (programId ∉ s ∧ (Call.remove programId).process authority domain l =
        .error (.custom .programNotFound)) ∨
      (programId ∈ s ∧ ∃ l', (Call.remove programId).process authority domain l = .ok l' ∧
        Refined authority domain (s \ {programId}) l') := by
  have hne : getDomainRecordAddress domain ≠ authority := record_ne_authority hsigner
  obtain ⟨programs, hprograms, hnodup, hsigners, hmem⟩ := h.represents
  let record : ResizableAccountArray := ⟨getDomainRecordAddress domain, authority⟩
  have hposition (predicate : DomainProgram → Bool) :
      (record.position l predicate : Except (ProgramError DomainRegistryError) (Option Nat)) =
        .ok (programs.findIdx? predicate) :=
    ResizableAccountArray.position_of_data hprograms predicate
  have hprocess := process_remove h.configured domain programId
  simp only [Bind.bind, Except.bind] at hprocess
  rw [hposition] at hprocess
  cases hindex : programs.findIdx? fun program => program.programId = programId with
  | none =>
    have hnone := List.findIdx?_eq_none_iff.1 hindex
    refine .inl ⟨fun hin => ?_, ?_⟩
    · obtain ⟨p, hp, hpid⟩ := List.mem_map.1 ((hmem programId).2 hin)
      simpa [hpid] using hnone p hp
    · rw [hprocess, hindex]
      rfl
  | some index =>
    obtain ⟨hlt, hpid, -⟩ := List.findIdx?_eq_some_iff_getElem.1 hindex
    have hpid : programs[index].programId = programId := by simpa using hpid
    have hin : programId ∈ s :=
      (hmem programId).1 (List.mem_map.2 ⟨_, List.getElem_mem hlt, hpid⟩)
    refine .inr ⟨hin, ?_⟩
    have hnonempty : (l (getDomainRecordAddress domain)).data ≠ [] := by
      rw [hprograms]
      intro hnil
      have hlength := congrArg List.length hnil
      rw [length_recordData, DomainProgram.size, List.length_nil] at hlength
      omega
    have howner := h.owner.resolve_right fun hnone => hnonempty hnone.2
    obtain ⟨l', hremove, hlamports⟩ : ∃ l', (record.swapRemove l index : Result) = .ok l' ∧ _ :=
      ResizableAccountArray.swapRemove_isOk hserves hne howner hprograms hlt (h.rent hnonempty)
        hhold
    rw [hindex] at hprocess
    have hok : (Call.remove programId).process authority domain l = .ok l' :=
      hprocess.trans hremove
    have hremoved := hok
    rw [Call.process] at hremoved
    obtain ⟨programId', before, index', p, after, hid, hp, rfl, hperm, hchanged⟩ :=
      removeProgram_eq_ok systemProgram_not_mem hremoved
    obtain rfl : programId = p.programId := Option.some.inj hid
    obtain rfl := recordData_injective (hprograms.symm.trans hchanged.data_before)
    refine ⟨l', hok, h.of_changed hchanged ?_ fun hne' => ?_⟩
    · exact Represents.remove ⟨programs, rfl, hnodup, hsigners, hmem⟩ hp hperm
    · have hlength : (l' record.accInfo).data.length =
          (l record.accInfo).data.length - DomainProgram.size := by
        have hafter := (cons_perm_of_eraseIdx hp hperm).length_eq
        rw [hchanged.data_after, hprograms, length_recordData, length_recordData, ← hafter,
          List.length_cons, Nat.succ_mul, Nat.add_sub_cancel]
      rw [hlamports, ← hlength, ResizableAccountArray.amountRequired,
        if_neg fun hzero => hne' (List.eq_nil_of_length_eq_zero hzero)]

/-! ## Every run -/

/-- A run keeps the record a representation of the members. -/
theorem Run.refined (hserves : SystemProgram.Serves)
    (hsigner : CanSign [ProgramIds.domainRegistry] authority) {calls : List Call}
    (h : Run authority domain calls l) : Refined authority domain (members calls) l := by
  induction h with
  | start hconfigured howner hdata =>
    exact ⟨hconfigured, .inr ⟨howner, hdata⟩, fun hne => absurd hdata hne, hdata ▸ represents_empty⟩
  | @call calls l call _ hpayable ih =>
    cases call with
    | add programId =>
      rcases add_spec hserves hsigner ih hpayable programId with ⟨hin, hfails⟩ | ⟨_, l', hok, hl'⟩
      · rw [hfails]
        have hsame : members (.add programId :: calls) = members calls := Set.insert_eq_of_mem hin
        rwa [hsame]
      · rw [hok]
        exact hl'
    | remove programId =>
      rcases remove_spec hserves hsigner ih hpayable programId with ⟨hout, hfails⟩ | ⟨_, l', hok, hl'⟩
      · rw [hfails]
        have hsame : members (.remove programId :: calls) = members calls :=
          Set.sdiff_singleton_eq_self hout
        rwa [hsame]
      · rw [hok]
        exact hl'
  | frame _ hframe ih => exact ih.frame hframe
  | purge _ ih => exact ih.purge

/-- **A domain record refines a set of programs.** Whatever calls the authority has made, whatever
    other programs did and wherever transactions ended: the record is a whole number of entries,
    one for each program that was added and not removed since; reading it gives each of them once;
    and the next call fails, with its own error and leaving the record as it is, exactly when it
    would add a member or remove what is none. -/
theorem record_refines_set (hserves : SystemProgram.Serves) (authority : Pubkey)
    (hsigner : CanSign [ProgramIds.domainRegistry] authority) (domain : String) (calls : List Call)
    (l : Ledger) (hrun : Run authority domain calls l) :
    (l (getDomainRecordAddress domain)).data.length % 64 = 0 ∧
    Represents (l (getDomainRecordAddress domain)).data (members calls) ∧
    (∃ programs, (ResizableAccountArray.toVec ⟨getDomainRecordAddress domain, authority⟩ l :
        Except (ProgramError DomainRegistryError) (List AuthorizedProgram)) = .ok programs ∧
      (programs.map AuthorizedProgram.programId).Nodup ∧
      ∀ programId, programId ∈ programs.map AuthorizedProgram.programId ↔
        programId ∈ members calls) ∧
    ∀ call : Call, call.Payable authority domain l →
      ((∃ e, call.process authority domain l = .error e) ↔ call.Refused (members calls)) ∧
      (call.Refused (members calls) →
        call.process authority domain l = .error (.custom call.refusal) ∧
        commit l (call.process authority domain l) = l) := by
  have hrefined := hrun.refined hserves hsigner
  obtain ⟨programs, hdata, hnodup, -, hmem⟩ := hrefined.represents
  have hids : (programs.map DomainProgram.toAuthorizedProgram).map AuthorizedProgram.programId =
      programs.map DomainProgram.programId := by
    rw [List.map_map]
    rfl
  refine ⟨?_, hrefined.represents, ⟨_, ResizableAccountArray.toVec_of_data hdata, ?_, ?_⟩,
    fun call hpayable => ?_⟩
  · rw [hdata, length_recordData, DomainProgram.size]
    exact Nat.mul_mod_left ..
  · rwa [hids]
  · rwa [hids]
  · cases call with
    | add programId =>
      rcases add_spec hserves hsigner hrefined hpayable programId with
        ⟨hin, hfails⟩ | ⟨hout, l', hok, _⟩
      · rw [hfails]
        exact ⟨⟨fun _ => hin, fun _ => ⟨_, rfl⟩⟩, fun _ => ⟨rfl, rfl⟩⟩
      · rw [hok]
        refine ⟨⟨?_, fun hin => absurd hin hout⟩, fun hin => absurd hin hout⟩
        rintro ⟨e, he⟩
        cases he
    | remove programId =>
      rcases remove_spec hserves hsigner hrefined hpayable programId with
        ⟨hout, hfails⟩ | ⟨hin, l', hok, _⟩
      · rw [hfails]
        exact ⟨⟨fun _ => hout, fun _ => ⟨_, rfl⟩⟩, fun _ => ⟨rfl, rfl⟩⟩
      · rw [hok]
        refine ⟨⟨?_, fun hout => absurd hin hout⟩, fun hout => absurd hin hout⟩
        rintro ⟨e, he⟩
        cases he

end

/-! ## A record that is emptied and created again -/

namespace Recreated

def wallet : Pubkey := .ofNat 7

/-- The addresses of the configuration and of the domain's record. -/
def book : AddressBook where
  hashes := []
  wallets := [wallet]
  derived :=
    [(([configSeed], ProgramIds.domainRegistry), (.ofNat 20, 255)),
      (([domainRecordSeed, (FixedBytes.ofNat 9 : FixedBytes 32).bytes], ProgramIds.domainRegistry),
        (.ofNat 21, 255))]
  other := .ofNat 9
  derived_off_curve := by decide +kernel
  other_off_curve := by decide +kernel

/-- A wallet with lamports, and the configuration with the wallet as the authority. -/
def ledger : Ledger := .ofList
  [(wallet, ⟨1000000000, Ids.systemProgram, []⟩),
    (.ofNat 20, ⟨1169280, ProgramIds.domainRegistry, Config.discriminator ++ wallet.bytes⟩)]

end Recreated

/-- One program is added and removed, the transaction ends, and another one is added. -/
theorem record_refines_set_recreated :
    letI := Recreated.book.addressing
    letI := Native.systemProgram
    ∃ l, Run Recreated.wallet "domain" [.add (.ofNat 31), .remove (.ofNat 30), .add (.ofNat 30)] l ∧
      (l (getDomainRecordAddress "domain")).data.length % 64 = 0 ∧
      Represents (l (getDomainRecordAddress "domain")).data {.ofNat 31} := by
  let _ := Recreated.book.addressing
  let _ := Native.systemProgram
  have hstart : Run Recreated.wallet "domain" [] Recreated.ledger :=
    .start ⟨by decide +kernel, by decide +kernel, by decide +kernel⟩ (by decide +kernel)
      (by decide +kernel)
  have hadded := hstart.call (.add (.ofNat 30))
    ⟨by decide +kernel, by decide +kernel, by decide +kernel, by decide +kernel⟩
  have hhold : CanHold Recreated.wallet "domain" (commit Recreated.ledger
      ((Call.add (.ofNat 30)).process Recreated.wallet "domain" Recreated.ledger)) := by
    decide +kernel
  have hremoved := (hadded.call (.remove (.ofNat 30)) hhold).purge
  have hrun := hremoved.call (.add (.ofNat 31))
    ⟨by decide +kernel, by decide +kernel, by decide +kernel, by decide +kernel⟩
  have hsigner : CanSign [ProgramIds.domainRegistry] Recreated.wallet :=
    canSign_of_onCurve (by decide +kernel)
  obtain ⟨hlength, hrepresents, -⟩ := record_refines_set Native.systemProgram_serves
    Recreated.wallet hsigner "domain" _ _ hrun
  refine ⟨_, hrun, hlength, ?_⟩
  have hmembers : members [.add (.ofNat 31), .remove (.ofNat 30), .add (.ofNat 30)] =
      {.ofNat 31} := by
    simp [members, Call.apply]
  rwa [hmembers] at hrepresents

end FogoSessions.DomainRegistry
