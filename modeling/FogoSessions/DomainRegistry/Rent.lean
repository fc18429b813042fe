import FogoSessions.DomainRegistry.RecordSet

/-!
# The rent of a record

Adding and removing a program leaves exactly the rent on the record of the domain, wherever its
lamports came from: the authority pays what is missing and gets what is left over.
-/

namespace FogoSessions.DomainRegistry

open Lib Solana Sdk

/-! ## The account -/

namespace ResizableAccountArray

variable {ε : Type} [Addressing] [SystemProgram] {l l' : Ledger} {self : ResizableAccountArray}

/-- The array holds these programs and their rent, and the rest is the payer's. -/
structure Settled (array : ResizableAccountArray) (programs : List DomainProgram) (l l' : Ledger) :
    Prop where
  data_eq : (l' array.accInfo).data = recordData programs
  lamports_eq : (l' array.accInfo).lamports = amountRequired (recordData programs).length
  sameSum : SameSum array.payer array.accInfo l l'

omit [Addressing] in
theorem adjustRentIfNeeded_rent (hsolvent : SystemProgram.Solvent) (hne : self.payer ≠ self.accInfo)
    (h : (self.adjustRentIfNeeded l : Except (ProgramError ε) Ledger) = .ok l') :
    (l' self.accInfo).lamports = amountRequired (l self.accInfo).data.length ∧
      SameSum self.payer self.accInfo l l' := by
  simp only [adjustRentIfNeeded, bind_eq_ok, okOr_eq_ok] at h
  obtain ⟨l₁, htop, h⟩ := h
  have hsum := topUp_sameSum hsolvent hne htop
  -- after the transfer the account has its rent at least
  have hfunded : amountRequired (l self.accInfo).data.length ≤ (l₁ self.accInfo).lamports := by
    obtain ⟨-, rfl⟩ := topUp_eq_some htop
    rw [Ledger.move_destination hne.symm]
    omega
  split at h
  · simp only [bind_eq_ok, require_eq_ok, pure_eq_ok] at h
    obtain ⟨-, -, rfl⟩ := h
    refine ⟨?_, hsum.trans ?_⟩
    · rw [Ledger.setLamports_same, Ledger.setLamports_of_ne hne.symm]
      omega
    · rw [Ledger.setLamports_of_ne hne.symm]
      exact .edit hne (Nat.sub_le ..)
  · cases pure_eq_ok.1 h
    refine ⟨?_, hsum⟩
    omega

theorem push_settled (hsolvent : SystemProgram.Solvent) (hne : self.payer ≠ self.accInfo)
    {value : DomainProgram} {programs : List DomainProgram}
    (hdata : (l self.accInfo).data = recordData programs)
    (h : (self.push l value : Except (ProgramError ε) Ledger) = .ok l') :
    Settled self (programs ++ [value]) l l' := by
  have hpushed : Resized [] self.accInfo ((l self.accInfo).data ++ value.toBytes) l l' :=
    (push_eq_ok List.not_mem_nil h).2
  have hdata' : (l' self.accInfo).data = recordData (programs ++ [value]) := by
    rw [hpushed.data_eq, hdata, recordData_concat]
  simp only [push, extend, bind_eq_ok, pure_eq_ok] at h
  obtain ⟨l₂, ⟨l₁, hrealloc, hadjust⟩, rfl⟩ := h
  obtain ⟨-, rfl⟩ := Anchor.realloc_eq_ok hrealloc
  obtain ⟨hlamports, hsum⟩ := adjustRentIfNeeded_rent hsolvent hne hadjust
  refine ⟨hdata', ?_, SameSum.setData.trans (hsum.trans .setData)⟩
  rw [Ledger.setData_lamports, hlamports, Ledger.setData_same]
  congr 1
  rw [length_recordData, List.length_append, List.length_take, zeros, List.length_replicate, hdata,
    length_recordData, List.length_append, List.length_singleton, Nat.succ_mul]
  omega

theorem swapRemove_settled (hsolvent : SystemProgram.Solvent) (hne : self.payer ≠ self.accInfo)
    {index : Nat} (h : (self.swapRemove l index : Except (ProgramError ε) Ledger) = .ok l') :
    ∃ programs, Settled self programs l l' := by
  have hids : Ids.systemProgram ∉ ([] : List Pubkey) := List.not_mem_nil
  obtain ⟨-, -, programs, -, -, -, -, hresized⟩ := swapRemove_eq_ok hids h
  have hdata' : (l' self.accInfo).data = recordData programs := hresized.data_eq
  simp only [swapRemove, bind_eq_ok, require_eq_ok] at h
  obtain ⟨_, -, -, -, l₁, hrealloc, hadjust⟩ := h
  obtain ⟨-, rfl⟩ := Anchor.realloc_eq_ok hrealloc
  have hadjusted : Resized [] self.accInfo _ _ l' := adjustRentIfNeeded_eq_ok List.not_mem_nil hadjust
  obtain ⟨hlamports, hsum⟩ := adjustRentIfNeeded_rent hsolvent hne hadjust
  refine ⟨programs, hdata', ?_, SameSum.setData.trans (SameSum.setData.trans hsum)⟩
  rw [hlamports, ← hadjusted.data_eq, hdata']

end ResizableAccountArray

/-! ## The instructions -/

section

variable [Addressing] [SystemProgram] {l l' : Ledger} {accounts : List AccountMeta}
  {domain : String}

/-- The record holds its rent: nothing without entries, and what its length needs otherwise. The
    authority has paid for it, or got what was left over. -/
structure HoldsRent (domain : String) (authority : Pubkey) (l l' : Ledger) : Prop where
  rent : ∃ programs, (l' (getDomainRecordAddress domain)).data = recordData programs ∧
    (l' (getDomainRecordAddress domain)).lamports =
      if programs = [] then 0
      else SystemProgram.minimumBalance (l' (getDomainRecordAddress domain)).data.length
  conserved : (l' authority).lamports + (l' (getDomainRecordAddress domain)).lamports =
    (l authority).lamports + (l (getDomainRecordAddress domain)).lamports

theorem ResizableAccountArray.Settled.holdsRent {authority : Pubkey} {l₀ : Ledger}
    {programs : List DomainProgram} (hbefore : SameSum authority (getDomainRecordAddress domain) l₀ l)
    (h : Settled ⟨getDomainRecordAddress domain, authority⟩ programs l l') :
    HoldsRent domain authority l₀ l' where
  rent := by
    refine ⟨programs, h.data_eq, h.lamports_eq.trans ?_⟩
    rw [h.data_eq, amountRequired, length_recordData]
    apply if_congr
    · cases programs with
      | nil => simp
      | cons p programs => simp [DomainProgram.size]
    · rfl
    · rfl
  conserved := hbefore.trans h.sameSum

omit [SystemProgram] in
/-- The authority of an instruction signs, so it is no record. -/
theorem loadConfig_authority {config authority : AccountMeta} {value : Config}
    (hsigned : ∀ account ∈ accounts, account.isSigner = true →
      CanSign [ProgramIds.domainRegistry] account.pubkey)
    (hmem : authority ∈ accounts) (h : loadConfig l config authority = .ok value) :
    authority.pubkey ≠ getDomainRecordAddress domain := by
  obtain ⟨_, hsigner, -⟩ := bind_eq_ok.1 h
  apply Ne.symm
  apply record_ne_authority
  exact hsigned authority hmem (Anchor.signer_eq_ok.1 hsigner)

omit [Addressing] in
theorem createDomainRecordIfNeeded_sameSum {authority key : Pubkey}
    (hsolvent : SystemProgram.Solvent) (hne : authority ≠ key)
    (h : createDomainRecordIfNeeded l authority key = .ok l') : SameSum authority key l l' := by
  unfold createDomainRecordIfNeeded at h
  split at h
  · exact createOrFund_sameSum hsolvent hne (okOr_eq_ok.1 h)
  · cases pure_eq_ok.1 h
    exact .refl

theorem addProgram_holdsRent (hsolvent : SystemProgram.Solvent)
    (hsigned : ∀ account ∈ accounts, account.isSigner = true →
      CanSign [ProgramIds.domainRegistry] account.pubkey)
    (h : addProgram accounts domain l = .ok l') :
    ∃ authority, accounts[0]?.map AccountMeta.pubkey = some authority ∧
      HoldsRent domain authority l l' := by
  unfold addProgram at h
  split at h
  · rename_i authority config domainRecord programId signerPda systemProgram _
    simp only [bind_eq_ok, require_eq_ok] at h
    obtain ⟨_, hload, -, -, -, -, -, -, -, -, -, haddress, l₁, hcreate, _, hcontains, -, -, hpush⟩ := h
    have hne : authority.pubkey ≠ getDomainRecordAddress domain :=
      loadConfig_authority hsigned List.mem_cons_self hload
    rw [haddress] at hcreate hcontains hpush
    have hsum := createDomainRecordIfNeeded_sameSum hsolvent hne hcreate
    obtain ⟨programs, hdata, -⟩ := ResizableAccountArray.contains_eq_ok hcontains
    have hsettled := ResizableAccountArray.push_settled hsolvent hne hdata hpush
    exact ⟨authority.pubkey, rfl, hsettled.holdsRent hsum⟩
  · cases h

theorem removeProgram_holdsRent (hsolvent : SystemProgram.Solvent)
    (hsigned : ∀ account ∈ accounts, account.isSigner = true →
      CanSign [ProgramIds.domainRegistry] account.pubkey)
    (h : removeProgram accounts domain l = .ok l') :
    ∃ authority, accounts[0]?.map AccountMeta.pubkey = some authority ∧
      HoldsRent domain authority l l' := by
  unfold removeProgram at h
  split at h
  · rename_i authority config domainRecord programId systemProgram _
    simp only [bind_eq_ok, require_eq_ok, okOr_eq_ok] at h
    obtain ⟨_, hload, -, -, -, -, -, -, -, haddress, _, -, index, -, hremove⟩ := h
    have hne : authority.pubkey ≠ getDomainRecordAddress domain :=
      loadConfig_authority hsigned List.mem_cons_self hload
    rw [haddress] at hremove
    obtain ⟨programs, hsettled⟩ :=
      ResizableAccountArray.swapRemove_settled hsolvent hne hremove
    exact ⟨authority.pubkey, rfl, hsettled.holdsRent .refl⟩
  · cases h

/-- **A record holds exactly its rent** after every call that adds or removes a program, and no
    lamports come or go but between the authority and the record. -/
theorem process_holds_rent (hsolvent : SystemProgram.Solvent) (ix : Instruction) (l l' : Ledger)
    (domain : String) (hsigned : Signed [ProgramIds.domainRegistry] ix)
    (hargs : Args.decode ix.data = .ok (.addProgram domain) ∨
      Args.decode ix.data = .ok (.removeProgram domain))
    (h : process ix l = .ok l') :
    ∃ authority, ix.accounts[0]?.map AccountMeta.pubkey = some authority ∧
      HoldsRent domain authority l l' := by
  obtain ⟨args, hdecode, hprocess⟩ := bind_eq_ok.1 h
  rcases hargs with hargs | hargs
  · cases hargs.symm.trans hdecode
    exact addProgram_holdsRent hsolvent hsigned hprocess
  · cases hargs.symm.trans hdecode
    exact removeProgram_holdsRent hsolvent hsigned hprocess

end

namespace Donated

/-- The first program of the domain is added. -/
def instruction [Addressing] : Instruction where
  programId := ProgramIds.domainRegistry
  accounts :=
    [⟨Recreated.wallet, true, true⟩, ⟨configAddress, false, false⟩,
      ⟨getDomainRecordAddress "domain", false, true⟩, ⟨.ofNat 30, false, false⟩,
      ⟨derivedAddress [programSignerSeed] (.ofNat 30), false, false⟩,
      ⟨Ids.systemProgram, false, false⟩]
  data := addProgramDiscriminator ++ leBytes 4 6 ++ utf8 "domain"

/-- Somebody has sent more than the rent to the address of the record. -/
def ledger : Ledger := Recreated.ledger.setLamports (.ofNat 21) 5000000

end Donated

/-- What was donated beyond the rent goes to the authority. -/
theorem process_holds_rent_donated :
    letI := Recreated.book.addressing
    letI := Native.systemProgram
    ∃ l', process Donated.instruction Donated.ledger = .ok l' ∧
      HoldsRent "domain" Recreated.wallet Donated.ledger l' := by
  let _ := Recreated.book.addressing
  let _ := Native.systemProgram
  have hargs : Args.decode Donated.instruction.data = .ok (.addProgram "domain") := by
    decide +kernel
  have hsigned : Signed [ProgramIds.domainRegistry] Donated.instruction := by
    intro account hmem hsigner
    rcases List.mem_cons.1 hmem with rfl | hmem
    · exact canSign_of_onCurve (by decide +kernel)
    · have hnone : (Donated.instruction.accounts.tail.all fun a => !a.isSigner) = true := by
        decide +kernel
      have hnot := List.all_eq_true.1 hnone account hmem
      rw [hsigner] at hnot
      cases hnot
  have hok : (process Donated.instruction Donated.ledger).isOk = true := by decide +kernel
  cases hprocess : process Donated.instruction Donated.ledger with
  | error e =>
    rw [hprocess] at hok
    cases hok
  | ok l' =>
    obtain ⟨authority, hauthority, hrent⟩ := process_holds_rent Native.systemProgram_solvent
      Donated.instruction Donated.ledger l' "domain" hsigned (.inl hargs) hprocess
    cases hauthority
    exact ⟨l', rfl, hrent⟩

end FogoSessions.DomainRegistry
