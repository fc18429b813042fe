import FogoSessions.DomainRegistry.Program

/-!
# What the registry's instructions do

One lemma per instruction: which account it worked on, and what that account held before and after.
-/

namespace FogoSessions.DomainRegistry

open Lib Solana

variable [Addressing] {ids : List Pubkey} {l l' : Ledger} {accounts : List AccountMeta}
  {domain : String}

/-- The data of an account at an address of the registry was replaced. -/
structure Rewritten (ids : List Pubkey) (key : Pubkey) (l l' : Ledger) : Prop where
  frame : FrameExcept ids key l l'
  owner_before : (l key).owner = ProgramIds.domainRegistry ∨
    (l key).owner = Ids.systemProgram ∧ (l key).data = []
  owner_after : (l' key).owner = ProgramIds.domainRegistry
  funded : ((l key).data ≠ [] → 0 < (l key).lamports) → (l' key).data ≠ [] → 0 < (l' key).lamports

/-- The record of the domain held some programs and holds others now. -/
structure RecordChanged (ids : List Pubkey) (domain : String) (before after : List DomainProgram)
    (l l' : Ledger) : Prop extends Rewritten ids (getDomainRecordAddress domain) l l' where
  data_before : (l (getDomainRecordAddress domain)).data = recordData before
  data_after : (l' (getDomainRecordAddress domain)).data = recordData after
  config_nonempty : (l configAddress).data ≠ []

theorem loadConfig_nonempty {config authority : AccountMeta} {value : Config}
    (h : loadConfig l config authority = .ok value) :
    config.pubkey = configAddress ∧ (l configAddress).owner = ProgramIds.domainRegistry ∧
      (l configAddress).data ≠ [] := by
  simp only [loadConfig, bind_eq_ok, Anchor.seeds, require_eq_ok] at h
  obtain ⟨-, -, -, haddress, config', haccount, -⟩ := h
  have hconfig : config.pubkey = configAddress := haddress
  rw [hconfig] at haccount
  obtain ⟨howner, hdata⟩ := Anchor.account_eq_ok haccount
  obtain ⟨body, rest, heq, -⟩ := Anchor.tryDeserialize_eq_ok.1 hdata
  refine ⟨hconfig, howner, ?_⟩
  rw [heq]
  simp [Config.discriminator]

omit [Addressing] in
theorem exitConfig_eq_ok {config : Pubkey} {value : Config}
    (h : exitConfig l config value = .ok l') :
    ∃ data, data.length = (l config).data.length ∧ l' = l.setData config data := by
  simp only [exitConfig, bind_eq_ok, mapErr_eq_ok, pure_eq_ok] at h
  obtain ⟨data, hdata, rfl⟩ := h
  exact ⟨data, Anchor.trySerialize_length hdata, rfl⟩

variable [SystemProgram]

/-- The configuration's account is created with room for the configuration. -/
theorem initializeConfig_eq_ok (hids : Ids.systemProgram ∉ ids)
    (h : initializeConfig accounts l = .ok l') :
    Rewritten ids configAddress l l' ∧ (l' configAddress).data.length = 40 := by
  unfold initializeConfig at h
  split at h
  · rename_i authority config systemProgram _
    simp only [bind_eq_ok, Anchor.seeds, require_eq_ok, okOr_eq_ok] at h
    obtain ⟨-, -, -, -, -, -, -, haddress, -, -, l₁, hcreate, hexit⟩ := h
    have hconfig : config.pubkey = configAddress := haddress
    rw [hconfig] at hcreate hexit
    obtain ⟨hframe, hcreated⟩ := createOrFund_eq_some hids hcreate
    obtain ⟨data, hlen, rfl⟩ := exitConfig_eq_ok hexit
    refine ⟨⟨hframe.trans frameExcept_set, .inr ⟨hcreated.system, hcreated.empty⟩, ?_,
      fun _ _ => ?_⟩, ?_⟩
    · rw [Ledger.setData_owner, hcreated.owner_eq]
    · rw [Ledger.setData_lamports]
      exact hcreated.lamports_pos
    · rw [Ledger.setData_same, hlen, hcreated.data_eq]
      rfl
  · cases h

omit [SystemProgram] in
theorem updateAuthority_eq_ok {newAuthority : Pubkey}
    (h : updateAuthority accounts newAuthority l = .ok l') :
    Rewritten ids configAddress l l' ∧
      (l' configAddress).data.length = (l configAddress).data.length ∧
      (l configAddress).data ≠ [] := by
  unfold updateAuthority at h
  split at h
  · rename_i authority config _
    simp only [bind_eq_ok] at h
    obtain ⟨_, hload, -, -, hexit⟩ := h
    obtain ⟨hconfig, howner, hnonempty⟩ := loadConfig_nonempty hload
    rw [hconfig] at hexit
    obtain ⟨data, hlen, rfl⟩ := exitConfig_eq_ok hexit
    refine ⟨⟨frameExcept_set, .inl howner, ?_, fun hfunded _ => ?_⟩, ?_, hnonempty⟩
    · rw [Ledger.setData_owner, howner]
    · rw [Ledger.setData_lamports]
      exact hfunded hnonempty
    · rw [Ledger.setData_same, hlen]
  · cases h

theorem createDomainRecordIfNeeded_eq_ok {authority key : Pubkey} (hids : Ids.systemProgram ∉ ids)
    (h : createDomainRecordIfNeeded l authority key = .ok l') :
    FrameExcept ids key l l' ∧ (l' key).data = (l key).data ∧
      ((l key).owner = (l' key).owner ∨ (l key).owner = Ids.systemProgram ∧ (l key).data = []) := by
  unfold createDomainRecordIfNeeded at h
  split at h
  · obtain ⟨hframe, hcreated⟩ := createOrFund_eq_some hids (okOr_eq_ok.1 h)
    have hdata : (l' key).data = [] := hcreated.data_eq
    exact ⟨hframe, hdata.trans hcreated.empty.symm, .inr ⟨hcreated.system, hcreated.empty⟩⟩
  · cases pure_eq_ok.1 h
    exact ⟨Frame.refl.except, rfl, .inl rfl⟩

/-- The program the instruction names goes to the end of the record, where it was not yet. -/
theorem addProgram_eq_ok (hids : Ids.systemProgram ∉ ids)
    (h : addProgram accounts domain l = .ok l') :
    ∃ programId programs, accounts[3]?.map AccountMeta.pubkey = some programId ∧
      ⟨programId, derivedAddress [programSignerSeed] programId⟩ ∉ programs ∧
      RecordChanged ids domain programs
        (programs ++ [⟨programId, derivedAddress [programSignerSeed] programId⟩]) l l' := by
  unfold addProgram at h
  split at h
  · rename_i authority config domainRecord programId signerPda systemProgram _
    simp only [bind_eq_ok, Anchor.seeds, require_eq_ok] at h
    obtain ⟨_, hload, -, -, -, -, -, hsigner, -, -, -, haddress, l₁, hcreate, contained, hcontains,
      -, hnew, hpush⟩ := h
    rw [haddress] at hcreate hcontains hpush
    rw [hsigner] at hcontains hpush
    obtain ⟨-, -, hnonempty⟩ := loadConfig_nonempty hload
    obtain ⟨hframe, hdata, howner⟩ := createDomainRecordIfNeeded_eq_ok hids hcreate
    obtain ⟨programs, hprograms, hmem⟩ := ResizableAccountArray.contains_eq_ok hcontains
    obtain ⟨hregistry, hpushed⟩ := ResizableAccountArray.push_eq_ok hids hpush
    have hdata' := hpushed.data_eq
    rw [hprograms, ← recordData_concat] at hdata'
    refine ⟨programId.pubkey, programs, rfl, ?_, ⟨hframe.trans hpushed.frame, ?_, ?_, ?_⟩,
      hdata.symm.trans hprograms, hdata', hnonempty⟩
    · rw [hnew] at hmem
      simpa using hmem
    · exact howner.imp (fun ho => ho.trans hregistry) id
    · exact hpushed.owner_eq.trans hregistry
    · intro _ hne
      exact hpushed.funded (hpushed.data_eq ▸ hne)
  · cases h

/-- The first entry of the program the instruction names is gone from the record. -/
theorem removeProgram_eq_ok (hids : Ids.systemProgram ∉ ids)
    (h : removeProgram accounts domain l = .ok l') :
    ∃ programId programs index p programs',
      accounts[3]?.map AccountMeta.pubkey = some programId ∧
      programs[index]? = some p ∧ p.programId = programId ∧
      programs'.Perm (programs.eraseIdx index) ∧
      RecordChanged ids domain programs programs' l l' := by
  unfold removeProgram at h
  split at h
  · rename_i authority config domainRecord programId systemProgram _
    simp only [bind_eq_ok, require_eq_ok, okOr_eq_ok] at h
    obtain ⟨_, hload, -, -, -, -, -, -, -, haddress, _, hposition, index, rfl, hremove⟩ := h
    rw [haddress] at hposition hremove
    obtain ⟨-, -, hnonempty⟩ := loadConfig_nonempty hload
    obtain ⟨programs, hprograms, hindex⟩ := ResizableAccountArray.position_eq_ok hposition
    obtain ⟨programs₁, p, programs', howner, hprograms₁, hp, hperm, hresized⟩ :=
      ResizableAccountArray.swapRemove_eq_ok hids hremove
    obtain rfl : programs₁ = programs := recordData_injective (hprograms₁.symm.trans hprograms)
    refine ⟨programId.pubkey, programs₁, index, p, programs', rfl, hp, ?_, hperm,
      ⟨hresized.frame, .inl howner, hresized.owner_eq.trans howner,
        fun _ hne => hresized.funded (hresized.data_eq ▸ hne)⟩, hprograms, hresized.data_eq,
      hnonempty⟩
    obtain ⟨hlt, hpid, -⟩ := List.findIdx?_eq_some_iff_getElem.1 hindex
    rw [List.getElem?_eq_getElem hlt] at hp
    cases hp
    simpa using hpid
  · cases h

end FogoSessions.DomainRegistry
