import FogoSessions.DomainRegistry.Effects

/-!
# Whom the registry obeys

Every instruction of the registry but the first needs the signature of the authority that the
configuration names.
-/

namespace FogoSessions.DomainRegistry

open Lib Solana

variable [Addressing] {l l' : Ledger} {accounts : List AccountMeta}

/-- The configuration names the authority. -/
structure Names (authority : Pubkey) (l : Ledger) : Prop where
  owner_eq : (l configAddress).owner = ProgramIds.domainRegistry
  holds : Anchor.tryDeserialize Config.discriminator Config.codec (l configAddress).data =
    .ok ⟨authority⟩

/-- The first account of the instruction, which has signed it. -/
def SignedFirst (accounts : List AccountMeta) (key : Pubkey) : Prop :=
  ∃ account, accounts[0]? = some account ∧ account.isSigner = true ∧ account.pubkey = key

/-- The configuration names one authority. -/
theorem Names.unique {a a' : Pubkey} (h : Names a l) (h' : Names a' l) : a = a' :=
  Config.mk.inj (Except.ok.inj (h.holds.symm.trans h'.holds))

theorem Names.nonempty {a : Pubkey} (h : Names a l) : (l configAddress).data ≠ [] := by
  obtain ⟨body, rest, heq, -⟩ := Anchor.tryDeserialize_eq_ok.1 h.holds
  rw [heq]
  simp [Config.discriminator]

theorem Names.of_eq {a : Pubkey} (h : Names a l)
    (howner : (l' configAddress).owner = (l configAddress).owner)
    (hdata : (l' configAddress).data = (l configAddress).data) : Names a l' where
  owner_eq := howner.trans h.owner_eq
  holds := hdata ▸ h.holds

theorem loadConfig_names {config authority : AccountMeta} {value : Config}
    (h : loadConfig l config authority = .ok value) :
    config.pubkey = configAddress ∧ authority.isSigner = true ∧ Names authority.pubkey l := by
  simp only [loadConfig, bind_eq_ok, Anchor.signer_eq_ok, Anchor.seeds, require_eq_ok,
    exists_const] at h
  obtain ⟨hsigner, haddress, config', haccount, hauthority, -⟩ := h
  have hconfig : config.pubkey = configAddress := haddress
  rw [hconfig] at haccount
  obtain ⟨howner, hdata⟩ := Anchor.account_eq_ok haccount
  refine ⟨hconfig, hsigner, howner, ?_⟩
  rw [hdata, ← hauthority]

/-- What is written at the end of an instruction is the authority from then on. -/
theorem exitConfig_names {value : Config} (howner : (l configAddress).owner = ProgramIds.domainRegistry)
    (h : exitConfig l configAddress value = .ok l') : Names value.authority l' := by
  simp only [exitConfig, bind_eq_ok, mapErr_eq_ok, pure_eq_ok] at h
  obtain ⟨data, hserialize, rfl⟩ := h
  constructor
  · rw [Ledger.setData_owner, howner]
  · rw [Ledger.setData_same]
    exact Anchor.tryDeserialize_trySerialize hserialize

variable [SystemProgram]

/-- The first instruction finds no configuration, and its signer becomes the authority. -/
theorem initializeConfig_names (h : initializeConfig accounts l = .ok l') :
    ∃ authority, SignedFirst accounts authority ∧ (l configAddress).owner = Ids.systemProgram ∧
      Names authority l' := by
  unfold initializeConfig at h
  split at h
  · rename_i authority config systemProgram _
    simp only [bind_eq_ok, Anchor.signer_eq_ok, Anchor.writable, Anchor.program, Anchor.seeds,
      require_eq_ok, okOr_eq_ok, exists_const] at h
    obtain ⟨hsigner, -, -, haddress, -, l₁, hcreate, hexit⟩ := h
    have hconfig : config.pubkey = configAddress := haddress
    rw [hconfig] at hcreate hexit
    obtain ⟨hsystem, -, lamports, -, -, rfl⟩ := createOrFund_eq_create hcreate
    refine ⟨authority.pubkey, ⟨authority, rfl, hsigner, rfl⟩, hsystem, ?_⟩
    exact exitConfig_names Ledger.create_owner hexit
  · cases h

omit [SystemProgram] in
theorem updateAuthority_names {newAuthority : Pubkey}
    (h : updateAuthority accounts newAuthority l = .ok l') :
    ∃ authority, SignedFirst accounts authority ∧ Names authority l ∧ Names newAuthority l' := by
  unfold updateAuthority at h
  split at h
  · rename_i authority config _
    simp only [bind_eq_ok] at h
    obtain ⟨_, hload, -, -, hexit⟩ := h
    obtain ⟨hconfig, hsigner, hnames⟩ := loadConfig_names hload
    rw [hconfig] at hexit
    exact ⟨authority.pubkey, ⟨authority, rfl, hsigner, rfl⟩, hnames,
      exitConfig_names hnames.owner_eq hexit⟩
  · cases h

/-- Who the instruction makes the authority. -/
def Args.appoints (accounts : List AccountMeta) : Args → Option Pubkey
  | .initializeConfig => accounts[0]?.map AccountMeta.pubkey
  | .updateAuthority newAuthority => some newAuthority
  | .addProgram _ | .removeProgram _ => none

/-- The signer of an instruction that went through: the first one's is free, the others' is the
    authority. -/
inductive Obeys (accounts : List AccountMeta) (l : Ledger) : Args → Prop where
  | initializeConfig (authority : Pubkey) : SignedFirst accounts authority →
      (l configAddress).owner = Ids.systemProgram → Obeys accounts l .initializeConfig
  | authority (args : Args) (authority : Pubkey) : args ≠ .initializeConfig →
      SignedFirst accounts authority → Names authority l → Obeys accounts l args

omit [SystemProgram] in
/-- Where the configuration is loaded, its authority has signed. -/
theorem Obeys.of_loadConfig {authority config : AccountMeta} {rest : List AccountMeta}
    {value : Config} {args : Args} (hargs : args ≠ .initializeConfig)
    (h : loadConfig l config authority = .ok value) : Obeys (authority :: rest) l args := by
  obtain ⟨-, hsigner, hnames⟩ := loadConfig_names h
  exact .authority args authority.pubkey hargs ⟨authority, rfl, hsigner, rfl⟩ hnames

theorem process_obeys {ix : Instruction} {args : Args} (hargs : Args.decode ix.data = .ok args)
    (h : process ix l = .ok l') :
    Obeys ix.accounts l args ∧ ∀ a, args.appoints ix.accounts = some a → Names a l' := by
  simp only [process, hargs, bind_eq_ok, Except.ok.injEq, exists_eq_left'] at h
  cases args with
  | initializeConfig =>
    obtain ⟨authority, hsigner, hsystem, hnames⟩ := initializeConfig_names h
    refine ⟨.initializeConfig authority hsigner hsystem, fun a ha => ?_⟩
    obtain ⟨account, haccount, -, rfl⟩ := hsigner
    rw [Args.appoints, haccount] at ha
    exact Option.some.inj ha ▸ hnames
  | updateAuthority newAuthority =>
    obtain ⟨authority, hsigner, hbefore, hafter⟩ := updateAuthority_names h
    refine ⟨.authority _ authority (by simp) hsigner hbefore, fun a ha => ?_⟩
    exact Option.some.inj ha ▸ hafter
  | addProgram domain =>
    generalize ix.accounts = accounts at h ⊢
    change addProgram accounts domain l = .ok l' at h
    unfold addProgram at h
    split at h
    · obtain ⟨_, hload, -⟩ := bind_eq_ok.1 h
      exact ⟨.of_loadConfig (by simp) hload, fun a ha => by cases ha⟩
    · cases h
  | removeProgram domain =>
    generalize ix.accounts = accounts at h ⊢
    change removeProgram accounts domain l = .ok l' at h
    unfold removeProgram at h
    split at h
    · obtain ⟨_, hload, -⟩ := bind_eq_ok.1 h
      exact ⟨.of_loadConfig (by simp) hload, fun a ha => by cases ha⟩
    · cases h

end FogoSessions.DomainRegistry
