import FogoSessions.IntentTransfer.ExactlyOnce

/-!
# Charges and configurations over a run

Everything that a run has taken out of users' accounts was signed for, and what a run charges for it, and
hands it over to, is what the upgrade authority has registered last.
-/

namespace FogoSessions.IntentTransfer

open Lib Solana Intents

/-- One account holds one configuration. -/
theorem Registration.Holds.unique {r r' : Registration} {data : Bytes} (h : r.Holds data)
    (h' : r'.Holds data) (hmint : r'.mint = r.mint) : r' = r := by
  have hne : FeeConfig.discriminator ≠ ExpectedNttConfig.discriminator := by decide
  cases r with
  | fee mint config =>
    cases r' with
    | fee mint' config' =>
      obtain rfl : mint' = mint := hmint
      rw [Except.ok.inj (h'.symm.trans h)]
    | ntt mint' config' => exact (tryDeserialize_ne hne rfl h h').elim
  | ntt mint config =>
    cases r' with
    | fee mint' config' => exact (tryDeserialize_ne hne rfl h' h).elim
    | ntt mint' config' =>
      obtain rfl : mint' = mint := hmint
      rw [Except.ok.inj (h'.symm.trans h)]

section

variable [Addressing] [SystemProgram] [TokenProgram] [AssociatedTokenProgram] [TokenMetadata]
  [Invocation programIds] [LegacyOffchain] [Ed25519] {w : World} {e : Event} {x : Execution}

/-- An instruction that names the account finds the configuration. -/
def Registration.Loaded (l : Ledger) : Registration → Prop
  | fee mint config => loadFeeConfig l (feeConfigAddress mint) = .ok config
  | ntt mint config => loadNttConfig l (nttConfigAddress mint) = .ok config

omit [SystemProgram] [TokenProgram] [AssociatedTokenProgram] [TokenMetadata] [Invocation programIds]
  [LegacyOffchain] [Ed25519] in
theorem Registration.Loaded.holds {r : Registration} {l : Ledger} (h : r.Loaded l) :
    (l r.address).owner ∈ programIds ∧ r.Holds (l r.address).data := by
  cases r with
  | fee mint config =>
    obtain ⟨howner, hholds⟩ := Anchor.account_eq_ok h
    exact ⟨mem_programIds.2 howner, hholds⟩
  | ntt mint config =>
    obtain ⟨howner, hholds⟩ := Anchor.account_eq_ok h
    exact ⟨mem_programIds.2 howner, hholds⟩

/-- The first account of the instruction signed it, and could upgrade the program then. -/
def SignedByAuthority (e : Event) : Prop :=
  ∃ (signer : AccountMeta) (data : ProgramData), e.instruction.accounts[0]? = some signer ∧
    signer.isSigner = true ∧ loadProgramData e.before programDataAddress = .ok data ∧
    data.upgradeAuthorityAddress = some signer.pubkey

/-- **Configurations are the authority's.** The fees and the NTT manager of a token that an instruction
    finds, in any state of any run, are the ones that were registered for the token last, by whoever
    could upgrade the program at that time. The account is not found to be a nonce, nor to hold another
    configuration of the token. -/
theorem loaded_registered {r : Registration} (hw : Observed programs w) (hloaded : r.Loaded w.ledger)
    (hdistinct : ∀ e ∈ w.log, ∀ r', registration e = some r' → r'.address = r.address →
      r'.mint = r.mint) :
    (∃ newer e older, w.log = newer ++ e :: older ∧ registration e = some r ∧ SignedByAuthority e ∧
      ∀ e' ∈ newer, ∀ r', registration e' = some r' → r'.address ≠ r.address) ∧
    (∀ n : Nonce, Anchor.tryDeserialize Nonce.discriminator Nonce.codec (w.ledger r.address).data ≠
      .ok n) ∧
    ∀ r' : Registration, r'.Holds (w.ledger r.address).data → r'.mint = r.mint → r' = r := by
  obtain ⟨hmem, hholds⟩ := hloaded.holds
  refine ⟨?_, fun n => hholds.not_nonce, fun r' hr' hmint => hholds.unique hr' hmint⟩
  have hcustody : Custody programs r.address (Writes r.address) w := by
    cases r with
    | fee mint config => exact (custodian _).observed hw
    | ntt mint config => exact (custodian _).observed hw
  cases hcustody with
  | unused _ howner => exact absurd hmem howner
  | written e older hsince hwrites howner hdata _ _ =>
    obtain ⟨newer, hlog, hquiet⟩ := Since.iff_append.1 hsince
    obtain ⟨w', -, -, -, hinvoked⟩ := hw.history newer e older hlog
    rw [hdata] at hholds
    obtain ⟨x, hx, hkey⟩ | ⟨r', hr', hkey⟩ := hwrites
    · -- a nonce is no configuration
      cases action hinvoked with
      | execution x' hx' _ hadvances _ =>
        obtain rfl := Option.some.inj (hx.symm.trans hx')
        exact absurd (hkey ▸ hadvances.holds) hholds.not_nonce
      | registration r' _ hnone _ => cases hnone.symm.trans hx
    · cases action hinvoked with
      | execution x _ hnone _ _ => cases hnone.symm.trans hr'
      | registration r'' hr'' _ hdone =>
        obtain rfl := Option.some.inj (hr'.symm.trans hr'')
        have hmint := hdistinct e hsince.mem r' hr' hkey
        obtain rfl := hholds.unique (hkey ▸ hdone.holds) hmint
        refine ⟨newer, e, older, hlog, hr', hdone.authority, fun e' he' r'' hr'' haddress => ?_⟩
        exact hquiet e' he' (.inr ⟨r'', hr'', haddress⟩)

end

namespace Sample

theorem loaded_registered_sample : ∃ w newer e older, world.runAll programs schedule = some w ∧
    w.log = newer ++ e :: older ∧ registration e = some (.fee mint ⟨5000, 10000⟩) ∧
    SignedByAuthority e := by
  obtain ⟨w, hw, -, -, -, -, -, -, -, hloaded, hmints⟩ := schedule_runs
  have hreachable := world_reachable.runAll admissible hw
  have hdistinct : ∀ e ∈ w.log, ∀ r', registration e = some r' →
      r'.address = (Registration.fee mint ⟨5000, 10000⟩).address → r'.mint = mint := by
    intro e he r' hr' _
    have hall := hmints e he
    rw [hr'] at hall
    exact of_decide_eq_true hall
  obtain ⟨⟨newer, e, older, hlog, hregistration, hauthority, -⟩, -, -⟩ :=
    loaded_registered (r := .fee mint ⟨5000, 10000⟩) hreachable.observed hloaded hdistinct
  exact ⟨w, newer, e, older, hw, hlog, hregistration, hauthority⟩

end Sample

end FogoSessions.IntentTransfer
