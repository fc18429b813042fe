import FogoSessions.Sessions.System

/-!
# What the domain records hold

In every run, the record of a domain holds the programs that were added to the domain and not
removed since, each once. The invariant is about a set of domains with distinct record addresses.
-/

namespace FogoSessions.Sessions

open Lib Solana Sdk Intents DomainRegistry SessionManager

section

variable [Addressing] {key : Pubkey} {l l' : Ledger}

/-- The account is the registry's, or does not exist yet. -/
structure RegistryAccount (key : Pubkey) (l : Ledger) : Prop where
  owner : (l key).owner = ProgramIds.domainRegistry ∨
    (l key).owner = Ids.systemProgram ∧ (l key).data = []
  funded : (l key).data ≠ [] → 0 < (l key).lamports

theorem RegistryAccount.untouched (h : RegistryAccount key l) (hkey : ¬ CanSign programIds key)
    (hu : Untouched programIds key (l key) (l' key)) :
    RegistryAccount key l' ∧ (l' key).data = (l key).data := by
  rcases h.owner with howner | ⟨howner, hdata⟩
  · obtain ⟨ho, hd, hl⟩ := hu.owned (howner ▸ domainRegistry_mem)
    refine ⟨⟨.inl (ho.trans howner), fun hne => ?_⟩, hd⟩
    exact lt_of_lt_of_le (h.funded (hd ▸ hne)) hl
  · obtain ⟨ho, hd⟩ := hu.derived hkey howner
    have hd' := hd.trans hdata
    exact ⟨⟨.inr ⟨ho, hd'⟩, fun hne => absurd hd' hne⟩, hd⟩

omit [Addressing] in
theorem RegistryAccount.purge (h : RegistryAccount key l) :
    RegistryAccount key l.purge ∧ (l.purge key).data = (l key).data := by
  by_cases hzero : (l key).lamports = 0
  · have hpurge : l.purge key = .empty := if_pos hzero
    have hdata : (l key).data = [] := by
      by_contra hne
      have hpos := h.funded hne
      omega
    have hempty : (l.purge key).data = [] := by rw [hpurge]; rfl
    refine ⟨⟨.inr ⟨by rw [hpurge]; rfl, hempty⟩, fun hne => absurd hempty hne⟩, ?_⟩
    rw [hempty, hdata]
  · have hpurge : l.purge key = l key := if_neg hzero
    rw [hpurge]
    exact ⟨⟨hpurge ▸ h.owner, hpurge ▸ h.funded⟩, rfl⟩

omit [Addressing] in
/-- The session manager works on accounts of its own. -/
theorem RegistryAccount.ne {k : Pubkey} (h : RegistryAccount key l)
    (hk : (l k).owner = ProgramIds.sessionManager) : key ≠ k := by
  rintro rfl
  rcases h.owner with howner | ⟨howner, -⟩
  · exact ProgramIds.domainRegistry_ne_sessionManager (howner.symm.trans hk)
  · exact ProgramIds.sessionManager_ne_systemProgram (hk.symm.trans howner)

theorem not_canSign_config : ¬ CanSign programIds configAddress :=
  not_canSign_derived domainRegistry_mem _

theorem not_canSign_record (domain : String) :
    ¬ CanSign programIds (getDomainRecordAddress domain) :=
  not_canSign_derived domainRegistry_mem _

end

/-- No record has the length of the configuration. -/
theorem recordData_ne_config {data : Bytes} (h : data.length = 40) (ps : List DomainProgram) :
    data ≠ recordData ps := by
  rintro rfl
  rw [length_recordData, DomainProgram.size] at h
  omega

variable [Addressing]

/-- The configuration's account is empty or holds the configuration. -/
structure ConfigOk (l : Ledger) : Prop where
  held : RegistryAccount configAddress l
  length : (l configAddress).data = [] ∨ (l configAddress).data.length = 40

/-- The record of the domain holds the programs that are registered for it. -/
structure RecordOk (domain : String) (log : List Event) (l : Ledger) : Prop where
  held : RegistryAccount (getDomainRecordAddress domain) l
  nodup : ∀ ps, (l (getDomainRecordAddress domain)).data = recordData ps →
    (ps.map DomainProgram.programId).Nodup
  signer : ∀ ps, (l (getDomainRecordAddress domain)).data = recordData ps →
    ∀ p ∈ ps, p.signerPda = derivedAddress [programSignerSeed] p.programId
  registered : ∀ ps, (l (getDomainRecordAddress domain)).data = recordData ps →
    ∀ programId, programId ∈ ps.map DomainProgram.programId ↔ IsRegistered domain programId log

variable {l l' : Ledger} {log : List Event} {domain : String} {e : Event}

theorem ConfigOk.untouched (h : ConfigOk l)
    (hu : Untouched programIds configAddress (l configAddress) (l' configAddress)) : ConfigOk l' := by
  obtain ⟨hheld, hdata⟩ := h.held.untouched not_canSign_config hu
  exact ⟨hheld, hdata ▸ h.length⟩

/-- A record whose data stays holds what it did, as long as nobody adds or removes anything. -/
theorem RecordOk.of_data (h : RecordOk domain log l)
    (hheld : RegistryAccount (getDomainRecordAddress domain) l')
    (hdata : (l' (getDomainRecordAddress domain)).data = (l (getDomainRecordAddress domain)).data)
    {log' : List Event}
    (hlog : ∀ programId, IsRegistered domain programId log' ↔ IsRegistered domain programId log) :
    RecordOk domain log' l' where
  held := hheld
  nodup ps hps := h.nodup ps (hdata ▸ hps)
  signer ps hps := h.signer ps (hdata ▸ hps)
  registered ps hps programId := (h.registered ps (hdata ▸ hps) programId).trans (hlog programId).symm

theorem RecordOk.untouched (h : RecordOk domain log l)
    (hu : Untouched programIds (getDomainRecordAddress domain)
      (l (getDomainRecordAddress domain)) (l' (getDomainRecordAddress domain)))
    (hadds : ∀ p, ¬ Adds domain p e) (hremoves : ∀ p, ¬ Removes domain p e) :
    RecordOk domain (e :: log) l' := by
  obtain ⟨hheld, hdata⟩ := h.held.untouched (not_canSign_record domain) hu
  refine h.of_data hheld hdata fun programId => ?_
  rw [isRegistered_cons]
  exact ⟨fun h => (h.resolve_left (hadds programId)).2, fun h => .inr ⟨hremoves programId, h⟩⟩

/-- A record with other programs in it. -/
theorem RecordOk.of_changed {before after : List DomainProgram} (hheld : RegistryAccount
      (getDomainRecordAddress domain) l)
    (hchanged : RecordChanged programIds domain before after l l')
    (hnodup : (after.map DomainProgram.programId).Nodup)
    (hsigner : ∀ p ∈ after, p.signerPda = derivedAddress [programSignerSeed] p.programId)
    (hregistered : ∀ programId, programId ∈ after.map DomainProgram.programId ↔
      IsRegistered domain programId log) : RecordOk domain log l' := by
  have hafter {ps : List DomainProgram}
      (hps : (l' (getDomainRecordAddress domain)).data = recordData ps) : ps = after :=
    recordData_injective (hps.symm.trans hchanged.data_after)
  exact
    { held := ⟨.inl hchanged.owner_after, hchanged.funded hheld.funded⟩
      nodup := fun ps hps => hafter hps ▸ hnodup
      signer := fun ps hps => hafter hps ▸ hsigner
      registered := fun ps hps => hafter hps ▸ hregistered }

theorem RecordOk.add {programId : Pubkey} {before : List DomainProgram} (h : RecordOk domain log l)
    (hadds : Adds domain programId e)
    (hnew : ⟨programId, derivedAddress [programSignerSeed] programId⟩ ∉ before)
    (hchanged : RecordChanged programIds domain before
      (before ++ [⟨programId, derivedAddress [programSignerSeed] programId⟩]) l l') :
    RecordOk domain (e :: log) l' := by
  have hbefore := hchanged.data_before
  have hnot : programId ∉ before.map DomainProgram.programId := by
    intro hmem
    obtain ⟨p, hp, rfl⟩ := List.mem_map.1 hmem
    apply hnew
    rw [← h.signer before hbefore p hp]
    exact hp
  refine .of_changed h.held hchanged ?_ ?_ ?_
  · rw [List.map_append, List.nodup_append]
    refine ⟨h.nodup before hbefore, by simp, ?_⟩
    rintro a ha b hb rfl
    rw [List.mem_singleton.1 hb] at ha
    exact hnot ha
  · intro p hp
    rcases List.mem_append.1 hp with hp | hp
    · exact h.signer before hbefore p hp
    · rw [List.mem_singleton.1 hp]
  · intro q
    rw [isRegistered_cons, ← h.registered before hbefore q]
    have hremoves : ¬ Removes domain q e := fun hr => by
      cases hadds.1.unique hr.1
    have hadds_iff : Adds domain q e ↔ q = programId :=
      ⟨fun hq => Option.some.inj (hq.2.symm.trans hadds.2), fun hq => hq ▸ hadds⟩
    simp only [List.map_append, List.mem_append, List.map_cons, List.map_nil, List.mem_singleton,
      hadds_iff, hremoves, not_false_eq_true, true_and]
    exact or_comm

theorem RecordOk.remove {p : DomainProgram} {before after : List DomainProgram} {index : Nat}
    (h : RecordOk domain log l) (hremoves : Removes domain p.programId e)
    (hindex : before[index]? = some p) (hperm : after.Perm (before.eraseIdx index))
    (hchanged : RecordChanged programIds domain before after l l') :
    RecordOk domain (e :: log) l' := by
  have hbefore := hchanged.data_before
  have hnodup := h.nodup before hbefore
  have hsplit := cons_perm_of_eraseIdx hindex hperm
  have hids := hsplit.map DomainProgram.programId
  rw [List.map_cons] at hids
  obtain ⟨hnot, hnodup'⟩ := List.nodup_cons.1 (hids.nodup_iff.2 hnodup)
  refine .of_changed h.held hchanged hnodup' ?_ ?_
  · intro q hq
    exact h.signer before hbefore q (hsplit.mem_iff.1 (List.mem_cons_of_mem p hq))
  · intro q
    rw [isRegistered_cons, ← h.registered before hbefore q]
    have hadds : ¬ Adds domain q e := fun ha => by
      cases hremoves.1.unique ha.1
    have hremoves_iff : Removes domain q e ↔ q = p.programId :=
      ⟨fun hq => Option.some.inj (hq.2.symm.trans hremoves.2), fun hq => hq ▸ hremoves⟩
    rw [← hids.mem_iff, List.mem_cons, hremoves_iff]
    simp only [hadds, false_or]
    constructor
    · intro hq
      exact ⟨fun heq => hnot (heq ▸ hq), .inr hq⟩
    · rintro ⟨hne, hq⟩
      exact hq.resolve_left hne

/-! ## Every run -/

/-- The event adds a program to the domain or removes one from it. -/
def Touches (domain : String) (e : Event) : Prop :=
  ∃ programId, Adds domain programId e ∨ Removes domain programId e

/-- The records of the domains hold what they should, as long as only these domains occur. -/
def RecordsOk (D : Set String) (w : World) : Prop :=
  (∀ e ∈ w.log, ∀ domain, Touches domain e → domain ∈ D) →
    ConfigOk w.ledger ∧ ∀ domain ∈ D, RecordOk domain w.log w.ledger

variable {D : Set String}

theorem recordsOk_init (now : Int64) : RecordsOk D ⟨.empty, now, []⟩ := by
  have hheld (key : Pubkey) : RegistryAccount key .empty :=
    ⟨.inr ⟨rfl, rfl⟩, fun hne => absurd rfl hne⟩
  have hnone {ps : List DomainProgram} (hps : [] = recordData ps) : ps = [] :=
    recordData_injective (hps.symm.trans rfl)
  intro _
  refine ⟨⟨hheld _, .inl rfl⟩, fun domain _ => ⟨hheld _, ?_, ?_, ?_⟩⟩
  · intro ps hps
    rw [hnone hps]
    simp
  · intro ps hps
    rw [hnone hps]
    simp
  · intro ps hps programId
    rw [hnone hps]
    constructor
    · intro hmem
      cases hmem
    · rintro ⟨e, older, -, hsince⟩
      cases hsince

theorem recordsOk_frame {w : World} (h : RecordsOk D w) (hframe : Frame programIds w.ledger l') :
    RecordsOk D { w with ledger := l' } := by
  intro hD
  obtain ⟨hconfig, hrecords⟩ := h hD
  refine ⟨hconfig.untouched (hframe _), fun domain hdomain => ?_⟩
  have hrecord := hrecords domain hdomain
  obtain ⟨hheld, hdata⟩ := hrecord.held.untouched (not_canSign_record domain) (hframe _)
  exact hrecord.of_data hheld hdata fun _ => Iff.rfl

theorem recordsOk_purge {w : World} (h : RecordsOk D w) :
    RecordsOk D { w with ledger := w.ledger.purge } := by
  intro hD
  obtain ⟨hconfig, hrecords⟩ := h hD
  constructor
  · obtain ⟨hheld, hdata⟩ := hconfig.held.purge
    exact ⟨hheld, hdata ▸ hconfig.length⟩
  · intro domain hdomain
    have hrecord := hrecords domain hdomain
    obtain ⟨hheld, hdata⟩ := hrecord.held.purge
    exact hrecord.of_data hheld hdata fun _ => Iff.rfl

/-- An event that is not the registry's leaves the registry's accounts alone. -/
theorem records_other (hquiet : ∀ args, ¬ IsRegistry args e) (hconfig : ConfigOk e.before)
    (hrecords : ∀ domain ∈ D, RecordOk domain log e.before)
    (huntouched : ∀ key, RegistryAccount key e.before → ¬ CanSign programIds key →
      Untouched programIds key (e.before key) (e.after key)) :
    ConfigOk e.after ∧ ∀ domain ∈ D, RecordOk domain (e :: log) e.after := by
  refine ⟨hconfig.untouched (huntouched _ hconfig.held not_canSign_config), ?_⟩
  intro domain hdomain
  have hrecord := hrecords domain hdomain
  exact hrecord.untouched (huntouched _ hrecord.held (not_canSign_record domain))
    (fun p ha => hquiet _ ha.1) fun p hr => hquiet _ hr.1

/-- Changing the record of one of the domains leaves the other records alone. -/
theorem records_changed {before after : List DomainProgram} {programId : Pubkey}
    (hD : D.InjOn getDomainRecordAddress) (hdomain : domain ∈ D) (hconfig : ConfigOk e.before)
    (hrecords : ∀ domain ∈ D, RecordOk domain log e.before)
    (htouches : Adds domain programId e ∨ Removes domain programId e)
    (hchanged : RecordChanged programIds domain before after e.before e.after)
    (hrecord : RecordOk domain (e :: log) e.after) :
    ConfigOk e.after ∧ ∀ domain ∈ D, RecordOk domain (e :: log) e.after := by
  have hne : configAddress ≠ getDomainRecordAddress domain := by
    intro heq
    have hlength := hconfig.length.resolve_left hchanged.config_nonempty
    rw [heq] at hlength
    exact recordData_ne_config hlength before hchanged.data_before
  refine ⟨hconfig.untouched (hchanged.frame _ hne), fun other hother => ?_⟩
  by_cases heq : other = domain
  · exact heq ▸ hrecord
  · have haddress : getDomainRecordAddress other ≠ getDomainRecordAddress domain :=
      fun h => heq (hD hother hdomain h)
    refine (hrecords other hother).untouched (hchanged.frame _ haddress) ?_ ?_
    · intro p ha
      rcases htouches with h | h
      · cases h.1.unique ha.1
        exact heq rfl
      · cases h.1.unique ha.1
    · intro p hr
      rcases htouches with h | h
      · cases h.1.unique hr.1
      · cases h.1.unique hr.1
        exact heq rfl

variable [TokenProgram] [TokenMetadata] [Chrono] [LegacyOffchain]

/-- What one event does to the records. -/
theorem records_action (hD : D.InjOn getDomainRecordAddress) (h : Action e)
    (htouches : ∀ domain, Touches domain e → domain ∈ D) (hconfig : ConfigOk e.before)
    (hrecords : ∀ domain ∈ D, RecordOk domain log e.before) :
    ConfigOk e.after ∧ ∀ domain ∈ D, RecordOk domain (e :: log) e.after := by
  cases h with
  | start s hstart hsign hchecked hframe hvacant hholds =>
    refine records_other (fun _ => hstart.1.not_isRegistry) hconfig hrecords fun key _ hkey => ?_
    apply hframe key
    rintro rfl
    exact hkey hsign
  | revoke key session info hrevoke hload hrevoked hframe hholds =>
    exact records_other (fun _ => hrevoke.1.not_isRegistry) hconfig hrecords fun key' hkey' _ =>
      hframe key' (hkey'.ne (loadSession_eq_ok hload).1)
  | close key session user mints hclose hload hlive hmints hframe hvacant hdelegates =>
    exact records_other (fun _ => hclose.1.not_isRegistry) hconfig hrecords fun key' hkey' _ =>
      hframe key' (hkey'.ne (loadSession_eq_ok hload).1)
  | config args hargs hadd hremove hrewritten hlength =>
    have hlength := hlength hconfig.length
    refine ⟨⟨⟨.inl hrewritten.owner_after, hrewritten.funded hconfig.held.funded⟩, .inr hlength⟩, ?_⟩
    intro domain hdomain
    have hrecord := hrecords domain hdomain
    by_cases heq : getDomainRecordAddress domain = configAddress
    · have hnone (ps : List DomainProgram) :
          (e.after (getDomainRecordAddress domain)).data ≠ recordData ps := by
        rw [heq]
        exact recordData_ne_config hlength ps
      refine ⟨?_, fun ps hps => absurd hps (hnone ps), fun ps hps => absurd hps (hnone ps),
        fun ps hps => absurd hps (hnone ps)⟩
      rw [heq]
      exact ⟨.inl hrewritten.owner_after, hrewritten.funded hconfig.held.funded⟩
    · exact hrecord.untouched (hrewritten.frame _ heq)
        (fun p ha => hadd domain (hargs.unique ha.1))
        fun p hr => hremove domain (hargs.unique hr.1)
  | add domain programId before hadds hnew hchanged =>
    have hdomain := htouches domain ⟨programId, .inl hadds⟩
    exact records_changed hD hdomain hconfig hrecords (.inl hadds) hchanged
      ((hrecords domain hdomain).add hadds hnew hchanged)
  | remove domain p before after index hremoves hindex hperm hchanged =>
    have hdomain := htouches domain ⟨p.programId, .inr hremoves⟩
    exact records_changed hD hdomain hconfig hrecords (.inr hremoves) hchanged
      ((hrecords domain hdomain).remove hremoves hindex hperm hchanged)
  | toll toll htoll hpaid hframe =>
    exact records_other (fun _ hargs => hargs.not_isToll htoll) hconfig hrecords
      fun key _ _ => hframe key

/-- The records hold what they should in every run. -/
theorem recordsOk_invariant [SystemProgram] [Ed25519] (hD : D.InjOn getDomainRecordAddress) :
    Invariant programs (RecordsOk D) where
  init := recordsOk_init
  tick _ _ h _ := h
  frame _ _ h hframe := recordsOk_frame h hframe
  purge _ h := recordsOk_purge h
  invoke w e _ h he := by
    intro htouches
    obtain ⟨hconfig, hrecords⟩ := h fun x hx => htouches x (List.mem_cons_of_mem e hx)
    rw [← he.before_eq] at hconfig hrecords
    exact records_action hD (action he) (htouches e List.mem_cons_self) hconfig hrecords

end FogoSessions.Sessions
