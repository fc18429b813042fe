import FogoSessions.DomainRegistry.Authority
import FogoSessions.Sessions.Authorization

/-!
# Who decides what programs a domain has

The first instruction that the registry carries out makes its signer the authority. From then on the
authority hands itself on, and only the authority of the time adds programs to domains or removes
them.
-/

namespace FogoSessions.Sessions

open Lib Solana Sdk Intents DomainRegistry SessionManager

/-- Who the event makes the authority of the registry. -/
def appoints (e : Event) : Option Pubkey :=
  if e.instruction.programId = ProgramIds.domainRegistry then
    (Args.decode e.instruction.data).toOption.bind (Args.appoints e.instruction.accounts)
  else none

/-- The authority of the registry after a history: whoever was appointed last. -/
def authority : List Event → Option Pubkey
  | [] => none
  | e :: log => (appoints e).or (authority log)

theorem appoints_of_isRegistry {args : Args} {e : Event} (h : IsRegistry args e) :
    appoints e = args.appoints e.instruction.accounts := by
  rw [appoints, if_pos h.1, h.2]
  rfl

/-- Appointing is an instruction of the registry that touches no domain. -/
theorem isRegistry_of_appoints {e : Event} {a : Pubkey} (h : appoints e = some a) :
    ∃ args, IsRegistry args e ∧ args.appoints e.instruction.accounts = some a := by
  unfold appoints at h
  split at h
  · rename_i hid
    obtain ⟨args, hargs, happoints⟩ := Option.bind_eq_some_iff.1 h
    exact ⟨args, ⟨hid, toOption_eq_some.1 hargs⟩, happoints⟩
  · cases h

section

variable [Addressing] {e : Event} {l l' : Ledger} {log : List Event}

/-- The configuration is the registry's, and names whoever was appointed last. -/
structure Governed (log : List Event) (l : Ledger) : Prop extends ConfigOk l where
  unset : authority log = none → (l configAddress).owner = Ids.systemProgram
  names : ∀ a, authority log = some a → Names a l

/-- The configuration names an authority as long as nobody appoints another one. -/
theorem Governed.of_eq (h : Governed log l) (hconfig : ConfigOk l')
    (howner : (l' configAddress).owner = (l configAddress).owner)
    (hdata : (l' configAddress).data = (l configAddress).data) : Governed log l' where
  toConfigOk := hconfig
  unset hnone := howner.trans (h.unset hnone)
  names a ha := (h.names a ha).of_eq howner hdata

theorem Governed.untouched (h : Governed log l)
    (hu : Untouched programIds configAddress (l configAddress) (l' configAddress)) :
    Governed log l' := by
  have hconfig := h.toConfigOk.untouched hu
  refine h.of_eq hconfig ?_ (h.held.untouched not_canSign_config hu).2
  rcases h.held.owner with howner | ⟨howner, -⟩
  · exact (hu.owned (howner ▸ domainRegistry_mem)).1
  · exact (hu.derived not_canSign_config howner).1.trans howner.symm

theorem Governed.purge (h : Governed log l) : Governed log l.purge := by
  obtain ⟨hheld, hdata⟩ := h.held.purge
  refine h.of_eq ⟨hheld, hdata ▸ h.length⟩ ?_ hdata
  unfold Ledger.purge
  split
  · rename_i hzero
    -- nobody was appointed, since a configuration is never without lamports
    have hnone : authority log = none := by
      by_contra hsome
      obtain ⟨a, ha⟩ := Option.ne_none_iff_exists'.1 hsome
      have hpos := h.held.funded (h.names a ha).nonempty
      omega
    exact (h.unset hnone).symm
  · rfl

theorem Governed.cons (h : Governed log l) (hnone : appoints e = none) : Governed (e :: log) l where
  toConfigOk := h.toConfigOk
  unset := by
    rw [authority, hnone]
    exact h.unset
  names := by
    rw [authority, hnone]
    exact h.names

end

section

variable [Addressing] [SystemProgram] [TokenProgram] [TokenMetadata] [Chrono] [LegacyOffchain]
  [Ed25519] {w : World} {e : Event}

/-- What an event of the registry needs, and whom it appoints. -/
theorem obeys {args : Args} (he : Invoked programs w e) (hargs : IsRegistry args e) :
    Obeys e.instruction.accounts e.before args ∧ ∀ a, appoints e = some a → Names a e.after := by
  have hprocess : process e.context e.instruction e.before = some e.after := he.process
  have hne : ProgramIds.domainRegistry ≠ ProgramIds.sessionManager := by decide
  rw [process, hargs.1, if_neg hne, if_pos rfl] at hprocess
  rw [appoints_of_isRegistry hargs]
  exact process_obeys hargs.2 (toOption_eq_some.1 hprocess)

/-- What one event does to the configuration. -/
theorem governed_action {log : List Event} (he : Invoked programs w e) (h : Governed log e.before) :
    Governed (e :: log) e.after := by
  have hother (hquiet : ∀ args, ¬ IsRegistry args e)
      (hu : Untouched programIds configAddress (e.before configAddress) (e.after configAddress)) :
      Governed (e :: log) e.after := by
    refine (h.untouched hu).cons ?_
    by_contra hsome
    obtain ⟨a, ha⟩ := Option.ne_none_iff_exists'.1 hsome
    obtain ⟨args, hargs, -⟩ := isRegistry_of_appoints ha
    exact hquiet args hargs
  have hchanged {domain : String} {before after : List DomainProgram}
      (hnone : appoints e = none)
      (hrecord : RecordChanged programIds domain before after e.before e.after) :
      Governed (e :: log) e.after := by
    refine (h.untouched (hrecord.frame _ ?_)).cons hnone
    -- the configuration has another length than a record
    intro heq
    have hlength := h.length.resolve_left hrecord.config_nonempty
    rw [heq] at hlength
    exact recordData_ne_config hlength before hrecord.data_before
  cases action he with
  | start s hstart hsign hchecked hframe hvacant hholds =>
    refine hother (fun _ => hstart.1.not_isRegistry) (hframe _ ?_)
    rintro heq
    exact not_canSign_config (heq ▸ hsign)
  | revoke key session info hrevoke hload hrevoked hframe hholds =>
    exact hother (fun _ => hrevoke.1.not_isRegistry)
      (hframe _ (h.held.ne (loadSession_eq_ok hload).1))
  | close key session user mints hclose hload hlive hmints hframe hvacant hdelegates =>
    exact hother (fun _ => hclose.1.not_isRegistry)
      (hframe _ (h.held.ne (loadSession_eq_ok hload).1))
  | toll toll htoll hpaid hframe =>
    exact hother (fun _ hargs => hargs.not_isToll htoll) (hframe _)
  | add domain programId before hadds hnew hrecord =>
    exact hchanged (appoints_of_isRegistry hadds.1) hrecord
  | remove domain p before after index hremoves hindex hperm hrecord =>
    exact hchanged (appoints_of_isRegistry hremoves.1) hrecord
  | config args hargs hadd hremove hrewritten hlength =>
    obtain ⟨hobeys, hnames⟩ := obeys he hargs
    have hsome : ∃ a, appoints e = some a := by
      rw [appoints_of_isRegistry hargs]
      cases args with
      | initializeConfig =>
        cases hobeys with
        | initializeConfig _ hsigner _ =>
          obtain ⟨account, haccount, -⟩ := hsigner
          exact ⟨account.pubkey, by rw [Args.appoints, haccount]; rfl⟩
        | authority _ _ hne _ _ => exact absurd rfl hne
      | updateAuthority newAuthority => exact ⟨newAuthority, rfl⟩
      | addProgram domain => exact absurd rfl (hadd domain)
      | removeProgram domain => exact absurd rfl (hremove domain)
    obtain ⟨a, ha⟩ := hsome
    have hauthority : authority (e :: log) = some a := by rw [authority, ha]; rfl
    constructor
    · exact ⟨⟨.inl hrewritten.owner_after, hrewritten.funded h.held.funded⟩, .inr (hlength h.length)⟩
    · intro hnone
      cases hauthority.symm.trans hnone
    · intro a' ha'
      obtain rfl := Option.some.inj (hauthority.symm.trans ha')
      exact hnames a ha

theorem governed_invariant : Invariant programs fun w => Governed w.log w.ledger where
  init _ :=
    { held := ⟨.inr ⟨rfl, rfl⟩, fun hne => absurd rfl hne⟩
      length := .inl rfl
      unset := fun _ => rfl
      names := fun a ha => by cases ha }
  tick _ _ h _ := h
  frame _ _ h hframe := h.untouched (hframe _)
  purge _ h := h.purge
  invoke w e _ h he := governed_action he (he.before_eq ▸ h)

theorem governed_before {newer older : List Event} (hw : Observed programs w)
    (hlog : w.log = newer ++ e :: older) :
    ∃ w', Invoked programs w' e ∧ Governed older e.before := by
  obtain ⟨w', hw', hold, -, he⟩ := hw.history newer e older hlog
  refine ⟨w', he, ?_⟩
  rw [he.before_eq, ← hold]
  exact governed_invariant.observed hw'

theorem Governed.obeys {args : Args} {older : List Event} (h : Governed older e.before)
    (he : Invoked programs w e) (hargs : IsRegistry args e) :
    ∃ signer, SignedFirst e.instruction.accounts signer ∧
      authority older = if args = .initializeConfig then none else some signer := by
  cases (Sessions.obeys he hargs).1 with
  | initializeConfig signer hsigner hsystem =>
    refine ⟨signer, hsigner, ?_⟩
    rw [if_pos rfl]
    by_contra hsome
    obtain ⟨a, ha⟩ := Option.ne_none_iff_exists'.1 hsome
    have howner := (h.names a ha).owner_eq
    exact absurd (howner.symm.trans hsystem) (by decide)
  | authority _ signer hne hsigner hnames =>
    refine ⟨signer, hsigner, ?_⟩
    rw [if_neg hne]
    have hsome : authority older ≠ none := by
      intro hnone
      have hsystem := h.unset hnone
      exact absurd (hnames.owner_eq.symm.trans hsystem) (by decide)
    obtain ⟨a, ha⟩ := Option.ne_none_iff_exists'.1 hsome
    rw [ha, (h.names a ha).unique hnames]

/-- **The registry obeys its authority.** In every run, an instruction of the registry that went through
    was signed by the authority of the time: the first signer of all, or whoever an authority has
    handed over to since. There is only one first. -/
theorem registry_obeys {newer older : List Event} {args : Args} (hw : Observed programs w)
    (hlog : w.log = newer ++ e :: older) (hargs : IsRegistry args e) :
    ∃ signer, SignedFirst e.instruction.accounts signer ∧
      authority older = if args = .initializeConfig then none else some signer := by
  obtain ⟨w', he, hgoverned⟩ := governed_before hw hlog
  exact hgoverned.obeys he hargs

/-- **A domain has the programs the authority gave it.** A program that is in the record of a domain, in
    any state of any run, was put there by an instruction that the authority of the time signed, and no
    instruction has removed it since. -/
theorem recorded_by_authority {domain : String} {ps : List DomainProgram} {p : DomainProgram}
    (hw : Observed programs w)
    (hdistinct : (insert domain { d | ∃ e ∈ w.log, Touches d e }).InjOn getDomainRecordAddress)
    (hps : (w.ledger (getDomainRecordAddress domain)).data = recordData ps) (hp : p ∈ ps) :
    p.signerPda = derivedAddress [programSignerSeed] p.programId ∧
    ∃ newer e older signer, w.log = newer ++ e :: older ∧ Adds domain p.programId e ∧
      (∀ x ∈ newer, ¬ Removes domain p.programId x) ∧ SignedFirst e.instruction.accounts signer ∧
      authority older = some signer := by
  have htouches : ∀ x ∈ w.log, ∀ d, Touches d x →
      d ∈ insert domain { d | ∃ e ∈ w.log, Touches d e } :=
    fun x hx d hd => .inr ⟨x, hx, hd⟩
  have hrecord := (((recordsOk_invariant hdistinct).observed hw) htouches).2 domain (.inl rfl)
  obtain ⟨e, older, hadds, hsince⟩ :=
    (hrecord.registered ps hps p.programId).1 (List.mem_map_of_mem hp)
  obtain ⟨newer, hlog, hnewer⟩ := Since.iff_append.1 hsince
  obtain ⟨w', he, hgoverned⟩ := governed_before hw hlog
  obtain ⟨signer, hsigner, hauthority⟩ := hgoverned.obeys he hadds.1
  exact ⟨hrecord.signer ps hps p hp, newer, e, older, signer, hlog, hadds, hnewer, hsigner,
    hauthority⟩

end

namespace Sample

def updateAuthority : Instruction where
  programId := ProgramIds.domainRegistry
  accounts := [signer sponsor, writable config]
  data := updateAuthorityDiscriminator ++ user.bytes

def removeTollbooth : Instruction where
  programId := ProgramIds.domainRegistry
  accounts := [signer user, readonly config, writable record, readonly ProgramIds.tollbooth,
    readonly Ids.systemProgram]
  data := removeProgramDiscriminator ++ leBytes 4 15 ++ utf8 "https://app.xyz"

/-- The first authority gives the domain a program and hands over. -/
def handedOver : List (Int64 × List Instruction) :=
  [(1000, [initializeConfig]), (1000, [addTollbooth]), (1500, [updateAuthority])]

/-- The second authority takes the program away. -/
def takenAway : List (Int64 × List Instruction) := handedOver ++ [(2000, [removeTollbooth])]

theorem takenAway_admissible : ∀ entry ∈ takenAway, Admissible programIds entry.2 :=
  AddressBook.admissible_of_allows (by decide +kernel)

instance {args : Args} {e : Event} : Decidable (IsRegistry args e) :=
  inferInstanceAs (Decidable (_ ∧ _))

abbrev TakenAway (w : World) : Prop :=
  w.log.head?.any (fun e => decide (IsRegistry (.removeProgram "https://app.xyz") e)) = true

theorem takenAway_runs : ∃ w, world.runAll programs takenAway = some w ∧ TakenAway w :=
  World.exists_runAll (by decide +kernel)

theorem registry_obeys_takenAway : ∃ w e older signer, world.runAll programs takenAway = some w ∧
    w.log = e :: older ∧ SignedFirst e.instruction.accounts signer ∧
    authority older = some signer := by
  obtain ⟨w, hw, htaken⟩ := takenAway_runs
  obtain ⟨e, he, hargs⟩ := (Option.any_eq_true _ _).1 htaken
  have hargs := of_decide_eq_true hargs
  have hreachable := world_reachable.runAll takenAway_admissible hw
  obtain ⟨older, hlog⟩ := List.head?_eq_some_iff.1 he
  have hlast : w.log = [] ++ e :: older := hlog
  obtain ⟨signer, hsigner, hauthority⟩ := registry_obeys hreachable.observed hlast hargs
  exact ⟨w, e, older, signer, hw, hlog, hsigner, hauthority⟩

/-- What is checked on the ledger after `handedOver` has run. -/
abbrev HandedOver (w : World) : Prop :=
  (w.ledger (getDomainRecordAddress "https://app.xyz")).data =
      recordData [⟨ProgramIds.tollbooth, tollboothSigner⟩] ∧
    ∀ e ∈ w.log, ∀ domain ∈ domainNames e, domain = "https://app.xyz"

theorem handedOver_runs : ∃ w, world.runAll programs handedOver = some w ∧ HandedOver w :=
  World.exists_runAll (by decide +kernel)

theorem recorded_by_authority_handedOver : ∃ w newer e older signer,
    world.runAll programs handedOver = some w ∧ w.log = newer ++ e :: older ∧
    Adds "https://app.xyz" ProgramIds.tollbooth e ∧ SignedFirst e.instruction.accounts signer ∧
    authority older = some signer := by
  obtain ⟨w, hw, hrecord, hdomains⟩ := handedOver_runs
  have hreachable := world_reachable.runAll
    (fun entry hentry => takenAway_admissible entry (List.mem_append_left _ hentry)) hw
  have hdomain : ∀ d ∈ insert "https://app.xyz" { d | ∃ e ∈ w.log, Touches d e },
      d = "https://app.xyz" := by
    rintro d (rfl | ⟨e, he, htouches⟩)
    · rfl
    · have hdomain : d ∈ domainsOf w.log := ⟨e, he, .inl htouches⟩
      obtain ⟨e', he', hmem⟩ := mem_domainNames hdomain
      exact hdomains e' he' d hmem
  have hdistinct : (insert "https://app.xyz" { d | ∃ e ∈ w.log, Touches d e }).InjOn
      getDomainRecordAddress := by
    intro a ha b hb _
    rw [hdomain a ha, hdomain b hb]
  obtain ⟨-, newer, e, older, signer, hlog, hadds, -, hsigner, hauthority⟩ :=
    recorded_by_authority hreachable.observed hdistinct hrecord List.mem_cons_self
  exact ⟨w, newer, e, older, signer, hw, hlog, hadds, hsigner, hauthority⟩

end Sample

end FogoSessions.Sessions
