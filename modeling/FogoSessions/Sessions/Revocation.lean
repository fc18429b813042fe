import FogoSessions.Sessions.Delegation

/-!
# Revocation is permanent

A revoked session keeps its expiration, and its account is not vacated before the clock has passed
it. The intent it was started from can start another session on the account then, but none that is
live.
-/

namespace FogoSessions.Sessions

open Lib Solana Sdk Intents DomainRegistry SessionManager

section

variable [Addressing] [TokenProgram] [TokenMetadata] [Chrono] [LegacyOffchain]

variable {key : Pubkey} {log older : List Event} {l : Ledger} {e : Event}
  {intent : Intent SessionManager.Message} {session : Session}

/-- The session on the account expires when the intent of the last start on it says. -/
theorem SessionState.expiration (h : SessionState key log l)
    (hsession : Session.tryDeserialize (l key).data = .ok session)
    (hstarts : StartsFrom key intent e) (hsince : Since (fun x => ¬ IsStart key x) e older log) :
    session.expiration = .ok intent.message.expires.timestamp := by
  obtain ⟨s, e', older', hs, rfl, hsince', hor⟩ := h.last_start hsession
  have hquiet : Since (fun x => ¬ IsStart s.accounts.session x) e' older' log :=
    hsince'.mono fun _ hx => hx.1
  obtain ⟨rfl, -⟩ := hsince.unique (fun h => h hstarts.1) (fun h => h hs.1) hquiet
  have hintent : s.intent = intent :=
    Except.ok.inj (hs.2.intent_eq.symm.trans hstarts.2)
  obtain ⟨hexpiration, -⟩ := buildSession_eq_ok hs.2.session_eq
  rw [hintent] at hexpiration
  rcases hor with rfl | ⟨info, hinfo, rfl⟩
  · exact hexpiration
  · rw [revokedInfo_expiration hinfo, hexpiration]

/-- Nothing that expires at `expiration` can be live on the account again: the account holds a
    revoked session with that expiration, or the expiration has passed. -/
def Dead (key : Pubkey) (expiration : UnixTimestamp) (w : World) : Prop :=
  (∃ session, Holds w.ledger key session ∧ session.checkIsUnrevoked = .error .revoked ∧
    session.expiration = .ok expiration) ∨ expiration < w.now

variable {expiration : UnixTimestamp} {w : World}

/-- What one event does to a dead session. -/
theorem Dead.action (hnow : e.context.now = w.now) (hbefore : e.before = w.ledger)
    (haction : Action e) (h : Dead key expiration w) {log : List Event} :
    Dead key expiration ⟨e.after, w.now, log⟩ := by
  rcases h with ⟨session, hholds, hrevoked, hexpiration⟩ | hpassed
  · rw [← hbefore] at hholds
    have hother (hu : Untouched programIds key (e.before key) (e.after key)) :
        Dead key expiration ⟨e.after, w.now, log⟩ :=
      .inl ⟨session, hholds.untouched sessionManager_mem hu, hrevoked, hexpiration⟩
    have hregistry {k : Pubkey} (hk : Rewritten programIds k e.before e.after) : key ≠ k := by
      rintro rfl
      have howner := hholds.owner_eq
      rcases hk.owner_before with h | ⟨h, -⟩
      · exact ProgramIds.domainRegistry_ne_sessionManager (h.symm.trans howner)
      · exact ProgramIds.sessionManager_ne_systemProgram (howner.symm.trans h)
    cases haction with
    | start s hstart hsign hchecked hframe hvacant hs =>
      refine hother (hframe key ?_)
      rintro rfl
      exact hvacant.not_holds session hholds
    | revoke k session' info hrevoke hload hinfo hframe hs =>
      by_cases hk : key = k
      · subst hk
        rw [hholds.loadSession_eq_ok hload] at hinfo hs
        refine .inl ⟨_, hs hholds.lamports_pos, revokedInfo_not_unrevoked hinfo, ?_⟩
        rw [revokedInfo_expiration hinfo, hexpiration]
      · exact hother (hframe key hk)
    | close k session' user mints hclose hload hlive hmints hframe hvacant hdelegates =>
      by_cases hk : key = k
      · subst hk
        rw [hholds.loadSession_eq_ok hload, Session.isLive, hexpiration, hnow] at hlive
        obtain ⟨_, heq, hle⟩ := map_eq_ok.1 hlive
        cases heq
        exact .inr (Int64.not_le.1 (by simpa using hle))
      · exact hother (hframe key hk)
    | config args hargs hadd hremove hrewritten hlength =>
      exact hother (hrewritten.frame key (hregistry hrewritten))
    | add domain programId before hadds hnew hchanged =>
      exact hother (hchanged.frame key (hregistry hchanged.toRewritten))
    | remove domain p before after index hremoves hindex hperm hchanged =>
      exact hother (hchanged.frame key (hregistry hchanged.toRewritten))
    | toll toll htoll hpaid hframe => exact hother (hframe key)
  · exact .inr hpassed

/-- Revoking the session that was started from an intent makes it dead. -/
theorem Dead.of_revoke (hsessions : SessionsOk w) (hbefore : e.before = w.ledger)
    (haction : Action e) (hrevoke : IsRevoke key e) {start : Event}
    (hstarts : StartsFrom key intent start)
    (hsince : Since (fun x => ¬ IsStart key x) start older w.log) {log : List Event} :
    Dead key intent.message.expires.timestamp ⟨e.after, w.now, log⟩ := by
  cases haction with
  | revoke k session info hrevoke' hload hinfo hframe hs =>
    obtain ⟨-, rfl⟩ := hrevoke.unique hrevoke'
    rw [hbefore] at hload hs
    have hstate := hsessions key (loadSession_eq_ok hload).1
    have hexpiration :=
      hstate.expiration (tryDeserialize_of_loadSession hload) hstarts hsince
    have hlamports : 0 < (w.ledger key).lamports := by
      cases hstate with
      | blank hzero => exact absurd hload (not_loadSession_zero hzero)
      | active _ _ _ _ _ _ hholds => exact hholds.lamports_pos
      | revoked _ _ _ _ _ _ _ _ hholds => exact hholds.lamports_pos
    refine .inl ⟨_, hs hlamports, revokedInfo_not_unrevoked hinfo, ?_⟩
    rw [revokedInfo_expiration hinfo, hexpiration]
  | start s hstart => cases (hrevoke.unique hstart).1
  | close k session user mints hclose => cases (hrevoke.unique hclose).1
  | config args hargs => exact absurd hargs hrevoke.1.not_isRegistry
  | add domain programId before hadds => exact absurd hadds.1 hrevoke.1.not_isRegistry
  | remove domain p before after index hremoves => exact absurd hremoves.1 hrevoke.1.not_isRegistry
  | toll toll htoll => exact absurd htoll hrevoke.1.not_isToll

/-- The session on the account was started from the intent and then revoked. -/
def RevokedFrom (key : Pubkey) (intent : Intent SessionManager.Message) (log : List Event) : Prop :=
  ∃ newer revoke mid start older, log = newer ++ revoke :: (mid ++ start :: older) ∧
    IsRevoke key revoke ∧ StartsFrom key intent start ∧ ∀ x ∈ mid, ¬ IsStart key x

/-- What was revoked is dead in every run. -/
theorem dead_invariant [SystemProgram] [Ed25519] :
    Invariant programs fun w => RevokedFrom key intent w.log →
      Dead key intent.message.expires.timestamp w where
  init now := by
    rintro ⟨newer, revoke, mid, start, older, hlog, -⟩
    simp at hlog
  tick w now h hle hrevoked := by
    rcases h hrevoked with hholds | hpassed
    · exact .inl hholds
    · exact .inr (Int64.lt_of_lt_of_le hpassed hle)
  frame w l' h hframe hrevoked := by
    rcases h hrevoked with ⟨session, hholds, hsession⟩ | hpassed
    · exact .inl ⟨session, hholds.untouched sessionManager_mem (hframe key), hsession⟩
    · exact .inr hpassed
  purge w h hrevoked := by
    rcases h hrevoked with ⟨session, hholds, hsession⟩ | hpassed
    · exact .inl ⟨session, hholds.purge, hsession⟩
    · exact .inr hpassed
  invoke w e hw h he := by
    rintro ⟨newer, revoke, mid, start, older, hlog, hrevoke, hstarts, hmid⟩
    cases newer with
    | nil =>
      obtain ⟨rfl, hrest⟩ := List.cons.inj hlog
      exact .of_revoke (sessionsOk_invariant.observed hw) he.before_eq (action he) hrevoke hstarts
        (Since.iff_append.2 ⟨mid, hrest, hmid⟩)
    | cons x newer =>
      obtain ⟨rfl, hrest⟩ := List.cons.inj hlog
      exact (h ⟨newer, revoke, mid, start, older, hrest, hrevoke, hstarts, hmid⟩).action he.now_eq
        he.before_eq (action he)

/-- **Revocation is permanent.** Once a session that was started from an intent has been revoked, no
    program ever accepts a session on that account that was started from the same intent. -/
theorem revocation_permanent [SystemProgram] [Ed25519] {w : World} (hw : Observed programs w)
    {key programId user : Pubkey} {intent : Intent SessionManager.Message} {session : Session}
    (hrevoked : RevokedFrom key intent w.log)
    (howner : (w.ledger key).owner = ProgramIds.sessionManager)
    (hsession : Session.tryDeserialize (w.ledger key).data = .ok session)
    (huser : session.getUserChecked programId w.now = .ok user) {newer older : List Event}
    {start : Event} (hlog : w.log = newer ++ start :: older)
    (hlast : ∀ x ∈ newer, ¬ IsStart key x) : ¬ StartsFrom key intent start := by
  intro hstarts
  obtain ⟨hunrevoked, ⟨expiration, hexpiration, hlive⟩, -⟩ := Session.getUserChecked_eq_ok huser
  have hstate := sessionsOk_invariant.observed hw key howner
  rw [hstate.expiration hsession hstarts (Since.iff_append.2 ⟨newer, hlog, hlast⟩)] at hexpiration
  cases hexpiration
  rcases dead_invariant.observed hw hrevoked with ⟨session', hholds, hdead, -⟩ | hpassed
  · rw [hholds.tryDeserialize_eq_ok hsession, hdead] at hunrevoked
    cases hunrevoked
  · exact Int64.not_lt.2 hlive hpassed

end

namespace Sample

/-- The intent of the first session. -/
def firstIntent : Intent SessionManager.Message where
  signer := user
  message := {
    version := ⟨0, 4⟩
    chainId := "localnet"
    domain := "https://app.xyz"
    expires := ⟨86400⟩
    sessionKey := session
    tokens := .specific [(.mint mint, ⟨"1.5"⟩)]
    extra := [] }

/-- What an event shows of its transaction. -/
def view (e : Event) : List Instruction × Nat × Instruction :=
  (e.context.instructions, e.context.index, e.instruction)

/-- What is checked on the ledger after `restarted` has run. -/
abbrev Restarted (w : World) : Prop :=
  w.log.map view = [
      (start secondExpires secondSignature, 1, startInstruction),
      ([closeInstruction], 0, closeInstruction),
      ([revokeInstruction], 0, revokeInstruction),
      (start firstExpires firstSignature, 1, startInstruction),
      ([addTollbooth], 0, addTollbooth),
      ([initializeConfig], 0, initializeConfig)] ∧
    (w.ledger session).owner = ProgramIds.sessionManager ∧
    Session.tryDeserialize (w.ledger session).data = .ok (sessionUntil 172800) ∧
    (sessionUntil 172800).getUserChecked ProgramIds.tollbooth w.now = .ok user

theorem restarted_runs : ∃ w, world.runAll programs restarted = some w ∧ Restarted w :=
  World.exists_runAll (by decide +kernel)

theorem revocation_permanent_restarted :
    ∃ w start older, world.runAll programs restarted = some w ∧ w.log = start :: older ∧
      IsStart session start ∧ RevokedFrom session firstIntent w.log ∧
      ¬ StartsFrom session firstIntent start := by
  obtain ⟨w, hw, hlog, howner, hsession, huser⟩ := restarted_runs
  simp only [List.map_eq_cons_iff, List.map_eq_nil_iff] at hlog
  obtain ⟨e₆, log₅, hlog, h₆, e₅, log₄, rfl, h₅, e₄, log₃, rfl, h₄, e₃, log₂, rfl, h₃, -⟩ := hlog
  have hstart {e : Event} {i : List Instruction} {n : Nat} (h : view e = (i, n, startInstruction)) :
      IsStart session e := by
    have hinstruction : e.instruction = startInstruction := congrArg (·.2.2) h
    exact ⟨⟨hinstruction ▸ rfl, hinstruction ▸ rfl⟩, by rw [account, hinstruction]; rfl⟩
  have hrevoke : IsRevoke session e₄ := by
    have hinstruction : e₄.instruction = revokeInstruction := congrArg (·.2.2) h₄
    exact ⟨⟨hinstruction ▸ rfl, hinstruction ▸ rfl⟩, by rw [account, hinstruction]; rfl⟩
  have hfirst : StartsFrom session firstIntent e₃ := by
    refine ⟨hstart h₃, ?_⟩
    have hinstructions : e₃.context.instructions = start firstExpires firstSignature :=
      congrArg (·.1) h₃
    have hindex : e₃.context.index = 1 := congrArg (·.2.1) h₃
    rw [hinstructions, hindex]
    decide +kernel
  have hrevoked : RevokedFrom session firstIntent w.log :=
    ⟨[e₆, e₅], e₄, [], e₃, log₂, hlog, hrevoke, hfirst, List.forall_mem_nil _⟩
  have hreachable : Reachable programs w := world_reachable.runAll admissible hw
  have hnewest : w.log = [] ++ e₆ :: (e₅ :: e₄ :: e₃ :: log₂) := hlog
  refine ⟨w, e₆, _, hw, hlog, hstart h₆, hrevoked, ?_⟩
  exact revocation_permanent hreachable.observed hrevoked howner hsession huser hnewest
    (List.forall_mem_nil _)

end Sample

end FogoSessions.Sessions
