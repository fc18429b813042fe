import FogoSessions.Sessions.Records

/-!
# What the session accounts hold

In every run, an account of the session manager is blank or holds the session of the last
`start_session` on it, or what `revoke_session` left of that session.
-/

namespace FogoSessions.Sessions

open Lib Solana Sdk Intents DomainRegistry SessionManager

/-! ## Sessions as they are built and revoked -/

section

variable [Addressing]

/-- What a session says does not depend on the layout its minor version gives it. -/
theorem buildSession_eq_ok {self : StartSession} {intent : Intent SessionManager.Message}
    {expiration : UnixTimestamp} {tokens : AuthorizedTokensWithMints}
    {programDomains : List AuthorizedProgram} {session : Session}
    (h : self.buildSession intent expiration tokens programDomains = .ok session) :
    session.expiration = .ok expiration ∧ session.user = .ok intent.signer ∧
      session.authorizedPrograms = .ok (.specific programDomains) := by
  unfold StartSession.buildSession at h
  dsimp only at h
  split at h <;> cases h <;> exact ⟨rfl, rfl, rfl⟩

/-- Only a session whose approvals it names, or one without token limits, can be closed. -/
theorem buildSession_mints {self : StartSession} {intent : Intent SessionManager.Message}
    {expiration : UnixTimestamp} {tokens : AuthorizedTokensWithMints}
    {programDomains : List AuthorizedProgram} {session : Session} {user : Pubkey}
    {mints : List Pubkey}
    (h : self.buildSession intent expiration tokens programDomains = .ok session)
    (hmints : mintsToRevoke session.sessionInfo = .ok (user, mints)) :
    user = intent.signer ∧ mints = mintsToRevoke.withMints tokens := by
  unfold StartSession.buildSession at h
  dsimp only at h
  split at h
  · cases h
    cases tokens with
    | specific _ => cases hmints
    | all =>
      cases hmints
      exact ⟨rfl, rfl⟩
  · cases h
    cases tokens with
    | specific _ => cases hmints
    | all =>
      cases hmints
      exact ⟨rfl, rfl⟩
  · cases h
    cases hmints
    exact ⟨rfl, rfl⟩
  · cases h
    cases hmints
    exact ⟨rfl, rfl⟩
  · cases h

end

theorem revokedInfo_idempotent {info info' info'' : SessionInfo} (h : revokedInfo info = .ok info')
    (h' : revokedInfo info' = .ok info'') : info'' = info' := by
  unfold revokedInfo at h
  split at h <;> cases h <;> cases h' <;> rfl

/-- Revoking keeps the expiration. -/
theorem revokedInfo_expiration {session : Session} {info : SessionInfo}
    (h : revokedInfo session.sessionInfo = .ok info) :
    { session with sessionInfo := info }.expiration = session.expiration := by
  obtain ⟨sponsor, major, sessionInfo⟩ := session
  unfold revokedInfo at h
  dsimp only at h
  split at h <;> cases h <;> rfl

/-- Revoking keeps what closing has to take back. -/
theorem revokedInfo_mints {info info' : SessionInfo} {r : Pubkey × List Pubkey}
    (h : revokedInfo info = .ok info') (hmints : mintsToRevoke info' = .ok r) :
    mintsToRevoke info = .ok r := by
  unfold revokedInfo at h
  split at h <;> cases h <;> cases hmints <;> rfl

theorem revokedInfo_not_unrevoked {session : Session} {info : SessionInfo}
    (h : revokedInfo session.sessionInfo = .ok info) :
    { session with sessionInfo := info }.checkIsUnrevoked = .error .revoked := by
  unfold revokedInfo at h
  split at h <;> cases h <;> rfl

/-! ## The invariant -/

variable [Addressing] [TokenProgram] [TokenMetadata] [Chrono] [LegacyOffchain]

/-- The event started this session. -/
def Starts (s : Start) (e : Event) : Prop :=
  IsStart s.accounts.session e ∧ s.Checked e.context e.instruction.accounts e.before

omit [Addressing] [TokenProgram] [TokenMetadata] [Chrono] [LegacyOffchain] in
/-- The session account was neither started again nor closed. -/
def Kept (key : Pubkey) (e : Event) : Prop := ¬ IsStart key e ∧ ¬ IsClose key e

/-- What an account of the session manager holds, after the events of the log. -/
inductive SessionState (key : Pubkey) (log : List Event) (l : Ledger) : Prop where
  | blank : (∀ b ∈ (l key).data, b = 0) → SessionState key log l
  | active (s : Start) (e : Event) (older : List Event) : Starts s e → s.accounts.session = key →
      Since (fun x => Kept key x ∧ ¬ IsRevoke key x) e older log → Holds l key s.session →
      SessionState key log l
  | revoked (s : Start) (e : Event) (older : List Event) (info : SessionInfo) : Starts s e →
      s.accounts.session = key → Since (Kept key) e older log →
      revokedInfo s.session.sessionInfo = .ok info →
      Holds l key { s.session with sessionInfo := info } → SessionState key log l

def SessionsOk (w : World) : Prop :=
  ∀ key, (w.ledger key).owner = ProgramIds.sessionManager → SessionState key w.log w.ledger

variable {key : Pubkey} {log : List Event} {l l' : Ledger} {e : Event}

/-- Whatever the account holds came from the last start on it. -/
theorem SessionState.last_start {session : Session} (h : SessionState key log l)
    (hsession : Session.tryDeserialize (l key).data = .ok session) :
    ∃ s e older, Starts s e ∧ s.accounts.session = key ∧ Since (Kept key) e older log ∧
      (session = s.session ∨ ∃ info, revokedInfo s.session.sessionInfo = .ok info ∧
        session = { s.session with sessionInfo := info }) := by
  cases h with
  | blank hzero =>
    have hanchor := Anchor.tryDeserialize_eq_ok.2 (Session.tryDeserialize_eq_ok.1 hsession)
    exact absurd hanchor (Anchor.not_tryDeserialize_zero ⟨243, by decide, by decide⟩ hzero)
  | active s e older hs hkey hsince hholds =>
    exact ⟨s, e, older, hs, hkey, hsince.mono fun _ hx => hx.1,
      .inl (hholds.tryDeserialize_eq_ok hsession)⟩
  | revoked s e older info hs hkey hsince hinfo hholds =>
    exact ⟨s, e, older, hs, hkey, hsince,
      .inr ⟨info, hinfo, hholds.tryDeserialize_eq_ok hsession⟩⟩

/-- The state follows what the account holds, while nothing happens to it. -/
theorem SessionState.map {log' : List Event} (h : SessionState key log l)
    (hblank : (∀ b ∈ (l key).data, b = 0) → ∀ b ∈ (l' key).data, b = 0)
    (hholds : ∀ session, Holds l key session → Holds l' key session)
    (hkept : ∀ s older, Since (Kept key) s older log → Since (Kept key) s older log')
    (hquiet : ∀ s older, Since (fun x => Kept key x ∧ ¬ IsRevoke key x) s older log →
      Since (fun x => Kept key x ∧ ¬ IsRevoke key x) s older log') : SessionState key log' l' := by
  cases h with
  | blank hzero => exact .blank (hblank hzero)
  | active s e older hs hkey hsince hs' =>
    exact .active s e older hs hkey (hquiet _ _ hsince) (hholds _ hs')
  | revoked s e older info hs hkey hsince hinfo hs' =>
    exact .revoked s e older info hs hkey (hkept _ _ hsince) hinfo (hholds _ hs')

/-- An account of the session manager that others leave alone keeps its state; one they made over to
    the session manager is blank. -/
theorem SessionState.untouched (howner : (l' key).owner = ProgramIds.sessionManager)
    (hu : Untouched programIds key (l key) (l' key))
    (h : (l key).owner = ProgramIds.sessionManager → SessionState key log l)
    {log' : List Event}
    (hkept : ∀ s older, Since (Kept key) s older log → Since (Kept key) s older log')
    (hquiet : ∀ s older, Since (fun x => Kept key x ∧ ¬ IsRevoke key x) s older log →
      Since (fun x => Kept key x ∧ ¬ IsRevoke key x) s older log') : SessionState key log' l' := by
  by_cases hids : (l key).owner ∈ programIds
  · obtain ⟨ho, hd, -⟩ := hu.owned hids
    refine (h (ho.symm.trans howner)).map ?_ (fun session hs => hs.untouched sessionManager_mem hu) hkept hquiet
    rw [hd]
    exact id
  · exact .blank (hu.acquired (howner ▸ sessionManager_mem) hids).2

omit [TokenProgram] [TokenMetadata] [Chrono] [LegacyOffchain] in
/-- A zeroed account holds no session. -/
theorem not_loadSession_zero {session : Session} (hzero : ∀ b ∈ (l key).data, b = 0) :
    loadSession l key ≠ .ok session := by
  intro hload
  exact Anchor.not_tryDeserialize_zero ⟨243, by decide, by decide⟩ hzero (loadSession_eq_ok hload).2

/-- What a command does on the session account it is on. -/
theorem SessionState.revoke {session : Session} {info : SessionInfo} (hrevoke : IsRevoke key e)
    (hload : loadSession l key = .ok session) (hinfo : revokedInfo session.sessionInfo = .ok info)
    (hholds : 0 < (l key).lamports → Holds l' key { session with sessionInfo := info })
    (h : SessionState key log l) : SessionState key (e :: log) l' := by
  have hkept : Kept key e := by
    constructor
    · intro hs
      cases (hrevoke.unique hs).1
    · intro hc
      cases (hrevoke.unique hc).1
  cases h with
  | blank hzero => exact absurd hload (not_loadSession_zero hzero)
  | active s e₀ older hs hkey hsince hs' =>
    have hsession := hs'.loadSession_eq_ok hload
    rw [hsession] at hinfo hholds
    exact .revoked s e₀ older info hs hkey (.later hkept (hsince.mono fun _ hx => hx.1)) hinfo
      (hholds hs'.lamports_pos)
  | revoked s e₀ older info₀ hs hkey hsince hinfo₀ hs' =>
    have hsession := hs'.loadSession_eq_ok hload
    rw [hsession] at hinfo hholds
    have hsame := revokedInfo_idempotent hinfo₀ hinfo
    refine .revoked s e₀ older info₀ hs hkey (.later hkept hsince) hinfo₀ ?_
    rw [hsame] at hholds
    exact hholds hs'.lamports_pos

/-- An event that is not about the session account keeps its state. -/
theorem SessionState.other (hu : Untouched programIds key (l key) (l' key))
    (hquiet : ∀ c, ¬ IsOn c key e) (howner : (l' key).owner = ProgramIds.sessionManager)
    (h : (l key).owner = ProgramIds.sessionManager → SessionState key log l) :
    SessionState key (e :: log) l' :=
  have hkept : Kept key e := ⟨hquiet _, hquiet _⟩
  .untouched howner hu h (fun _ _ hs => .later hkept hs)
    fun _ _ hs => .later ⟨hkept, hquiet _⟩ hs

/-- What one event does to the session accounts. -/
theorem sessions_action (haction : Action e)
    (h : ∀ key, (e.before key).owner = ProgramIds.sessionManager → SessionState key log e.before) :
    ∀ key, (e.after key).owner = ProgramIds.sessionManager → SessionState key (e :: log) e.after := by
  intro key howner
  have hregistry {args : Args} (hargs : IsRegistry args e) (c : Command) : ¬ IsOn c key e :=
    fun hon => hon.1.not_isRegistry hargs
  have hrewritten {k : Pubkey} (hk : Rewritten programIds k e.before e.after) : key ≠ k := by
    rintro rfl
    rw [hk.owner_after] at howner
    exact ProgramIds.domainRegistry_ne_sessionManager howner
  cases haction with
  | start s hstart hsign hchecked hframe hvacant hholds =>
    by_cases hkey : key = s.accounts.session
    · subst hkey
      exact .active s e log ⟨hstart, hchecked⟩ rfl .here hholds
    · exact .other (hframe key hkey) (fun c hc => hkey (hc.unique hstart).2) howner (h key)
  | revoke k session info hrevoke hload hinfo hframe hholds =>
    by_cases hkey : key = k
    · subst hkey
      exact .revoke hrevoke hload hinfo hholds (h key (loadSession_eq_ok hload).1)
    · exact .other (hframe key hkey) (fun c hc => hkey (hc.unique hrevoke).2) howner (h key)
  | close k session user mints hclose hload hlive hmints hframe hvacant hdelegates =>
    by_cases hkey : key = k
    · subst hkey
      rw [hvacant.owner_eq] at howner
      exact absurd howner.symm ProgramIds.sessionManager_ne_systemProgram
    · exact .other (hframe key hkey) (fun c hc => hkey (hc.unique hclose).2) howner (h key)
  | config args hargs hadd hremove hrewrite hlength =>
    exact .other (hrewrite.frame key (hrewritten hrewrite)) (hregistry hargs) howner (h key)
  | add domain programId before hadds hnew hchanged =>
    exact .other (hchanged.frame key (hrewritten hchanged.toRewritten)) (hregistry hadds.1) howner (h key)
  | remove domain p before after index hremoves hindex hperm hchanged =>
    exact .other (hchanged.frame key (hrewritten hchanged.toRewritten)) (hregistry hremoves.1) howner
      (h key)
  | toll toll htoll hpaid hframe =>
    have hquiet (c : Command) : ¬ IsOn c key e := fun hon => hon.1.not_isToll htoll
    exact .other (hframe key) hquiet howner (h key)

/-- The session accounts hold what they should in every run. -/
theorem sessionsOk_invariant [SystemProgram] [Ed25519] : Invariant programs SessionsOk where
  init now key howner := absurd howner.symm ProgramIds.sessionManager_ne_systemProgram
  tick _ _ h _ := h
  frame w l' h hframe key howner :=
    .untouched howner (hframe key) (h key) (fun _ _ => id) fun _ _ => id
  purge w h key howner := by
    have hpurge : w.ledger.purge key = w.ledger key := by
      refine if_neg fun hzero => ?_
      have hempty : w.ledger.purge key = .empty := if_pos hzero
      have hsystem : (w.ledger.purge key).owner = Ids.systemProgram := by
        rw [hempty]
        rfl
      exact ProgramIds.sessionManager_ne_systemProgram (howner.symm.trans hsystem)
    have hstate := h key (hpurge ▸ howner)
    refine hstate.map (fun hzero => ?_) (fun _ hs => hs.purge) (fun _ _ => id) fun _ _ => id
    show ∀ b ∈ (w.ledger.purge key).data, b = 0
    rwa [hpurge]
  invoke w e _ h he := by
    refine sessions_action (action he) fun key howner => ?_
    rw [he.before_eq] at howner ⊢
    exact h key howner

end FogoSessions.Sessions
