import FogoSessions.Sessions.Authorization

/-!
# No delegation survives the session

Closing a session takes back every delegation that starting it made.
-/

namespace FogoSessions.Sessions

open Lib Solana Sdk Intents DomainRegistry SessionManager

section

variable [Addressing] [TokenProgram] [TokenMetadata] [Chrono] [LegacyOffchain]

/-- What closing a session takes back is what starting it approved. -/
theorem Starts.mints {s : Start} {e : Event} {session : Session} {user : Pubkey}
    {mints : List Pubkey} (h : Starts s e)
    (hsession : session = s.session ∨ ∃ info, revokedInfo s.session.sessionInfo = .ok info ∧
      session = { s.session with sessionInfo := info })
    (hmints : mintsToRevoke session.sessionInfo = .ok (user, mints)) :
    user = s.intent.signer ∧ ∀ approval ∈ s.approvals,
      approval.mintAccount ∈ mints ∧
        approval.userAccount = associatedTokenAddress user approval.mintAccount := by
  have hmints' : mintsToRevoke s.session.sessionInfo = .ok (user, mints) := by
    rcases hsession with rfl | ⟨info, hinfo, rfl⟩
    · exact hmints
    · exact revokedInfo_mints hinfo hmints
  obtain ⟨rfl, rfl⟩ := buildSession_mints h.2.session_eq hmints'
  refine ⟨rfl, fun approval happroval => ?_⟩
  have happrovals := h.2.approvals_eq
  cases htokens : s.intent.message.tokens with
  | specific tokens =>
    rw [htokens] at happrovals
    refine ⟨?_, pendingApprovals_eq_ok happrovals approval happroval⟩
    exact List.mem_map_of_mem happroval
  | all =>
    rw [htokens] at happrovals
    have hnil : s.approvals = [] := (Except.ok.inj happrovals).symm
    rw [hnil] at happroval
    cases happroval

/-- **No token delegation survives close.** Whenever a `close_session` has succeeded, the token
    accounts that the start of that session approved do not delegate to the session key any more; and
    the account of every mint in the session's stored list was examined. -/
theorem closeSession_revokes [SystemProgram] [Ed25519] {w : World} (hw : Observed programs w)
    {key : Pubkey} {newer older : List Event} {close : Event} (hlog : w.log = newer ++ close :: older)
    (hclose : IsClose key close) :
    ∃ s start mid before session user mints, older = mid ++ start :: before ∧
      (∀ x ∈ mid, ¬ IsStart key x) ∧ Starts s start ∧ s.accounts.session = key ∧
      loadSession close.before key = .ok session ∧
      mintsToRevoke session.sessionInfo = .ok (user, mints) ∧ user = s.intent.signer ∧
      (∀ mint ∈ mints, NotDelegate close.after (associatedTokenAddress user mint) key) ∧
      ∀ approval ∈ s.approvals, approval.mintAccount ∈ mints ∧
        NotDelegate close.after approval.userAccount key := by
  obtain ⟨w', hw', hlog', -, he⟩ := hw.history newer close older hlog
  have haction := action he
  cases haction with
  | close k session user mints hclose' hload hlive hmints hframe hvacant hdelegates =>
    obtain ⟨-, rfl⟩ := hclose.unique hclose'
    have hload' := hload
    rw [he.before_eq] at hload'
    have hstate := sessionsOk_invariant.observed hw' key (loadSession_eq_ok hload').1
    obtain ⟨s, start, before, hs, hkey, hsince, hsession⟩ :=
      hstate.last_start (tryDeserialize_of_loadSession hload')
    obtain ⟨mid, hold, hmid⟩ := Since.iff_append.1 hsince
    obtain ⟨huser, happrovals⟩ := hs.mints hsession hmints
    refine ⟨s, start, mid, before, session, user, mints, hlog' ▸ hold, fun x hx => (hmid x hx).1,
      hs, hkey, hload, hmints, huser, hdelegates, fun approval happroval => ?_⟩
    obtain ⟨hmint, haddress⟩ := happrovals approval happroval
    exact ⟨hmint, haddress ▸ hdelegates _ hmint⟩
  | start s hstart => cases (hclose.unique hstart).1
  | revoke k session info hrevoke => cases (hclose.unique hrevoke).1
  | config args hargs => exact absurd hargs hclose.1.not_isRegistry
  | add domain programId before hadds => exact absurd hadds.1 hclose.1.not_isRegistry
  | remove domain p before after index hremoves => exact absurd hremoves.1 hclose.1.not_isRegistry
  | toll toll htoll => exact absurd htoll hclose.1.not_isToll

end

namespace Sample

theorem closed_runs : ∃ w close older, world.runAll programs closed = some w ∧
    w.log = close :: older ∧ IsClose session close := by
  have h : ((world.runAll programs closed).bind fun w => w.log.head?.map Event.instruction) =
      some closeInstruction := by
    decide +kernel
  obtain ⟨w, hw, hhead⟩ := Option.bind_eq_some_iff.1 h
  obtain ⟨close, hclose, hinstruction⟩ := Option.map_eq_some_iff.1 hhead
  obtain ⟨older, hlog⟩ := List.head?_eq_some_iff.1 hclose
  refine ⟨w, close, older, hw, hlog, ⟨?_, ?_⟩, ?_⟩
  · rw [hinstruction]
    rfl
  · rw [hinstruction]
    rfl
  · rw [account, hinstruction]
    rfl

theorem closeSession_revokes_closed :
    ∃ w close older s start mid before value user mints, world.runAll programs closed = some w ∧
      w.log = close :: older ∧ older = mid ++ start :: before ∧ (∀ x ∈ mid, ¬ IsStart session x) ∧
      Starts s start ∧ s.accounts.session = session ∧ loadSession close.before session = .ok value ∧
      mintsToRevoke value.sessionInfo = .ok (user, mints) ∧ user = s.intent.signer ∧
      (∀ mint ∈ mints, NotDelegate close.after (associatedTokenAddress user mint) session) ∧
      ∀ approval ∈ s.approvals, approval.mintAccount ∈ mints ∧
        NotDelegate close.after approval.userAccount session := by
  obtain ⟨w, close, older, hw, hlog, hclose⟩ := closed_runs
  have hreachable : Reachable programs w :=
    world_reachable.runAll (fun entry hentry => admissible entry (List.mem_append_left _ hentry)) hw
  have hnewest : w.log = [] ++ close :: older := hlog
  obtain ⟨s, start, mid, before, value, user, mints, h⟩ :=
    closeSession_revokes hreachable.observed hnewest hclose
  exact ⟨w, close, older, s, start, mid, before, value, user, mints, hw, hlog, h⟩

end Sample

end FogoSessions.Sessions
