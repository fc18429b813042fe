import FogoSessions.SessionManager.Revoking

/-!
# Closing what was revoked

What it takes to close a session does not change when the session is revoked, except that a session
of version 2 forgets whether it may be closed at all.
-/

namespace FogoSessions.SessionManager

open Lib Solana Sdk

/-- A session of version 2 that is not revoked. -/
def IsActiveV2 : SessionInfo → Prop
  | .v2 (.active _) => True
  | _ => False

/-- What is revoked has the same mints to revoke, unless they are forgotten. -/
theorem mintsToRevoke_revokedInfo {info info' : SessionInfo} (h : revokedInfo info = .ok info') :
    (¬ IsActiveV2 info → mintsToRevoke info' = mintsToRevoke info) ∧
      (IsActiveV2 info → mintsToRevoke info' = .error (.custom .invalidVersion)) := by
  unfold revokedInfo at h
  split at h
  · cases h
  · cases h
  · cases h
    exact ⟨fun hactive => absurd trivial hactive, fun _ => rfl⟩
  all_goals
    cases h
    exact ⟨fun _ => rfl, fun hactive => hactive.elim⟩

theorem isLive_revokedInfo {value : Session} {info : SessionInfo} (h : revokedInfo value.sessionInfo = .ok info)
    (now : UnixTimestamp) : Session.isLive { value with sessionInfo := info } now = value.isLive now := by
  rw [Session.isLive, Session.isLive, (revokes_of_revokedInfo h).expiration]

section

variable {l l' m : Ledger}

/-! ## The token accounts -/

/-- Revoking a session is of no concern to the token program. -/
theorem sameTokens_of_settled [SystemProgram] {key sponsor : Pubkey} {len : Nat} {value value' : Session}
    (hstored : Stored l key value) (hstored' : Stored l' key value')
    (h : Settled l l' key sponsor len) : SameTokens l l' := by
  have hown : (l key).owner ≠ Ids.tokenProgram := by
    rw [hstored.owner_eq]
    exact ProgramIds.sessionManager_ne_tokenProgram
  constructor
  · intro k
    by_cases hkey : k = key
    · rw [hkey, hstored.owner_eq, hstored'.owner_eq]
    · by_cases hsponsor : k = sponsor
      · rw [hsponsor, h.sponsor_content.1]
      · rw [h.others k hkey hsponsor]
  · intro k hk
    by_cases hkey : k = key
    · rw [hkey] at hk
      exact absurd hk hown
    · by_cases hsponsor : k = sponsor
      · rw [hsponsor, h.sponsor_content.2]
      · rw [h.others k hkey hsponsor]

variable [TokenProgram] [Addressing]

theorem pendingRevocation_congr (h : SameTokens l l') (user session : Pubkey) :
    pendingRevocation l' user session = pendingRevocation l user session := by
  funext pair
  obtain ⟨mint, userAccount⟩ := pair
  dsimp only [pendingRevocation]
  rw [h.owner_eq]
  by_cases howner : (l userAccount).owner = Ids.tokenProgram
  · rw [h.data_eq _ howner]
  · rw [if_neg howner, if_neg howner]

theorem pendingRevocations_congr (h : SameTokens l l') (accounts mints : List Pubkey)
    (user session : Pubkey) :
    convertRemainingAccountsAndMintsToRevokeToPendingRevocations l' accounts mints user session =
      convertRemainingAccountsAndMintsToRevokeToPendingRevocations l accounts mints user session := by
  unfold convertRemainingAccountsAndMintsToRevokeToPendingRevocations
  rw [pendingRevocation_congr h]

/-- Only accounts of the token program are on the list. -/
theorem pendingRevocations_owner {user session : Pubkey} :
    ∀ {pairs : List (Pubkey × Pubkey)} {accounts : List Pubkey},
      pairs.filterMapM (pendingRevocation l user session) = .ok accounts →
      ∀ a ∈ accounts, (l a).owner = Ids.tokenProgram
  | [], accounts, h => by
    rw [List.filterMapM_nil, pure_eq_ok] at h
    subst h
    simp
  | pair :: pairs, accounts, h => by
    rw [List.filterMapM_cons, bind_eq_ok] at h
    obtain ⟨o, ho, h⟩ := h
    cases o with
    | none => exact pendingRevocations_owner h
    | some a =>
      simp only [bind_eq_ok, pure_eq_ok] at h
      obtain ⟨accounts', hrest, rfl⟩ := h
      rw [List.forall_mem_cons]
      refine ⟨?_, pendingRevocations_owner hrest⟩
      simp only [pendingRevocation, bind_eq_ok] at ho
      obtain ⟨-, -, ho⟩ := ho
      split at ho
      · rename_i howner
        simp only [bind_eq_ok, pure_eq_ok] at ho
        obtain ⟨account, -, ho⟩ := ho
        obtain ⟨-, hsome⟩ := Option.ite_none_right_eq_some.1 ho
        exact Option.some.inj hsome ▸ howner
      · cases ho

omit [Addressing] in
/-- The approvals that can be taken back on one ledger can be taken back on the other. -/
theorem revokeTokens_congr (hreads : TokenProgram.RevokeReads) {sessionSetter : Pubkey} :
    ∀ {accounts : List Pubkey} {l l' m : Ledger}, SameTokens l l' →
      (∀ a ∈ accounts, (l a).owner = Ids.tokenProgram) →
      revokeTokens l sessionSetter accounts = .ok m →
      ∃ m', revokeTokens l' sessionSetter accounts = .ok m'
  | [], l, l', m, _, _, _ => ⟨l', rfl⟩
  | account :: accounts, l, l', m, hsame, howner, h => by
    rw [List.forall_mem_cons] at howner
    simp only [revokeTokens, List.foldlM_cons, bind_eq_ok, okOr_eq_ok] at h ⊢
    obtain ⟨l₁, hrevoke, hrest⟩ := h
    obtain ⟨_, data, -, -, -, rfl⟩ := TokenProgram.revoke_eq_some hrevoke
    have hrevoke' := hreads.revoke_eq hsame howner.1 hrevoke
    rw [Ledger.setData_same] at hrevoke'
    have howner' (a : Pubkey) (ha : a ∈ accounts) :
        (l.setData account data a).owner = Ids.tokenProgram := by
      rw [Ledger.setData_owner]
      exact howner.2 a ha
    obtain ⟨m', hm'⟩ := revokeTokens_congr hreads (hsame.setData account data) howner' hrest
    exact ⟨m', _, hrevoke', hm'⟩

/-! ## The instruction -/

variable [SystemProgram] {value : Session}

omit [TokenProgram] in
theorem revokeSession_sponsor {session sponsor systemProgram : AccountMeta} {rest : List AccountMeta}
    (hstored : Stored l session.pubkey value)
    (h : revokeSession (session :: sponsor :: systemProgram :: rest) l = .ok l') :
    value.sponsor = sponsor.pubkey := by
  simp only [revokeSession, bind_eq_ok, hstored.loadSession, require_eq_ok] at h
  obtain ⟨_, ⟨⟩, -, -, -, -, -, -, -, -, -, hsponsor, -⟩ := h
  exact hsponsor

omit [TokenProgram] in
/-- A session that is revoked is revoked on the ledger too. -/
theorem revokeSession_eq_settled {session sponsor systemProgram : AccountMeta}
    {rest : List AccountMeta} (hstored : Stored l session.pubkey value)
    (hne : sponsor.pubkey ≠ session.pubkey)
    (h : revokeSession (session :: sponsor :: systemProgram :: rest) l = .ok l') :
    ∃ info, revokedInfo value.sessionInfo = .ok info ∧
      Stored l' session.pubkey { value with sessionInfo := info } ∧
      ∃ len, Settled l l' session.pubkey sponsor.pubkey len := by
  obtain ⟨-, info, hinfo, bytes, hbytes, -, rfl⟩ := (revokeSession_iff hstored hne).1 h
  refine ⟨info, hinfo, stored_settled hstored hbytes, 8 + bytes.length,
    settled_refunded hne ?_⟩
  rw [List.length_append]
  rfl

/-- **A session that can be closed can be closed after it is revoked**, with the same mints to revoke,
    unless it is of version 2: then nothing says any more that it may be. -/
theorem closeSession_of_revokeSession (hreads : TokenProgram.RevokeReads)
    {session sponsor systemProgram : AccountMeta} {rest : List AccountMeta}
    (hstored : Stored l session.pubkey value)
    (hrevoke : revokeSession (session :: sponsor :: systemProgram :: rest) l = .ok l')
    {ctx : Context} {closing : AccountMeta} {accounts : List AccountMeta}
    (hclosing : closing.pubkey = session.pubkey)
    (hclose : closeSession ctx (closing :: accounts) l = .ok m) :
    ∃ value', Stored l' session.pubkey value' ∧ Revokes value value' ∧
      (¬ IsActiveV2 value.sessionInfo →
        mintsToRevoke value'.sessionInfo = mintsToRevoke value.sessionInfo ∧
          ∃ m', closeSession ctx (closing :: accounts) l' = .ok m') ∧
      (IsActiveV2 value.sessionInfo →
        closeSession ctx (closing :: accounts) l' = .error (.custom .invalidVersion)) := by
  have hrevokeSponsor := revokeSession_sponsor hstored hrevoke
  unfold closeSession at hclose
  split at hclose
  · rename_i heq
    obtain ⟨rfl, rfl⟩ := List.cons.inj heq
    simp only [bind_eq_ok] at hclose
    obtain ⟨value₀, hload, _, htoken, _, hsystem, _, hwritable, live, hlive, _, hexpired, _, hclosed, _,
      hsponsorWritable, _, hsponsor, _, hsetter, ⟨user, mints⟩, hmints, pending, hpending, l₁, htokens,
      -⟩ := hclose
    obtain rfl : value₀ = value := by
      rw [hclosing, hstored.loadSession] at hload
      exact (Except.ok.inj hload).symm
    have hne : sponsor.pubkey ≠ session.pubkey := by
      rw [← hrevokeSponsor, require_eq_ok.1 hsponsor, ← hclosing]
      exact (require_eq_ok.1 hclosed).symm
    obtain ⟨info, hinfo, hstored', len, hsettled⟩ := revokeSession_eq_settled hstored hne hrevoke
    obtain ⟨hkept, hforgotten⟩ := mintsToRevoke_revokedInfo hinfo
    have hsame := sameTokens_of_settled hstored hstored' hsettled
    have hload' := hstored'.loadSession
    rw [← hclosing] at hload'
    rw [← isLive_revokedInfo hinfo] at hlive
    refine ⟨_, hstored', revokes_of_revokedInfo hinfo, ?_, ?_⟩
    · intro hactive
      refine ⟨hkept hactive, ?_⟩
      have howner : ∀ a ∈ pending, (l a).owner = Ids.tokenProgram := by
        simp only [convertRemainingAccountsAndMintsToRevokeToPendingRevocations, bind_eq_ok] at hpending
        obtain ⟨-, -, hpending⟩ := hpending
        exact pendingRevocations_owner hpending
      rw [← pendingRevocations_congr hsame] at hpending
      rw [← hkept hactive] at hmints
      obtain ⟨m', hm'⟩ := revokeTokens_congr hreads hsame howner htokens
      simp only [closeSession, bind_eq_ok]
      exact ⟨_, _, hload', _, htoken, _, hsystem, _, hwritable, _, hlive, _, hexpired, _, hclosed, _,
        hsponsorWritable, _, hsponsor, _, hsetter, _, hmints, _, hpending, m', hm', rfl⟩
    · intro hactive
      simp only [closeSession, hload', htoken, hsystem, hwritable, hlive, hexpired, hclosed,
        hsponsorWritable, hsponsor, hsetter, hforgotten hactive, Bind.bind, Except.bind]
  · cases hclose

end

open Sample

namespace Sample

/-- A moment after the sessions have expired. -/
def late : Context := ⟨[], 0, 100000⟩

def closing : List AccountMeta :=
  [sessionAccount, sponsorAccount, ⟨sessionSetter, false, false⟩, ⟨Ids.tokenProgram, false, false⟩,
    systemAccount, ⟨userToken, false, true⟩]

theorem exists_of_isSome {ε α : Type} {x : Except ε α} (h : x.toOption.isSome = true) :
    ∃ a, x = .ok a := by
  obtain ⟨a, ha⟩ := Option.isSome_iff_exists.1 h
  exact ⟨a, toOption_eq_some.1 ha⟩

end Sample

theorem closeSession_of_revokeSession_sample : ∃ l' m',
    revokeSession [sessionAccount, sponsorAccount, systemAccount] (ledger session) = .ok l' ∧
      closeSession late closing l' = .ok m' := by
  obtain ⟨l', hl'⟩ : ∃ l', revokeSession [sessionAccount, sponsorAccount, systemAccount]
      (ledger session) = .ok l' := exists_of_isSome (by decide +kernel)
  obtain ⟨m, hm⟩ : ∃ m, closeSession late closing (ledger session) = .ok m :=
    exists_of_isSome (by decide +kernel)
  obtain ⟨_, -, -, hkept, -⟩ :=
    closeSession_of_revokeSession Native.tokenProgram_revokeReads stored hl' rfl hm
  obtain ⟨-, m', hm'⟩ := hkept id
  exact ⟨l', m', hl', hm'⟩

/-- A session of version 2 that could be closed and cannot once it is revoked. -/
theorem closeSession_unlimited : ∃ l',
    revokeSession [sessionAccount, sponsorAccount, systemAccount] (ledger unlimited) = .ok l' ∧
      (∃ m, closeSession late closing (ledger unlimited) = .ok m) ∧
      ∀ m', closeSession late closing l' ≠ .ok m' := by
  have hrun : ((revokeSession [sessionAccount, sponsorAccount, systemAccount] (ledger unlimited)).bind
      (closeSession late closing)).toOption.isNone = true := by
    decide +kernel
  obtain ⟨l', hl'⟩ : ∃ l', revokeSession [sessionAccount, sponsorAccount, systemAccount]
      (ledger unlimited) = .ok l' := exists_of_isSome (by decide +kernel)
  refine ⟨l', hl', exists_of_isSome (by decide +kernel), ?_⟩
  intro m' hm'
  rw [hl', show (Except.ok l').bind (closeSession late closing) = closeSession late closing l' from rfl,
    hm'] at hrun
  cases hrun

end FogoSessions.SessionManager
