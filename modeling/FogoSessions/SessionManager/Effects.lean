import FogoSessions.SessionManager.Program

/-!
# What the session manager's instructions do

One lemma per instruction: what it checked, what the session's account held before and after, and
that the rest of the ledger saw nothing but transfers and approvals.
-/

namespace FogoSessions.SessionManager

open Lib Solana Sdk Intents DomainRegistry

variable [Addressing] {ids : List Pubkey} {l l' : Ledger} {key : Pubkey}

/-- The account holds a session, and nothing but it. -/
structure Holds (l : Ledger) (key : Pubkey) (session : Session) : Prop where
  owner_eq : (l key).owner = ProgramIds.sessionManager
  lamports_pos : 0 < (l key).lamports
  data_eq : ∃ bytes, Session.codec.encode session = .ok bytes ∧
    (l key).data = Session.discriminator ++ bytes

/-- The account is nobody's. -/
structure Vacant (l : Ledger) (key : Pubkey) : Prop where
  owner_eq : (l key).owner = Ids.systemProgram
  data_eq : (l key).data = []

omit [Addressing] in
theorem Vacant.not_holds (h : Vacant l key) (session : Session) : ¬ Holds l key session := by
  intro hs
  exact ProgramIds.sessionManager_ne_systemProgram (hs.owner_eq.symm.trans h.owner_eq)

theorem Holds.untouched {session : Session} (h : Holds l key session)
    (hids : ProgramIds.sessionManager ∈ ids) (hu : Untouched ids key (l key) (l' key)) :
    Holds l' key session := by
  obtain ⟨howner, hdata, hlamports⟩ := hu.owned (h.owner_eq ▸ hids)
  refine ⟨howner.trans h.owner_eq, lt_of_lt_of_le h.lamports_pos hlamports, ?_⟩
  rw [hdata]
  exact h.data_eq

omit [Addressing] in
theorem Holds.purge {session : Session} (h : Holds l key session) : Holds l.purge key session := by
  have hpurge : l.purge key = l key := if_neg (Nat.ne_of_gt h.lamports_pos)
  exact ⟨hpurge ▸ h.owner_eq, hpurge ▸ h.lamports_pos, hpurge ▸ h.data_eq⟩

theorem loadSession_eq_ok {session : Session} (h : loadSession l key = .ok session) :
    (l key).owner = ProgramIds.sessionManager ∧
      Anchor.tryDeserialize Session.discriminator Session.codec (l key).data = .ok session :=
  Anchor.account_eq_ok h

/-- What is read from an account that holds a session is the session. -/
theorem Holds.loadSession_eq_ok {session session' : Session} (h : Holds l key session)
    (hload : loadSession l key = .ok session') : session' = session := by
  obtain ⟨bytes, hbytes, hdata⟩ := h.data_eq
  obtain ⟨-, hdeserialize⟩ := SessionManager.loadSession_eq_ok hload
  rw [hdata, Anchor.tryDeserialize_encode hbytes] at hdeserialize
  exact hdeserialize.symm

omit [Addressing] in
theorem Holds.tryDeserialize_eq_ok {session session' : Session} (h : Holds l key session)
    (hdeserialize : Session.tryDeserialize (l key).data = .ok session') : session' = session := by
  obtain ⟨bytes, hbytes, hdata⟩ := h.data_eq
  have hanchor := Anchor.tryDeserialize_eq_ok.2 (Session.tryDeserialize_eq_ok.1 hdeserialize)
  rw [hdata, Anchor.tryDeserialize_encode hbytes] at hanchor
  exact hanchor.symm

theorem tryDeserialize_of_loadSession {session : Session} (h : loadSession l key = .ok session) :
    Session.tryDeserialize (l key).data = .ok session :=
  Session.tryDeserialize_eq_ok.2 (Anchor.tryDeserialize_eq_ok.1 (loadSession_eq_ok h).2)

omit [Addressing] in
theorem sessionLen_eq_ok {session : Session} {n : Nat} (h : sessionLen session = .ok n) :
    ∃ bytes, Session.codec.encode session = .ok bytes ∧ n = 8 + bytes.length := by
  simp only [sessionLen, bind_eq_ok, mapErr_eq_ok, pure_eq_ok] at h
  obtain ⟨bytes, hbytes, rfl⟩ := h
  exact ⟨bytes, hbytes, rfl⟩

/-- A session stored in an account of its own length is all that the account holds. -/
theorem storeSession_holds {session : Session} {n : Nat} (hlen : sessionLen session = .ok n)
    (howner : (l key).owner = ProgramIds.sessionManager) (hlamports : 0 < (l key).lamports)
    (hdata : (l key).data.length = n) (h : storeSession l key session = .ok l') :
    FrameExcept ids key l l' ∧ Holds l' key session := by
  obtain ⟨bytes, hbytes, rfl⟩ := sessionLen_eq_ok hlen
  simp only [storeSession, bind_eq_ok, mapErr_eq_ok, pure_eq_ok] at h
  obtain ⟨data, hserialize, rfl⟩ := h
  have hbody := Anchor.trySerialize_of_length hserialize hbytes hdata
  refine ⟨frameExcept_set, ?_, ?_, bytes, hbytes, ?_⟩
  · rw [Ledger.setData_owner, howner]
  · rwa [Ledger.setData_lamports]
  · rw [Ledger.setData_same, hbody]

/-! ## Starting a session -/

section

variable [SystemProgram] [TokenProgram] [TokenMetadata] [Chrono] [LegacyOffchain]

/-- What a successful `start_session` computed. -/
structure Start where
  accounts : StartSession
  intent : Intent Message
  approvals : List PendingApproval
  programs : List AuthorizedProgram
  session : Session

/-- The checks `start_session` made before it wrote the session. -/
structure Start.Checked (s : Start) (ctx : Context) (accounts : List AccountMeta) (l : Ledger) :
    Prop where
  accounts_eq : StartSession.tryAccounts l accounts = .ok s.accounts
  intent_eq : Intent.load Message.tryFrom ctx.instructions ctx.index = .ok s.intent
  chainId_eq : s.accounts.chainId.chainId = s.intent.message.chainId
  sessionKey_eq : s.accounts.session = s.intent.message.sessionKey
  expires_le : s.intent.message.expires.timestamp ≤ saturatingAddI64 ctx.now maxSessionDuration
  approvals_eq : s.accounts.pendingApprovals l s.intent.signer s.intent.message.tokens =
    .ok s.approvals
  programs_eq : ∃ l₁, approveTokens l s.accounts.session s.accounts.sessionSetter s.approvals =
    .ok l₁ ∧ s.accounts.getDomainPrograms l₁ s.intent.message.domain = .ok s.programs
  session_eq : s.accounts.buildSession s.intent s.intent.message.expires.timestamp
    (StartSession.authorizedTokensWithMints s.intent.message.tokens s.approvals) s.programs =
      .ok s.session

omit [SystemProgram] [TokenProgram] [TokenMetadata] [Chrono] [LegacyOffchain] in
/-- The session account is the third one and signs. -/
theorem tryAccounts_eq_ok {accounts : List AccountMeta} {self : StartSession}
    (h : StartSession.tryAccounts l accounts = .ok self) :
    accounts[2]?.map AccountMeta.pubkey = some self.session ∧
      (∃ account ∈ accounts, account.pubkey = self.session ∧ account.isSigner = true) ∧
      ChainId.onLedger l = some self.chainId := by
  unfold StartSession.tryAccounts at h
  split at h
  · rename_i sponsor chainId session _ _ _ _ _ _
    simp only [bind_eq_ok, pure_eq_ok, Anchor.signer_eq_ok] at h
    obtain ⟨-, -, -, -, chainId', hchain, -, hsigner, -, -, -, -, -, -, -, -, -, -, rfl⟩ := h
    exact ⟨rfl, ⟨session, by simp, rfl, hsigner⟩, ChainId.load_eq_ok hchain⟩
  · cases h

omit [Addressing] [SystemProgram] [TokenMetadata] [Chrono] [LegacyOffchain] in
theorem approveTokens_eq_ok {session sessionSetter : Pubkey} {approvals : List PendingApproval}
    (h : approveTokens l session sessionSetter approvals = .ok l') : TokenWrites l l' := by
  refine foldlM_invariant (P := TokenWrites l) ?_ approvals l l' .refl h
  intro l₁ approval l₂ hwrites happrove
  obtain ⟨_, data, howner, -, -, -, rfl⟩ :=
    TokenProgram.approveChecked_eq_some (okOr_eq_ok.1 happrove)
  exact hwrites.trans (.setData howner)

omit [SystemProgram] [Chrono] [LegacyOffchain] in
theorem resolveApproval_eq_ok {user : Pubkey} {symbolOrMint : SymbolOrMint}
    {uiTokenAmount : UiTokenAmount} {accounts : List Pubkey} {r : PendingApproval × List Pubkey}
    (h : resolveApproval l user symbolOrMint uiTokenAmount accounts = .ok r) :
    r.1.userAccount = associatedTokenAddress user r.1.mintAccount := by
  simp only [resolveApproval, bind_eq_ok, require_eq_ok, pure_eq_ok] at h
  obtain ⟨⟨userAccount, mintAccount, rest⟩, -, -, haddress, _, -, _, -, rfl⟩ := h
  exact haddress

omit [SystemProgram] [Chrono] [LegacyOffchain] in
/-- Only associated token accounts of the user are approved. -/
theorem pendingApprovals_eq_ok {user : Pubkey} :
    ∀ {tokens : List (SymbolOrMint × UiTokenAmount)} {accounts : List Pubkey}
      {approvals : List PendingApproval},
      convertRemainingAccountsAndTokenLimitsToPendingApprovals l user tokens accounts =
        .ok approvals →
      ∀ p ∈ approvals, p.userAccount = associatedTokenAddress user p.mintAccount
  | [], accounts, approvals, h => by
    cases h
    simp
  | (symbolOrMint, uiTokenAmount) :: tokens, accounts, approvals, h => by
    simp only [convertRemainingAccountsAndTokenLimitsToPendingApprovals, bind_eq_ok,
      pure_eq_ok] at h
    obtain ⟨⟨approval, rest⟩, happroval, approvals', hrest, rfl⟩ := h
    rw [List.forall_mem_cons]
    exact ⟨resolveApproval_eq_ok happroval, pendingApprovals_eq_ok hrest⟩

omit [TokenProgram] [TokenMetadata] [Chrono] [LegacyOffchain] in
theorem initializeAndStoreSession_eq_ok {self : StartSession} {session : Session}
    (hsystem : Ids.systemProgram ∉ ids)
    (h : self.initializeAndStoreSession l session = .ok l') :
    FrameExcept ids self.session l l' ∧ Vacant l self.session ∧ Holds l' self.session session := by
  simp only [StartSession.initializeAndStoreSession, StartSession.initializeAccount, bind_eq_ok,
    okOr_eq_ok] at h
  obtain ⟨space, hspace, l₁, hcreate, hstore⟩ := h
  obtain ⟨hframe, hcreated⟩ := createOrFund_eq_some hsystem hcreate
  have hlen : (l₁ self.session).data.length = space := by
    rw [hcreated.data_eq]
    exact List.length_replicate
  obtain ⟨hframe', hholds⟩ :=
    storeSession_holds hspace hcreated.owner_eq hcreated.lamports_pos hlen hstore
  exact ⟨hframe.trans hframe', ⟨hcreated.system, hcreated.empty⟩, hholds⟩

/-- A successful `start_session` turned an account that was nobody's into the session its intent
    asks for. -/
theorem startSession_eq_ok {ctx : Context} {accounts : List AccountMeta}
    (hsystem : Ids.systemProgram ∉ ids) (htoken : Ids.tokenProgram ∉ ids)
    (h : startSession ctx accounts l = .ok l') :
    ∃ s : Start, s.Checked ctx accounts l ∧ FrameExcept ids s.accounts.session l l' ∧
      Vacant l s.accounts.session ∧ Holds l' s.accounts.session s.session := by
  simp only [startSession, checkExpiration, bind_eq_ok, mapErr_eq_ok, require_eq_ok,
    pure_eq_ok] at h
  obtain ⟨self, haccounts, intent, hintent, -, hchain, -, hkey, expiration, ⟨-, hexpires, rfl⟩,
    approvals, happrovals, l₁, happrove, programs, hprograms, session, hsession, hstore⟩ := h
  have hwrites := approveTokens_eq_ok happrove
  obtain ⟨hframe, hvacant, hholds⟩ := initializeAndStoreSession_eq_ok hsystem hstore
  refine ⟨⟨self, intent, approvals, programs, session⟩,
    ⟨haccounts, hintent, hchain, hkey, hexpires, happrovals, ⟨l₁, happrove, hprograms⟩, hsession⟩,
    (hwrites.frame htoken).except.trans hframe, ?_, hholds⟩
  have howner : (l self.session).owner = Ids.systemProgram :=
    (hwrites.owner_eq self.session).symm.trans hvacant.owner_eq
  refine ⟨howner, ?_⟩
  rw [← hwrites.data_eq (by rw [howner]; decide), hvacant.data_eq]

end

/-! ## Revoking a session -/

theorem reallocateAndRefundRent_eq_ok [SystemProgram] {sponsor : Pubkey} {session : Session}
    (h : reallocateAndRefundRent l key sponsor session = .ok l') :
    ∃ n, sessionLen session = .ok n ∧ FrameExcept ids key l l' ∧
      (l' key).owner = ProgramIds.sessionManager ∧ (l' key).data.length = n ∧
      (0 < (l key).lamports → 0 < (l' key).lamports) := by
  simp only [reallocateAndRefundRent, bind_eq_ok] at h
  obtain ⟨n, hn, l₁, hrealloc, h⟩ := h
  obtain ⟨howner, rfl⟩ := Anchor.realloc_eq_ok hrealloc
  have hlen : ((l key).data.take n ++ zeros (n - (l key).data.length)).length = n := by
    rw [List.length_append, List.length_take, zeros, List.length_replicate]
    omega
  refine ⟨n, hn, ?_⟩
  split at h
  · rename_i hlt
    simp only [bind_eq_ok, require_eq_ok, pure_eq_ok] at h
    obtain ⟨-, -, rfl⟩ := h
    have hpos := SystemProgram.minimumBalance_pos n
    refine ⟨frameExcept_set.trans (frameExcept_set.trans (frame_credit ?_).except), ?_, ?_, ?_⟩
    · exact Nat.le_add_right ..
    · simp [howner]
    · simpa using hlen
    · intro _
      by_cases hsponsor : key = sponsor
      · subst hsponsor
        simp
        omega
      · rw [Ledger.setLamports_of_ne hsponsor, Ledger.setLamports_same]
        exact hpos
  · cases pure_eq_ok.1 h
    refine ⟨frameExcept_set, by simp [howner], by simpa using hlen, ?_⟩
    simp

/-- A successful `revoke_session` left of the session what `revokedInfo` says. -/
theorem revokeSession_eq_ok [SystemProgram] {accounts : List AccountMeta}
    (h : revokeSession accounts l = .ok l') :
    ∃ key session sessionInfo, accounts.head?.map AccountMeta.pubkey = some key ∧
      loadSession l key = .ok session ∧ revokedInfo session.sessionInfo = .ok sessionInfo ∧
      FrameExcept ids key l l' ∧
      (0 < (l key).lamports → Holds l' key { session with sessionInfo }) := by
  unfold revokeSession at h
  split at h
  · rename_i session sponsor systemProgram _
    simp only [bind_eq_ok] at h
    obtain ⟨value, hload, -, -, -, -, -, -, -, -, -, -, sessionInfo, hrevoked, l₁, hrefund,
      hstore⟩ := h
    obtain ⟨n, hn, hframe, howner, hlen, hlamports⟩ : ∃ n, sessionLen _ = .ok n ∧
        FrameExcept ids session.pubkey l l₁ ∧ _ := reallocateAndRefundRent_eq_ok hrefund
    refine ⟨session.pubkey, value, sessionInfo, rfl, hload, hrevoked, ?_, ?_⟩
    · simp only [storeSession, bind_eq_ok, pure_eq_ok] at hstore
      obtain ⟨data, -, rfl⟩ := hstore
      exact hframe.trans frameExcept_set
    · intro hpos
      have hheld : FrameExcept ids session.pubkey l₁ l' ∧ _ :=
        storeSession_holds hn howner (hlamports hpos) hlen hstore
      exact hheld.2
  · cases h

/-! ## Closing a session -/

section

variable [TokenProgram]

/-- The token account, when it is one, has not this delegate. -/
def NotDelegate (l : Ledger) (account delegate : Pubkey) : Prop :=
  (l account).owner = Ids.tokenProgram →
    ∃ data, TokenProgram.unpackAccount (l account).data = some data ∧ data.delegate ≠ some delegate

omit [Addressing] in
theorem revokeTokens_eq_ok {sessionSetter delegate : Pubkey} :
    ∀ {accounts : List Pubkey} {l l' : Ledger}, revokeTokens l sessionSetter accounts = .ok l' →
      TokenWrites l l' ∧ (∀ a ∈ accounts, NotDelegate l' a delegate) ∧
        ∀ a ∉ accounts, l' a = l a
  | [], l, l', h => by
    simp only [revokeTokens, List.foldlM_nil, pure_eq_ok] at h
    subst h
    exact ⟨.refl, by simp, fun _ _ => rfl⟩
  | account :: accounts, l, l', h => by
    simp only [revokeTokens, List.foldlM_cons, bind_eq_ok, okOr_eq_ok] at h
    obtain ⟨l₁, hrevoke, hrest⟩ := h
    obtain ⟨_, data, howner, -, hdata, rfl⟩ := TokenProgram.revoke_eq_some hrevoke
    obtain ⟨hwrites, hin, hout⟩ := revokeTokens_eq_ok hrest
    refine ⟨(TokenWrites.setData howner).trans hwrites, ?_, ?_⟩
    · rintro a ha
      by_cases hmem : a ∈ accounts
      · exact hin a hmem
      · obtain rfl : a = account := (List.mem_cons.1 ha).resolve_right hmem
        intro _
        rw [hout a hmem, Ledger.setData_same]
        exact ⟨_, hdata, by simp⟩
    · intro a ha
      obtain ⟨hne, hnot⟩ := not_or.1 (List.mem_cons.not.1 ha)
      rw [hout a hnot, Ledger.setData, Ledger.set_of_ne hne]

/-- Every mint that is examined has the user's associated token account examined: it is on the list
    of pending revocations, or is not delegated to the session. -/
theorem pendingRevocation_eq_ok {user session : Pubkey} {pair : Pubkey × Pubkey}
    {o : Option Pubkey} (h : pendingRevocation l user session pair = .ok o) :
    o = some (associatedTokenAddress user pair.1) ∨
      o = none ∧ NotDelegate l (associatedTokenAddress user pair.1) session := by
  obtain ⟨mint, userAccount⟩ := pair
  simp only [pendingRevocation, bind_eq_ok, require_eq_ok] at h
  obtain ⟨-, rfl, h⟩ := h
  split at h
  · simp only [bind_eq_ok, okOr_eq_ok, pure_eq_ok] at h
    obtain ⟨account, haccount, rfl⟩ := h
    by_cases hdelegate : account.delegate = some session
    · left
      rw [if_pos hdelegate]
    · right
      rw [if_neg hdelegate]
      exact ⟨rfl, fun _ => ⟨account, haccount, hdelegate⟩⟩
  · rename_i howner
    cases pure_eq_ok.1 h
    exact .inr ⟨rfl, fun h => absurd h howner⟩

theorem pendingRevocations_eq_ok {user session : Pubkey} :
    ∀ {pairs : List (Pubkey × Pubkey)} {accounts : List Pubkey},
      pairs.filterMapM (pendingRevocation l user session) = .ok accounts →
      ∀ pair ∈ pairs, associatedTokenAddress user pair.1 ∈ accounts ∨
        NotDelegate l (associatedTokenAddress user pair.1) session
  | [], accounts, _ => by simp
  | pair :: pairs, accounts, h => by
    rw [List.filterMapM_cons, bind_eq_ok] at h
    obtain ⟨o, ho, h⟩ := h
    have hpair := pendingRevocation_eq_ok ho
    have ih {accounts : List Pubkey}
        (h : pairs.filterMapM (pendingRevocation l user session) = .ok accounts) :
        ∀ pair ∈ pairs, associatedTokenAddress user pair.1 ∈ accounts ∨
          NotDelegate l (associatedTokenAddress user pair.1) session := pendingRevocations_eq_ok h
    rw [List.forall_mem_cons]
    cases o with
    | none => exact ⟨.inr (hpair.resolve_left (by simp)).2, ih h⟩
    | some a =>
      simp only [bind_eq_ok, pure_eq_ok] at h
      obtain ⟨accounts', hrest, rfl⟩ := h
      obtain ha := Option.some.inj (hpair.resolve_right (by simp))
      refine ⟨.inl (ha ▸ List.mem_cons_self), fun q hq => ?_⟩
      exact (ih hrest q hq).imp (List.mem_cons_of_mem a) id

/-- A successful `close_session` on an expired session left its account vacant, and none of the
    token accounts it was approved for delegated to it. -/
theorem closeSession_eq_ok {ctx : Context} {accounts : List AccountMeta}
    (htoken : Ids.tokenProgram ∉ ids) (h : closeSession ctx accounts l = .ok l') :
    ∃ key session user mints, accounts.head?.map AccountMeta.pubkey = some key ∧
      loadSession l key = .ok session ∧ session.isLive ctx.now = .ok false ∧
      mintsToRevoke session.sessionInfo = .ok (user, mints) ∧
      FrameExcept ids key l l' ∧ Vacant l' key ∧
      ∀ mint ∈ mints, NotDelegate l' (associatedTokenAddress user mint) key := by
  unfold closeSession at h
  split at h
  · rename_i session sponsor sessionSetter tokenProgram systemProgram remaining
    simp only [bind_eq_ok, mapErr_eq_ok, require_eq_ok, pure_eq_ok] at h
    obtain ⟨value, hload, -, -, -, -, -, -, live, hlive, -, rfl, -, -, -, -, -, -, -, -,
      ⟨user, mints⟩, hmints, pending, hpending, l₁, hrevoke, rfl⟩ := h
    simp only [convertRemainingAccountsAndMintsToRevokeToPendingRevocations, bind_eq_ok,
      require_eq_ok] at hpending
    obtain ⟨-, hlen, hpending⟩ := hpending
    obtain ⟨hwrites, hrevoked, hsame⟩ := revokeTokens_eq_ok hrevoke
    have hvacant : Vacant (Anchor.close l₁ session.pubkey sponsor.pubkey) session.pubkey :=
      ⟨Ledger.close_owner, Ledger.close_data⟩
    refine ⟨session.pubkey, value, user, mints, rfl, hload, hlive, hmints,
      (hwrites.frame htoken).except.trans frameExcept_close, hvacant, ?_⟩
    intro mint hmint howner
    have hne : associatedTokenAddress user mint ≠ session.pubkey := by
      intro heq
      rw [heq, hvacant.owner_eq] at howner
      exact Ids.tokenProgram_ne_systemProgram howner.symm
    obtain ⟨hsameOwner, hsameData⟩ :
        (l₁.close session.pubkey sponsor.pubkey (associatedTokenAddress user mint)).owner = _ ∧ _ :=
      Ledger.close_content hne
    rw [Anchor.close, hsameOwner] at howner
    rw [Anchor.close, hsameData]
    -- the mints are matched with the first of the remaining accounts
    obtain ⟨account, hpair⟩ : ∃ account, (mint, account) ∈ mints.zip (remaining.map AccountMeta.pubkey) := by
      obtain ⟨i, hi, rfl⟩ := List.getElem_of_mem hmint
      have hi' : i < (mints.zip (remaining.map AccountMeta.pubkey)).length := by
        rw [List.length_zip]
        omega
      exact ⟨_, by simpa using List.getElem_mem hi'⟩
    rcases pendingRevocations_eq_ok hpending _ hpair with hin | hnot
    · exact hrevoked _ hin howner
    · by_cases hin : associatedTokenAddress user mint ∈ pending
      · exact hrevoked _ hin howner
      · rw [hsame _ hin] at howner ⊢
        exact hnot howner
  · cases h

end

end FogoSessions.SessionManager
