import FogoSessions.Sdk.Session
import FogoSessions.Solana.Instruction

/-!
# What a session lets the token program do

`sessions-sdk-rs/src/session/token_program.rs`: the token program lets a session move the user's
tokens if one of the session's programs takes part, which shows in the signature of the program's
signer.
-/

namespace FogoSessions.Sdk.Session

open Lib Solana

def authorizedTokens (self : Session) : Except SessionError AuthorizedTokens :=
  match self.sessionInfo with
  | .v1 session => .ok session.authorizedTokens
  | .v2 (.revoked _) => .error .revoked
  | .v2 (.active session) => .ok session.authorizedTokens
  | .v3 (.revoked session) => .ok session.authorizedTokensWithMints.asRef
  | .v3 (.active session) => .ok session.authorizedTokens.asRef
  | .v4 (.revoked session) => .ok session.authorizedTokensWithMints.asRef
  | .v4 (.active session) => .ok session.activeSessionInfo.authorizedTokens.asRef
  | .invalid => .error .invalidAccountVersion

def checkUser (self : Session) (expectedUser : Pubkey) : Except SessionError Unit := do
  let user ← self.user
  require (user = expectedUser) .userMismatch

/-- The account is the signer of one of the programs. -/
def isProgramSigner (programs : List AuthorizedProgram) (signer : AccountMeta) : Bool :=
  programs.any fun item => signer.pubkey = item.signerPda

def checkAuthorizedProgramSigner (self : Session) (signers : List AccountMeta) :
    Except SessionError Unit := do
  match ← self.authorizedPrograms with
  | .specific programs =>
    let signerAccountInfo ← okOr (signers.find? (isProgramSigner programs)) .unauthorizedProgram
    require signerAccountInfo.isSigner .missingRequiredSignature
  | .all => return

def getTokenPermissionsChecked (self : Session) (now : UnixTimestamp) (user : Pubkey)
    (signers : List AccountMeta) : Except SessionError AuthorizedTokens := do
  self.checkIsLiveAndUnrevoked now
  self.checkUser user
  self.checkAuthorizedProgramSigner signers
  self.authorizedTokens

def getUserCheckedTokenProgram (self : Session) (now : UnixTimestamp) :
    Except SessionError Pubkey := do
  self.checkIsLiveAndUnrevoked now
  self.user

/-! ## What is granted -/

/-- What an active session grants, whatever its version; a revoked one grants nothing. -/
def activeInfo (self : Session) : Option (ActiveSessionInfo AuthorizedTokens) :=
  match self.sessionInfo with
  | .v1 session | .v2 (.active session) => some session
  | .v3 (.active session) =>
    some { session with authorizedTokens := session.authorizedTokens.asRef }
  | .v4 (.active session) =>
    some { session.activeSessionInfo with
      authorizedTokens := session.activeSessionInfo.authorizedTokens.asRef }
  | .v2 (.revoked _) | .v3 (.revoked _) | .v4 (.revoked _) | .invalid => none

/-- The session grants these things at the time. -/
structure Grants (session : Session) (now : UnixTimestamp)
    (info : ActiveSessionInfo AuthorizedTokens) : Prop where
  major : session.major = Sdk.major
  active : session.activeInfo = some info
  live : now ≤ info.expiration

/-- The session is live and unrevoked, the user's, and one of its programs signs if only some
    programs may act. -/
def Permits (self : Session) (now : UnixTimestamp) (user : Pubkey) (signers : List AccountMeta) :
    Prop :=
  ∃ info, self.Grants now info ∧ info.user = user ∧
    (info.authorizedPrograms = .all ∨ ∃ programs, info.authorizedPrograms = .specific programs ∧
      ∃ signer ∈ signers, isProgramSigner programs signer = true ∧ signer.isSigner = true)

/-- Of the accounts that are signers of authorized programs, the first does not sign. -/
def FirstUnsigned (self : Session) (signers : List AccountMeta) : Prop :=
  ∃ info programs before signer after, self.activeInfo = some info ∧
    info.authorizedPrograms = .specific programs ∧ signers = before ++ signer :: after ∧
    (∀ account ∈ before, isProgramSigner programs account = false) ∧
    isProgramSigner programs signer = true ∧ signer.isSigner = false

theorem activeInfo_spec {self : Session} {info : ActiveSessionInfo AuthorizedTokens}
    (h : self.activeInfo = some info) :
    self.checkIsUnrevoked = .ok ⟨⟩ ∧ self.expiration = .ok info.expiration ∧
      self.user = .ok info.user ∧ self.authorizedPrograms = .ok info.authorizedPrograms ∧
      self.authorizedTokens = .ok info.authorizedTokens := by
  obtain ⟨sponsor, major, sessionInfo⟩ := self
  cases sessionInfo with
  | invalid => cases h
  | v1 session =>
    cases h
    exact ⟨rfl, rfl, rfl, rfl, rfl⟩
  | v2 session =>
    cases session with
    | revoked _ => cases h
    | active session =>
      cases h
      exact ⟨rfl, rfl, rfl, rfl, rfl⟩
  | v3 session =>
    cases session with
    | revoked _ => cases h
    | active session =>
      cases h
      exact ⟨rfl, rfl, rfl, rfl, rfl⟩
  | v4 session =>
    cases session with
    | revoked _ => cases h
    | active session =>
      cases h
      exact ⟨rfl, rfl, rfl, rfl, rfl⟩

theorem exists_activeInfo {self : Session} (h : self.checkIsUnrevoked = .ok ⟨⟩) :
    ∃ info, self.activeInfo = some info := by
  obtain ⟨sponsor, major, sessionInfo⟩ := self
  cases sessionInfo with
  | invalid => cases h
  | v1 session => exact ⟨_, rfl⟩
  | v2 session =>
    cases session with
    | revoked _ => cases h
    | active session => exact ⟨_, rfl⟩
  | v3 session =>
    cases session with
    | revoked _ => cases h
    | active session => exact ⟨_, rfl⟩
  | v4 session =>
    cases session with
    | revoked _ => cases h
    | active session => exact ⟨_, rfl⟩

theorem checkIsLiveAndUnrevoked_iff {self : Session} {now : UnixTimestamp} :
    self.checkIsLiveAndUnrevoked now = .ok ⟨⟩ ↔ ∃ info, self.Grants now info := by
  simp only [checkIsLiveAndUnrevoked, checkVersion, checkIsLive, isLive, bind_eq_ok, require_eq_ok,
    map_eq_ok]
  constructor
  · rintro ⟨_, ⟨_, hmajor, -⟩, _, hunrevoked, live, ⟨expiration, hexpiration, rfl⟩, hlive⟩
    obtain ⟨info, hinfo⟩ := exists_activeInfo hunrevoked
    rw [(activeInfo_spec hinfo).2.1] at hexpiration
    cases hexpiration
    exact ⟨info, hmajor, hinfo, of_decide_eq_true hlive⟩
  · rintro ⟨info, hmajor, hinfo, hlive⟩
    obtain ⟨hunrevoked, hexpiration, -⟩ := activeInfo_spec hinfo
    have hvalid : self.sessionInfo ≠ .invalid := by
      intro hinvalid
      rw [activeInfo, hinvalid] at hinfo
      cases hinfo
    exact ⟨(), ⟨(), hmajor, hvalid⟩, (), hunrevoked, _, ⟨_, hexpiration, rfl⟩, decide_eq_true hlive⟩

section

variable {self : Session} {info : ActiveSessionInfo AuthorizedTokens}
  {programs : List AuthorizedProgram}

theorem firstUnsigned_iff {signers : List AccountMeta} (h : self.activeInfo = some info)
    (hspecific : info.authorizedPrograms = .specific programs) :
    self.FirstUnsigned signers ↔ ∃ signer,
      signers.find? (isProgramSigner programs) = some signer ∧ signer.isSigner = false := by
  constructor
  · rintro ⟨_, _, before, signer, after, hinfo, hspecific', rfl, hbefore, hsigner, hunsigned⟩
    cases h.symm.trans hinfo
    cases hspecific.symm.trans hspecific'
    have hfirst := List.find?_eq_some_iff_append.2
      ⟨hsigner, before, after, rfl, by simpa using hbefore⟩
    exact ⟨signer, hfirst, hunsigned⟩
  · rintro ⟨signer, hfind, hunsigned⟩
    obtain ⟨hsigner, before, after, rfl, hbefore⟩ := List.find?_eq_some_iff_append.1 hfind
    exact ⟨info, programs, before, signer, after, h, hspecific, rfl, by simpa using hbefore, hsigner,
      hunsigned⟩

/-- The first account that is a program's signer decides. -/
theorem checkAuthorizedProgramSigner_iff {signers : List AccountMeta}
    (h : self.activeInfo = some info) :
    self.checkAuthorizedProgramSigner signers = .ok ⟨⟩ ↔
      (info.authorizedPrograms = .all ∨ ∃ programs, info.authorizedPrograms = .specific programs ∧
        ∃ signer ∈ signers, isProgramSigner programs signer = true ∧ signer.isSigner = true) ∧
      ¬ self.FirstUnsigned signers := by
  have hprograms := (activeInfo_spec h).2.2.2.1
  rw [checkAuthorizedProgramSigner, hprograms, ok_bind]
  cases hauthorized : info.authorizedPrograms with
  | all =>
    refine iff_of_true rfl ⟨Or.inl rfl, ?_⟩
    rintro ⟨_, programs, -, -, -, hinfo, hspecific, -⟩
    cases h.symm.trans hinfo
    cases hauthorized.symm.trans hspecific
  | specific programs =>
    rw [firstUnsigned_iff h hauthorized]
    simp only [bind_eq_ok, okOr_eq_ok, require_eq_ok]
    constructor
    · rintro ⟨signer, hfind, hsigns⟩
      refine ⟨Or.inr ⟨programs, rfl, signer, List.mem_of_find?_eq_some hfind,
        List.find?_some hfind, hsigns⟩, ?_⟩
      rintro ⟨_, hfind', hunsigned⟩
      cases hfind.symm.trans hfind'
      exact absurd hsigns (by rw [hunsigned]; exact Bool.false_ne_true)
    · rintro ⟨hall | ⟨_, hspecific, signer, hmem, hsigner, hsigns⟩, hfirst⟩
      · cases hall
      · cases hspecific
        cases hfind : signers.find? (isProgramSigner programs) with
        | none => exact absurd hsigner (List.find?_eq_none.1 hfind signer hmem)
        | some first =>
          refine ⟨first, rfl, ?_⟩
          by_contra hunsigned
          exact hfirst ⟨first, hfind, by simpa using hunsigned⟩

theorem getTokenPermissionsChecked_iff {now : UnixTimestamp} {user : Pubkey}
    {signers : List AccountMeta} :
    (∃ tokens, self.getTokenPermissionsChecked now user signers = .ok tokens) ↔
      self.Permits now user signers ∧ ¬ self.FirstUnsigned signers := by
  simp only [getTokenPermissionsChecked, checkUser, bind_eq_ok, require_eq_ok]
  constructor
  · rintro ⟨tokens, ⟨⟩, hlive, ⟨⟩, ⟨_, huser, rfl⟩, ⟨⟩, hsigner, -⟩
    obtain ⟨info, hgrants⟩ := checkIsLiveAndUnrevoked_iff.1 hlive
    rw [(activeInfo_spec hgrants.active).2.2.1] at huser
    cases huser
    obtain ⟨hprograms, hfirst⟩ := (checkAuthorizedProgramSigner_iff hgrants.active).1 hsigner
    exact ⟨⟨info, hgrants, rfl, hprograms⟩, hfirst⟩
  · rintro ⟨⟨info, hgrants, rfl, hprograms⟩, hfirst⟩
    obtain ⟨-, -, huser, -, htokens⟩ := activeInfo_spec hgrants.active
    exact ⟨info.authorizedTokens, (), checkIsLiveAndUnrevoked_iff.2 ⟨info, hgrants⟩, (),
      ⟨_, huser, rfl⟩, (), (checkAuthorizedProgramSigner_iff hgrants.active).2 ⟨hprograms, hfirst⟩,
      htokens⟩

/-- The user is told exactly for a session that grants something. -/
theorem getUserCheckedTokenProgram_eq_ok {now : UnixTimestamp} {user : Pubkey} :
    self.getUserCheckedTokenProgram now = .ok user ↔
      ∃ info, self.Grants now info ∧ info.user = user := by
  simp only [getUserCheckedTokenProgram, bind_eq_ok]
  constructor
  · rintro ⟨⟨⟩, hlive, huser⟩
    obtain ⟨info, hgrants⟩ := checkIsLiveAndUnrevoked_iff.1 hlive
    rw [(activeInfo_spec hgrants.active).2.2.1] at huser
    exact ⟨info, hgrants, Except.ok.inj huser⟩
  · rintro ⟨info, hgrants, rfl⟩
    exact ⟨(), checkIsLiveAndUnrevoked_iff.2 ⟨info, hgrants⟩,
      (activeInfo_spec hgrants.active).2.2.1⟩

/-- Whoever is permitted something is the user that is told. -/
theorem Permits.getUserCheckedTokenProgram {now : UnixTimestamp} {user : Pubkey}
    {signers : List AccountMeta} (h : self.Permits now user signers) :
    self.getUserCheckedTokenProgram now = .ok user := by
  obtain ⟨info, hgrants, huser, -⟩ := h
  exact getUserCheckedTokenProgram_eq_ok.2 ⟨info, hgrants, huser⟩

/-- What is permitted is permitted with other accounts beside, in any order. -/
theorem Permits.of_perm {now : UnixTimestamp} {user : Pubkey}
    {signers added padded : List AccountMeta} (hpadded : padded.Perm (signers ++ added))
    (h : self.Permits now user signers) : self.Permits now user padded := by
  obtain ⟨info, hgrants, huser, hprograms⟩ := h
  refine ⟨info, hgrants, huser, hprograms.imp id ?_⟩
  rintro ⟨programs, hspecific, signer, hmem, hsigner⟩
  exact ⟨programs, hspecific, signer, hpadded.mem_iff.2 (List.mem_append_left added hmem), hsigner⟩

/-- The check grants what is permitted, and goes on granting it when accounts are added or exchanged,
    unless an account of a program that does not sign stands before all those that do. -/
theorem tokenPermissions_order_iff {now : UnixTimestamp} {user : Pubkey}
    {signers added padded : List AccountMeta} (hpadded : padded.Perm (signers ++ added)) :
    (((∃ tokens, self.getTokenPermissionsChecked now user signers = .ok tokens) ↔
        self.Permits now user signers) ∧
      ((∃ tokens, self.getTokenPermissionsChecked now user signers = .ok tokens) →
        ∃ tokens, self.getTokenPermissionsChecked now user padded = .ok tokens)) ↔
      (self.Permits now user signers →
        ¬ self.FirstUnsigned signers ∧ ¬ self.FirstUnsigned padded) := by
  simp only [getTokenPermissionsChecked_iff]
  constructor
  · rintro ⟨hexact, hkept⟩ hpermits
    have hfirst := (hexact.2 hpermits).2
    exact ⟨hfirst, (hkept ⟨hpermits, hfirst⟩).2⟩
  · intro hfirst
    refine ⟨⟨fun h => h.1, fun h => ⟨h, (hfirst h).1⟩⟩, fun h => ?_⟩
    exact ⟨h.1.of_perm hpadded, (hfirst h.1).2⟩

end

/-! ## Two programs -/

namespace Sample

def userKey : Pubkey := .ofNat 1
def firstSigner : AccountMeta := ⟨.ofNat 2, false, false⟩
def secondSigner : AccountMeta := ⟨.ofNat 3, true, false⟩

/-- A session of two programs. -/
def session : Session where
  sponsor := .ofNat 4
  major := 0
  sessionInfo := .v4 (.active {
    domainHash := .ofNat 5
    activeSessionInfo := {
      user := userKey
      expiration := 86400
      authorizedPrograms := .specific [⟨.ofNat 6, firstSigner.pubkey⟩, ⟨.ofNat 7, secondSigner.pubkey⟩]
      authorizedTokens := .all
      extra := [] } })

/-- The second program's account comes first, and signs. -/
theorem not_firstUnsigned (after : List AccountMeta) :
    ¬ session.FirstUnsigned (secondSigner :: after) := by
  rw [firstUnsigned_iff rfl rfl]
  rintro ⟨signer, hfind, hunsigned⟩
  rw [List.find?_cons_of_pos (by decide)] at hfind
  cases hfind
  cases hunsigned

theorem permits : session.Permits 0 userKey [secondSigner, firstSigner] :=
  ⟨_, ⟨rfl, rfl, by decide⟩, rfl, Or.inr ⟨_, rfl, secondSigner, List.mem_cons_self, by decide, rfl⟩⟩

end Sample

open Sample

/-- The signature of the second program is not looked for behind the account of the first one. -/
theorem tokenPermissions_order_unsigned :
    session.getTokenPermissionsChecked 0 userKey [secondSigner, firstSigner] = .ok .all ∧
      [firstSigner, secondSigner].Perm [secondSigner, firstSigner] ∧
      session.Permits 0 userKey [firstSigner, secondSigner] ∧
      session.getTokenPermissionsChecked 0 userKey [firstSigner, secondSigner] =
        .error .missingRequiredSignature :=
  ⟨by decide, List.Perm.swap _ _ _, permits.of_perm (List.Perm.swap _ _ _), by decide⟩

theorem tokenPermissions_order_iff_sample :
    ((∃ tokens, session.getTokenPermissionsChecked 0 userKey [secondSigner] = .ok tokens) ↔
        session.Permits 0 userKey [secondSigner]) ∧
      ((∃ tokens, session.getTokenPermissionsChecked 0 userKey [secondSigner] = .ok tokens) →
        ∃ tokens, session.getTokenPermissionsChecked 0 userKey [secondSigner, firstSigner] =
          .ok tokens) :=
  have hpadded : [secondSigner, firstSigner].Perm ([secondSigner] ++ [firstSigner]) :=
    List.Perm.refl _
  (tokenPermissions_order_iff hpadded).2 fun _ => ⟨not_firstUnsigned _, not_firstUnsigned _⟩

end FogoSessions.Sdk.Session
