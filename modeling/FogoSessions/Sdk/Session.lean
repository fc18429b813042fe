import FogoSessions.Lib.Borsh
import FogoSessions.Solana.Pubkey

/-!
# Sessions

`sessions-sdk-rs/src/session/mod.rs`: the on-chain representation of a session, in all versions, and
the checks other programs make on it.
-/

namespace FogoSessions.Sdk

open Lib Solana

/-- `MAJOR`. -/
def major : UInt8 := 0

abbrev UnixTimestamp := Int64

abbrev DomainHash := FixedBytes 32

/-- Which tokens the session may spend; the chosen ones are not listed here. -/
inductive AuthorizedTokens where
  | specific
  | all
deriving DecidableEq

/-- Which tokens the session may spend, with the mints that were chosen. -/
inductive AuthorizedTokensWithMints where
  | specific (mints : List Pubkey)
  | all
deriving DecidableEq

/-- `AsRef<AuthorizedTokens>`: forgets the mints. -/
def AuthorizedTokensWithMints.asRef : AuthorizedTokensWithMints → AuthorizedTokens
  | specific _ => .specific
  | all => .all

/-- A program that may act for the user, and the address it signs with. -/
structure AuthorizedProgram where
  programId : Pubkey
  signerPda : Pubkey
deriving DecidableEq

/-- Which programs may act for the user. -/
inductive AuthorizedPrograms where
  | specific (programs : List AuthorizedProgram)
  | all
deriving DecidableEq

/-- The (key, value) pairs the user added. -/
abbrev Extra := List (String × String)

def Extra.get (self : Extra) (key : String) : Option String :=
  (self.find? fun item => item.1 = key).map Prod.snd

/-- What the user granted; versions differ in how the tokens are kept. -/
structure ActiveSessionInfo (T : Type) where
  user : Pubkey
  expiration : UnixTimestamp
  authorizedPrograms : AuthorizedPrograms
  authorizedTokens : T
  extra : Extra
deriving DecidableEq

/-- From version 4 on, the session also knows the domain it was started for. -/
structure ActiveSessionInfoWithDomainHash where
  domainHash : DomainHash
  activeSessionInfo : ActiveSessionInfo AuthorizedTokensWithMints
deriving DecidableEq

/-- What remains of a revoked session, for the tokens to be taken back. -/
structure RevokedSessionInfo where
  user : Pubkey
  expiration : UnixTimestamp
  authorizedTokensWithMints : AuthorizedTokensWithMints
deriving DecidableEq

/-- The first version that can be revoked. -/
inductive V2 where
  | revoked (expiration : UnixTimestamp)
  | active (info : ActiveSessionInfo AuthorizedTokens)
deriving DecidableEq

/-- The first version that keeps the mints, revoked or not. -/
inductive V3 where
  | revoked (info : RevokedSessionInfo)
  | active (info : ActiveSessionInfo AuthorizedTokensWithMints)
deriving DecidableEq

/-- The current version. -/
inductive V4 where
  | revoked (info : RevokedSessionInfo)
  | active (info : ActiveSessionInfoWithDomainHash)
deriving DecidableEq

/-- The variant is the minor version. -/
inductive SessionInfo where
  | invalid
  | v1 (info : ActiveSessionInfo AuthorizedTokens)
  | v2 (info : V2)
  | v3 (info : V3)
  | v4 (info : V4)
deriving DecidableEq

/-- The account of a session; the sponsor paid for it. -/
structure Session where
  sponsor : Pubkey
  major : UInt8
  sessionInfo : SessionInfo
deriving DecidableEq

/-! ## The wire format -/

/-- A variant's fields are read back into the variant. -/
theorem variant_decode_encode {α β : Type} (c : Codec β) (variant : β → α) (b : β) :
    ∀ bs rest, c.encode b = .ok bs → (variant <$> c.decode) (bs ++ rest) = .ok (variant b, rest) := by
  intro bs rest h
  rw [Decoder.map_apply, c.decode_encode rest h]

def AuthorizedTokens.codec : Codec AuthorizedTokens :=
  .enum (fun | .specific => 0 | .all => 1) (fun _ => .ok [])
    (fun | 0 => some (pure .specific) | 1 => some (pure .all) | _ => none) <| by
    intro a
    cases a <;> exact ⟨_, rfl, by rintro _ _ ⟨⟩; rfl⟩

def mintsCodec : Codec (List Pubkey) := (Codec.fixed 32).vec

def AuthorizedTokensWithMints.codec : Codec AuthorizedTokensWithMints :=
  .enum (fun | .specific _ => 0 | .all => 1)
    (fun | .specific mints => mintsCodec.encode mints | .all => .ok [])
    (fun | 0 => some (.specific <$> mintsCodec.decode) | 1 => some (pure .all) | _ => none) <| by
    intro a
    cases a with
    | specific mints => exact ⟨_, rfl, variant_decode_encode mintsCodec _ mints⟩
    | all => exact ⟨_, rfl, by rintro _ _ ⟨⟩; rfl⟩

def AuthorizedProgram.codec : Codec AuthorizedProgram :=
  .iso (fun (a, b) => ⟨a, b⟩) (fun p => (p.programId, p.signerPda)) (fun _ => rfl)
    (.pair (.fixed 32) (.fixed 32))

def AuthorizedPrograms.codec : Codec AuthorizedPrograms :=
  .enum (fun | .specific _ => 0 | .all => 1)
    (fun | .specific programs => AuthorizedProgram.codec.vec.encode programs | .all => .ok [])
    (fun
      | 0 => some (.specific <$> AuthorizedProgram.codec.vec.decode)
      | 1 => some (pure .all)
      | _ => none) <| by
    intro a
    cases a with
    | specific programs => exact ⟨_, rfl, variant_decode_encode AuthorizedProgram.codec.vec _ programs⟩
    | all => exact ⟨_, rfl, by rintro _ _ ⟨⟩; rfl⟩

def Extra.codec : Codec Extra := (Codec.pair .string .string).vec

def ActiveSessionInfo.codec {T : Type} (tokens : Codec T) : Codec (ActiveSessionInfo T) :=
  .iso (fun (a, b, c, d, e) => ⟨a, b, c, d, e⟩)
    (fun s => (s.user, s.expiration, s.authorizedPrograms, s.authorizedTokens, s.extra))
    (fun _ => rfl)
    (.pair (.fixed 32) <| .pair .i64 <| .pair AuthorizedPrograms.codec <| .pair tokens Extra.codec)

def ActiveSessionInfoWithDomainHash.codec : Codec ActiveSessionInfoWithDomainHash :=
  .iso (fun (a, b) => ⟨a, b⟩) (fun s => (s.domainHash, s.activeSessionInfo)) (fun _ => rfl)
    (.pair (.fixed 32) (ActiveSessionInfo.codec AuthorizedTokensWithMints.codec))

def RevokedSessionInfo.codec : Codec RevokedSessionInfo :=
  .iso (fun (a, b, c) => ⟨a, b, c⟩)
    (fun s => (s.user, s.expiration, s.authorizedTokensWithMints)) (fun _ => rfl)
    (.pair (.fixed 32) <| .pair .i64 AuthorizedTokensWithMints.codec)

/-- The codec of the two states of a version: `Revoked` is written first. -/
def stateCodec {α R A : Type} (revoked : R → α) (active : A → α) (cases : α → R ⊕ A)
    (hcases : ∀ a, Sum.elim revoked active (cases a) = a) (r : Codec R) (a : Codec A) : Codec α :=
  .enum (fun s => match cases s with | .inl _ => 0 | .inr _ => 1)
    (fun s => match cases s with | .inl x => r.encode x | .inr x => a.encode x)
    (fun | 0 => some (revoked <$> r.decode) | 1 => some (active <$> a.decode) | _ => none) <| by
    intro s
    have hs := hcases s
    cases hc : cases s with
    | inl x =>
      rw [hc] at hs
      exact ⟨_, rfl, hs ▸ variant_decode_encode r revoked x⟩
    | inr x =>
      rw [hc] at hs
      exact ⟨_, rfl, hs ▸ variant_decode_encode a active x⟩

def V2.codec : Codec V2 :=
  stateCodec .revoked .active (fun | .revoked x => .inl x | .active x => .inr x)
    (by rintro (_ | _) <;> rfl) .i64 (ActiveSessionInfo.codec AuthorizedTokens.codec)

def V3.codec : Codec V3 :=
  stateCodec .revoked .active (fun | .revoked x => .inl x | .active x => .inr x)
    (by rintro (_ | _) <;> rfl) RevokedSessionInfo.codec
    (ActiveSessionInfo.codec AuthorizedTokensWithMints.codec)

def V4.codec : Codec V4 :=
  stateCodec .revoked .active (fun | .revoked x => .inl x | .active x => .inr x)
    (by rintro (_ | _) <;> rfl) RevokedSessionInfo.codec ActiveSessionInfoWithDomainHash.codec

/-- The tag that is written first is the minor version. -/
def SessionInfo.codec : Codec SessionInfo :=
  .enum (fun | .invalid => 0 | .v1 _ => 1 | .v2 _ => 2 | .v3 _ => 3 | .v4 _ => 4)
    (fun
      | .invalid => .ok []
      | .v1 s => (ActiveSessionInfo.codec AuthorizedTokens.codec).encode s
      | .v2 s => V2.codec.encode s
      | .v3 s => V3.codec.encode s
      | .v4 s => V4.codec.encode s)
    (fun
      | 0 => some (pure .invalid)
      | 1 => some (.v1 <$> (ActiveSessionInfo.codec AuthorizedTokens.codec).decode)
      | 2 => some (.v2 <$> V2.codec.decode)
      | 3 => some (.v3 <$> V3.codec.decode)
      | 4 => some (.v4 <$> V4.codec.decode)
      | _ => none) <| by
    intro a
    cases a with
    | invalid => exact ⟨_, rfl, by rintro _ _ ⟨⟩; rfl⟩
    | v1 s => exact ⟨_, rfl, variant_decode_encode (ActiveSessionInfo.codec _) _ s⟩
    | v2 s => exact ⟨_, rfl, variant_decode_encode V2.codec _ s⟩
    | v3 s => exact ⟨_, rfl, variant_decode_encode V3.codec _ s⟩
    | v4 s => exact ⟨_, rfl, variant_decode_encode V4.codec _ s⟩

namespace Session

def codec : Codec Session :=
  .iso (fun (a, b, c) => ⟨a, b, c⟩) (fun s => (s.sponsor, s.major, s.sessionInfo)) (fun _ => rfl)
    (.pair (.fixed 32) <| .pair .u8 SessionInfo.codec)

/-- `DISCRIMINATOR`. -/
def discriminator : Bytes := [243, 81, 72, 115, 214, 188, 72, 144]

end Session

/-! ## The checks -/

inductive SessionError where
  | expired
  | userMismatch
  | unauthorizedProgram
  | missingRequiredSignature
  | clockError
  | invalidAccountData
  | invalidAccountDiscriminator
  | invalidAccountVersion
  | limitsExceeded
  | revoked
  | tokenCloseAccountWrongDestination
deriving DecidableEq

namespace Session

/-- Deserializes a session account; what follows the session is ignored. -/
def tryDeserialize (data : Bytes) : Except SessionError Session :=
  if data.take 8 = discriminator then
    match codec.decode (data.drop 8) with
    | .ok (session, _) => .ok session
    | .error _ => .error .invalidAccountData
  else .error .invalidAccountData

/-- Only an active session of version 4 knows its domain. -/
def domainHash (self : Session) : Except SessionError DomainHash :=
  match self.sessionInfo with
  | .invalid | .v1 _ | .v2 _ | .v3 _ => .error .invalidAccountVersion
  | .v4 (.revoked _) => .error .revoked
  | .v4 (.active session) => .ok session.domainHash

/-- A revoked session keeps its expiration. -/
def expiration (self : Session) : Except SessionError UnixTimestamp :=
  match self.sessionInfo with
  | .v1 session => .ok session.expiration
  | .v2 (.revoked expiration) => .ok expiration
  | .v2 (.active session) => .ok session.expiration
  | .v3 (.revoked session) => .ok session.expiration
  | .v3 (.active session) => .ok session.expiration
  | .v4 (.revoked session) => .ok session.expiration
  | .v4 (.active session) => .ok session.activeSessionInfo.expiration
  | .invalid => .error .invalidAccountVersion

/-- The user, whom a revoked session of version 2 has forgotten. -/
def user (self : Session) : Except SessionError Pubkey :=
  match self.sessionInfo with
  | .v1 session => .ok session.user
  | .v2 (.revoked _) => .error .revoked
  | .v2 (.active session) => .ok session.user
  | .v3 (.revoked session) => .ok session.user
  | .v3 (.active session) => .ok session.user
  | .v4 (.revoked session) => .ok session.user
  | .v4 (.active session) => .ok session.activeSessionInfo.user
  | .invalid => .error .invalidAccountVersion

/-- A revoked session authorizes no program. -/
def authorizedPrograms (self : Session) : Except SessionError AuthorizedPrograms :=
  match self.sessionInfo with
  | .v1 session => .ok session.authorizedPrograms
  | .v2 (.revoked _) => .error .revoked
  | .v2 (.active session) => .ok session.authorizedPrograms
  | .v3 (.revoked _) => .error .revoked
  | .v3 (.active session) => .ok session.authorizedPrograms
  | .v4 (.revoked _) => .error .revoked
  | .v4 (.active session) => .ok session.activeSessionInfo.authorizedPrograms
  | .invalid => .error .invalidAccountVersion

def extra (self : Session) : Except SessionError Extra :=
  match self.sessionInfo with
  | .v1 session => .ok session.extra
  | .v2 (.revoked _) => .error .revoked
  | .v2 (.active session) => .ok session.extra
  | .v3 (.revoked _) => .error .revoked
  | .v3 (.active session) => .ok session.extra
  | .v4 (.revoked _) => .error .revoked
  | .v4 (.active session) => .ok session.activeSessionInfo.extra
  | .invalid => .error .invalidAccountVersion

/-- For 0.x versions, every new minor version is a breaking change. -/
def checkVersion (self : Session) : Except SessionError Unit := do
  require (self.major = Sdk.major) .invalidAccountVersion
  require (self.sessionInfo ≠ .invalid) .invalidAccountVersion

def checkIsUnrevoked (self : Session) : Except SessionError Unit :=
  match self.sessionInfo with
  | .v1 _ | .v2 (.active _) | .v3 (.active _) | .v4 (.active _) => .ok ⟨⟩
  | .v2 (.revoked _) | .v3 (.revoked _) | .v4 (.revoked _) => .error .revoked
  | .invalid => .error .invalidAccountVersion

/-- Whether the session is live at the given time; a revoked session is until its expiration. -/
def isLive (self : Session) (now : UnixTimestamp) : Except SessionError Bool :=
  (fun expiration => decide (now ≤ expiration)) <$> self.expiration

def checkIsLive (self : Session) (now : UnixTimestamp) : Except SessionError Unit := do
  let live ← self.isLive now
  require live .expired

def checkIsLiveAndUnrevoked (self : Session) (now : UnixTimestamp) : Except SessionError Unit := do
  self.checkVersion
  self.checkIsUnrevoked
  self.checkIsLive now

def getDomainHashChecked (self : Session) (now : UnixTimestamp) :
    Except SessionError DomainHash := do
  self.checkIsLiveAndUnrevoked now
  self.domainHash

def checkAuthorizedProgram (self : Session) (programId : Pubkey) : Except SessionError Unit := do
  match ← self.authorizedPrograms with
  | .specific programs =>
    require (programs.any fun authorizedProgram => authorizedProgram.programId = programId)
      .unauthorizedProgram
  | .all => return

/-- The user who started the session, if it is live and the program may act for the user. -/
def getUserChecked (self : Session) (programId : Pubkey) (now : UnixTimestamp) :
    Except SessionError Pubkey := do
  self.checkIsLiveAndUnrevoked now
  self.checkAuthorizedProgram programId
  self.user

/-- The value of one of the extra fields, if there is one with the key. -/
def getExtra (self : Session) (key : String) (now : UnixTimestamp) :
    Except SessionError (Option String) := do
  self.checkIsLiveAndUnrevoked now
  let extra ← self.extra
  return extra.get key

/-! ## What succeeded -/

/-- The accounts that hold a session: the discriminator, the session and anything after it. -/
theorem tryDeserialize_eq_ok {data : Bytes} {session : Session} :
    tryDeserialize data = .ok session ↔
      ∃ body rest, data = discriminator ++ body ∧ codec.decode body = .ok (session, rest) := by
  unfold tryDeserialize
  constructor
  · intro h
    split at h
    · rename_i htake
      split at h
      · rename_i session' rest hdecode
        cases h
        exact ⟨data.drop 8, rest, htake ▸ (List.take_append_drop 8 data).symm, hdecode⟩
      · cases h
    · cases h
  · rintro ⟨body, rest, rfl, hdecode⟩
    have htake : (discriminator ++ body).take 8 = discriminator := rfl
    have hdrop : (discriminator ++ body).drop 8 = body := rfl
    rw [if_pos htake, hdrop, hdecode]

/-- A session that passes is not revoked and not expired. -/
theorem checkIsLiveAndUnrevoked_eq_ok {self : Session} {now : UnixTimestamp} {r : Unit}
    (h : self.checkIsLiveAndUnrevoked now = .ok r) :
    self.checkIsUnrevoked = .ok ⟨⟩ ∧ ∃ expiration, self.expiration = .ok expiration ∧
      now ≤ expiration := by
  simp only [checkIsLiveAndUnrevoked, bind_eq_ok, checkIsLive, require_eq_ok, isLive,
    map_eq_ok] at h
  obtain ⟨_, -, _, hunrevoked, live, ⟨expiration, hexpiration, rfl⟩, hlive⟩ := h
  exact ⟨hunrevoked, expiration, hexpiration, by simpa using hlive⟩

/-- A user is returned for a live session, to a program that it authorizes. -/
theorem getUserChecked_eq_ok {self : Session} {programId user : Pubkey} {now : UnixTimestamp}
    (h : self.getUserChecked programId now = .ok user) :
    self.checkIsUnrevoked = .ok ⟨⟩ ∧
      (∃ expiration, self.expiration = .ok expiration ∧ now ≤ expiration) ∧
      self.user = .ok user ∧
      ∃ authorized, self.authorizedPrograms = .ok authorized ∧
        ∀ programs, authorized = .specific programs →
          programId ∈ programs.map AuthorizedProgram.programId := by
  simp only [getUserChecked, bind_eq_ok, checkAuthorizedProgram] at h
  obtain ⟨_, hlive, _, ⟨authorized, hauthorized, hcheck⟩, huser⟩ := h
  obtain ⟨hunrevoked, hexpiration⟩ := checkIsLiveAndUnrevoked_eq_ok hlive
  refine ⟨hunrevoked, hexpiration, huser, authorized, hauthorized, ?_⟩
  rintro programs rfl
  simpa [require_eq_ok, and_comm] using hcheck

end Session

end FogoSessions.Sdk
