import FogoSessions.Lib.BorshPrefix
import FogoSessions.Sdk.Session

/-!
# Sessions in the system program

`sessions-sdk-rs/src/session/system_program.rs`: the system program is built against the same
session code with a shorter `ActiveSessionInfo`, so that reading a session costs about the same
whatever it contains. Sessions are still written in full: the short structures must read what the
full ones wrote.
-/

namespace FogoSessions.Sdk.SystemProgram

open Lib Solana

/-- `_phantom_data` carries `T` and is skipped on the wire. -/
structure ActiveSessionInfo (T : Type) where
  user : Pubkey
  expiration : UnixTimestamp
deriving DecidableEq

structure ActiveSessionInfoWithDomainHash where
  domainHash : DomainHash
  activeSessionInfo : ActiveSessionInfo AuthorizedTokensWithMints
deriving DecidableEq

inductive V2 where
  | revoked (expiration : UnixTimestamp)
  | active (info : ActiveSessionInfo AuthorizedTokens)
deriving DecidableEq

inductive V3 where
  | revoked (info : RevokedSessionInfo)
  | active (info : ActiveSessionInfo AuthorizedTokensWithMints)
deriving DecidableEq

inductive V4 where
  | revoked (info : RevokedSessionInfo)
  | active (info : ActiveSessionInfoWithDomainHash)
deriving DecidableEq

inductive SessionInfo where
  | invalid
  | v1 (info : ActiveSessionInfo AuthorizedTokens)
  | v2 (info : V2)
  | v3 (info : V3)
  | v4 (info : V4)
deriving DecidableEq

/-- Outside Anchor the discriminator is a field. -/
structure Session where
  discriminator : FixedBytes 8
  sponsor : Pubkey
  major : UInt8
  sessionInfo : SessionInfo
deriving DecidableEq

/-! ## The wire format -/

def ActiveSessionInfo.decoder (T : Type) : Decoder (ActiveSessionInfo T) := do
  let user ← (Codec.fixed 32).decode
  let expiration ← Codec.i64.decode
  return ⟨user, expiration⟩

def ActiveSessionInfoWithDomainHash.decoder : Decoder ActiveSessionInfoWithDomainHash := do
  let domainHash ← (Codec.fixed 32).decode
  let activeSessionInfo ← ActiveSessionInfo.decoder AuthorizedTokensWithMints
  return ⟨domainHash, activeSessionInfo⟩

def V2.decoder : Decoder V2 :=
  .enum fun
    | 0 => some (.revoked <$> Codec.i64.decode)
    | 1 => some (.active <$> ActiveSessionInfo.decoder AuthorizedTokens)
    | _ => none

def V3.decoder : Decoder V3 :=
  .enum fun
    | 0 => some (.revoked <$> RevokedSessionInfo.codec.decode)
    | 1 => some (.active <$> ActiveSessionInfo.decoder AuthorizedTokensWithMints)
    | _ => none

def V4.decoder : Decoder V4 :=
  .enum fun
    | 0 => some (.revoked <$> RevokedSessionInfo.codec.decode)
    | 1 => some (.active <$> ActiveSessionInfoWithDomainHash.decoder)
    | _ => none

def SessionInfo.decoder : Decoder SessionInfo :=
  .enum fun
    | 0 => some (pure .invalid)
    | 1 => some (.v1 <$> ActiveSessionInfo.decoder AuthorizedTokens)
    | 2 => some (.v2 <$> V2.decoder)
    | 3 => some (.v3 <$> V3.decoder)
    | 4 => some (.v4 <$> V4.decoder)
    | _ => none

namespace Session

def decoder : Decoder Session := do
  let discriminator ← (Codec.fixed 8).decode
  let sponsor ← (Codec.fixed 32).decode
  let major ← Codec.u8.decode
  let sessionInfo ← SessionInfo.decoder
  return ⟨discriminator, sponsor, major, sessionInfo⟩

/-- Deserializes a session account; what follows the session is ignored. -/
def tryDeserialize (data : Bytes) : Except SessionError Session := do
  let (result, _) ← mapErr (fun _ => .invalidAccountData) (decoder data)
  require (result.discriminator.bytes = Sdk.Session.discriminator) .invalidAccountDiscriminator
  return result

/-! ## The checks -/

def expiration (self : Session) : Except SessionError UnixTimestamp :=
  match self.sessionInfo with
  | .v1 session => .ok session.expiration
  | .v2 (.revoked expiration) => .ok expiration
  | .v2 (.active session) => .ok session.expiration
  | .v3 (.revoked session) => .ok session.expiration
  | .v3 (.active session) => .ok session.expiration
  | .v4 (.revoked session) => .ok session.expiration
  | .v4 (.active session) => .ok session.activeSessionInfo.expiration
  | .invalid => .error .invalidAccountVersion

def user (self : Session) : Except SessionError Pubkey :=
  match self.sessionInfo with
  | .v1 session => .ok session.user
  | .v2 (.revoked _) => .error .revoked
  | .v2 (.active session) => .ok session.user
  | .v3 (.revoked session) => .ok session.user
  | .v3 (.active session) => .ok session.user
  | .v4 (.revoked session) => .ok session.user
  | .v4 (.active session) => .ok session.activeSessionInfo.user
  | .invalid => .error .invalidAccountVersion

def checkVersion (self : Session) : Except SessionError Unit := do
  require (self.major = Sdk.major) .invalidAccountVersion
  require (self.sessionInfo ≠ .invalid) .invalidAccountVersion

def checkIsUnrevoked (self : Session) : Except SessionError Unit :=
  match self.sessionInfo with
  | .v1 _ | .v2 (.active _) | .v3 (.active _) | .v4 (.active _) => .ok ⟨⟩
  | .v2 (.revoked _) | .v3 (.revoked _) | .v4 (.revoked _) => .error .revoked
  | .invalid => .error .invalidAccountVersion

/-- The clock is an argument: a native program cannot call `Clock::get`. -/
def checkIsLiveWithClock (self : Session) (clock : UnixTimestamp) : Except SessionError Unit := do
  let expiration ← self.expiration
  require (clock ≤ expiration) .expired

def checkIsLiveAndUnrevokedWithClock (self : Session) (clock : UnixTimestamp) :
    Except SessionError Unit := do
  self.checkVersion
  self.checkIsUnrevoked
  self.checkIsLiveWithClock clock

/-- The user of a live session: every session may wrap tokens for its user, so no program is
    checked. -/
def getUserCheckedSystemProgram (self : Session) (clock : UnixTimestamp) :
    Except SessionError Pubkey := do
  self.checkIsLiveAndUnrevokedWithClock clock
  self.user

end Session

/-! ## What the short structures keep -/

def ActiveSessionInfo.shorten {T : Type} (info : Sdk.ActiveSessionInfo T) : ActiveSessionInfo T :=
  ⟨info.user, info.expiration⟩

def ActiveSessionInfoWithDomainHash.shorten (info : Sdk.ActiveSessionInfoWithDomainHash) :
    ActiveSessionInfoWithDomainHash :=
  ⟨info.domainHash, .shorten info.activeSessionInfo⟩

def V2.shorten : Sdk.V2 → V2
  | .revoked expiration => .revoked expiration
  | .active info => .active (.shorten info)

def V3.shorten : Sdk.V3 → V3
  | .revoked info => .revoked info
  | .active info => .active (.shorten info)

def V4.shorten : Sdk.V4 → V4
  | .revoked info => .revoked info
  | .active info => .active (.shorten info)

/-- The same variant with the short structures in it. -/
def SessionInfo.shorten : Sdk.SessionInfo → SessionInfo
  | .invalid => .invalid
  | .v1 info => .v1 (.shorten info)
  | .v2 info => .v2 (.shorten info)
  | .v3 info => .v3 (.shorten info)
  | .v4 info => .v4 (.shorten info)

theorem ActiveSessionInfo.abbreviates {T : Type} (tokens : Codec T) :
    Abbreviates (decoder T) shorten (Sdk.ActiveSessionInfo.codec tokens) :=
  .iso _ <| (Codec.i64.abbreviates.fst _).snd (.fixed 32) ActiveSessionInfo.mk

theorem ActiveSessionInfoWithDomainHash.abbreviates :
    Abbreviates decoder shorten Sdk.ActiveSessionInfoWithDomainHash.codec :=
  .iso _ <| (ActiveSessionInfo.abbreviates AuthorizedTokensWithMints.codec).snd (.fixed 32) mk

/-- The two states of a version are abbreviated together. -/
theorem stateCodec_abbreviates {α β R A A' : Type} {revoked : R → α} {active : A → α}
    {cases : α → R ⊕ A} (hcases : ∀ a, Sum.elim revoked active (cases a) = a) {r : Codec R}
    {a : Codec A} {d : Decoder A'} {shorten : A → A'} (h : Abbreviates d shorten a)
    {f : α → β} {revoked' : R → β} {active' : A' → β} (hrevoked : ∀ x, f (revoked x) = revoked' x)
    (hactive : ∀ x, f (active x) = active' (shorten x)) :
    Abbreviates
      (Decoder.enum fun
        | 0 => some (revoked' <$> r.decode)
        | 1 => some (active' <$> d)
        | _ => none)
      f (stateCodec revoked active cases hcases r a) := by
  unfold stateCodec
  refine .enum _ fun s => ?_
  have hs := hcases s
  cases hc : cases s with
  | inl x =>
    have hf : f s = revoked' x := by rw [← hs, hc, Sum.elim_inl, hrevoked]
    exact ⟨_, rfl, fun _ hx rest => hf ▸ (r.abbreviates.map revoked') hx rest⟩
  | inr x =>
    have hf : f s = active' (shorten x) := by rw [← hs, hc, Sum.elim_inr, hactive]
    exact ⟨_, rfl, fun _ hx rest => hf ▸ (h.map active') hx rest⟩

theorem V2.abbreviates : Abbreviates decoder shorten Sdk.V2.codec :=
  stateCodec_abbreviates _ (ActiveSessionInfo.abbreviates _) (fun _ => rfl) (fun _ => rfl)

theorem V3.abbreviates : Abbreviates decoder shorten Sdk.V3.codec :=
  stateCodec_abbreviates _ (ActiveSessionInfo.abbreviates _) (fun _ => rfl) (fun _ => rfl)

theorem V4.abbreviates : Abbreviates decoder shorten Sdk.V4.codec :=
  stateCodec_abbreviates _ ActiveSessionInfoWithDomainHash.abbreviates (fun _ => rfl) (fun _ => rfl)

theorem SessionInfo.abbreviates : Abbreviates decoder shorten Sdk.SessionInfo.codec := by
  refine .enum _ fun s => ?_
  cases s with
  | invalid => exact ⟨_, rfl, by rintro _ ⟨⟩ rest; exact ⟨rest, rfl⟩⟩
  | v1 info => exact ⟨_, rfl, fun _ h rest => ((ActiveSessionInfo.abbreviates _).map v1) h rest⟩
  | v2 info => exact ⟨_, rfl, fun _ h rest => (V2.abbreviates.map v2) h rest⟩
  | v3 info => exact ⟨_, rfl, fun _ h rest => (V3.abbreviates.map v3) h rest⟩
  | v4 info => exact ⟨_, rfl, fun _ h rest => (V4.abbreviates.map v4) h rest⟩

namespace Session

/-- The session as the system program sees it. -/
def shorten (discriminator : FixedBytes 8) (session : Sdk.Session) : Session :=
  ⟨discriminator, session.sponsor, session.major, .shorten session.sessionInfo⟩

theorem decoder_encode (discriminator : FixedBytes 8) {session : Sdk.Session} {body : Bytes}
    (h : Sdk.Session.codec.encode session = .ok body) (rest : Bytes) :
    ∃ left, decoder (discriminator.bytes ++ body ++ rest) =
      .ok (shorten discriminator session, left) := by
  obtain ⟨left, hbody⟩ := ((SessionInfo.abbreviates.snd .u8 Prod.mk).snd (.fixed 32) Prod.mk) h rest
  have hdisc := (Codec.fixed 8).decode_encode (a := discriminator) (body ++ rest) rfl
  simp only [Decoder.bind_eq_ok] at hbody
  obtain ⟨sponsor, _, hsponsor, _, _, ⟨major, _, hmajor, info, _, hinfo, hpair⟩, hmk⟩ := hbody
  cases hpair
  cases hmk
  refine ⟨left, ?_⟩
  rw [List.append_assoc]
  exact Decoder.bind_eq_ok.2 ⟨_, _, hdisc, Decoder.bind_eq_ok.2 ⟨_, _, hsponsor,
    Decoder.bind_eq_ok.2 ⟨_, _, hmajor, Decoder.bind_eq_ok.2 ⟨_, _, hinfo, rfl⟩⟩⟩⟩

variable (discriminator : FixedBytes 8) (session : Sdk.Session)

theorem user_shorten : (shorten discriminator session).user = session.user := by
  obtain ⟨sponsor, major, _ | _ | (_ | _) | (_ | _) | (_ | _)⟩ := session <;> rfl

theorem expiration_shorten : (shorten discriminator session).expiration = session.expiration := by
  obtain ⟨sponsor, major, _ | _ | (_ | _) | (_ | _) | (_ | _)⟩ := session <;> rfl

theorem checkIsUnrevoked_shorten :
    (shorten discriminator session).checkIsUnrevoked = session.checkIsUnrevoked := by
  obtain ⟨sponsor, major, _ | _ | (_ | _) | (_ | _) | (_ | _)⟩ := session <;> rfl

theorem checkVersion_shorten :
    (shorten discriminator session).checkVersion = session.checkVersion := by
  have hinvalid : SessionInfo.shorten session.sessionInfo ≠ .invalid ↔
      session.sessionInfo ≠ .invalid := by
    cases session.sessionInfo <;> simp [SessionInfo.shorten]
  exact congrArg (_ >>= fun _ : Unit => ·) (require_congr hinvalid _)

theorem checkIsLive_shorten (clock : UnixTimestamp) :
    (shorten discriminator session).checkIsLiveWithClock clock = session.checkIsLive clock := by
  rw [checkIsLiveWithClock, expiration_shorten, Sdk.Session.checkIsLive, Sdk.Session.isLive]
  cases session.expiration with
  | error e => rfl
  | ok expiration => simp [Functor.map, Except.map, bind, Except.bind]

theorem checkIsLiveAndUnrevoked_shorten (clock : UnixTimestamp) :
    (shorten discriminator session).checkIsLiveAndUnrevokedWithClock clock =
      session.checkIsLiveAndUnrevoked clock := by
  rw [checkIsLiveAndUnrevokedWithClock, checkVersion_shorten, checkIsUnrevoked_shorten,
    checkIsLive_shorten]
  rfl

/-- **The short decoder agrees with the full one**: both read the same session from an account
    that was written in full, and give its user under the same conditions. -/
theorem tryDeserialize_full {session : Sdk.Session} {body : Bytes}
    (h : Sdk.Session.codec.encode session = .ok body) (rest : Bytes) (clock : UnixTimestamp) :
    Sdk.Session.tryDeserialize (Sdk.Session.discriminator ++ body ++ rest) = .ok session ∧
    ∃ short, tryDeserialize (Sdk.Session.discriminator ++ body ++ rest) = .ok short ∧
      short.sponsor = session.sponsor ∧ short.major = session.major ∧
      short.sessionInfo = .shorten session.sessionInfo ∧
      short.user = session.user ∧ short.expiration = session.expiration ∧
      short.getUserCheckedSystemProgram clock =
        (do session.checkIsLiveAndUnrevoked clock; session.user) := by
  obtain ⟨left, hdecode⟩ := decoder_encode ⟨Sdk.Session.discriminator, rfl⟩ h rest
  constructor
  · exact Sdk.Session.tryDeserialize_eq_ok.2
      ⟨body ++ rest, rest, List.append_assoc .., Sdk.Session.codec.decode_encode rest h⟩
  · refine ⟨shorten ⟨Sdk.Session.discriminator, rfl⟩ session, ?_, rfl, rfl, rfl,
      user_shorten _ session, expiration_shorten _ session, ?_⟩
    · rw [tryDeserialize, hdecode]
      rfl
    · rw [getUserCheckedSystemProgram, checkIsLiveAndUnrevoked_shorten, user_shorten]

theorem tryDeserialize_full_v4 :
    let key (n : UInt8) : Pubkey := ⟨List.replicate 32 n, rfl⟩
    let session : Sdk.Session := ⟨key 1, 0, .v4 (.active ⟨key 2,
      ⟨key 3, 100, .specific [⟨key 4, key 5⟩], .specific [key 6], [("key", "value")]⟩⟩)⟩
    ∃ body, Sdk.Session.codec.encode session = .ok body ∧
      ∃ short, tryDeserialize (Sdk.Session.discriminator ++ body ++ [7]) = .ok short ∧
        short.user = .ok (key 3) ∧ short.getUserCheckedSystemProgram 100 = .ok (key 3) := by
  intro key session
  obtain ⟨body, hbody⟩ : ∃ body, Sdk.Session.codec.encode session = .ok body := ⟨_, rfl⟩
  obtain ⟨-, short, hshort, -, -, -, huser, -, hchecked⟩ := tryDeserialize_full hbody [7] 100
  refine ⟨body, hbody, short, hshort, huser, hchecked.trans ?_⟩
  decide

end Session

end FogoSessions.Sdk.SystemProgram
