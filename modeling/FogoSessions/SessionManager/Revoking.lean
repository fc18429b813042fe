import FogoSessions.SessionManager.Effects
import FogoSessions.Solana.Native
import FogoSessions.Solana.Replay

/-!
# Revoking and closing

What `revoke_session` keeps of a session and where the lamports go, and what it takes to close a
session before and after it is revoked.
-/

namespace FogoSessions.SessionManager

open Lib Solana Sdk

/-! ## What is kept -/

/-- The number of the variant, which is the minor version. -/
def minor : SessionInfo → Nat
  | .invalid => 0
  | .v1 _ => 1
  | .v2 _ => 2
  | .v3 _ => 3
  | .v4 _ => 4

/-- The user and the mints, in the versions that store the mints. -/
def delegation? : SessionInfo → Option (Pubkey × AuthorizedTokensWithMints)
  | .v3 (.active info) => some (info.user, info.authorizedTokens)
  | .v3 (.revoked info) => some (info.user, info.authorizedTokensWithMints)
  | .v4 (.active info) => some (info.activeSessionInfo.user, info.activeSessionInfo.authorizedTokens)
  | .v4 (.revoked info) => some (info.user, info.authorizedTokensWithMints)
  | _ => none

/-- The session is refused wherever a session that is not revoked is asked for. -/
structure Refused (session : Session) : Prop where
  checkIsUnrevoked : session.checkIsUnrevoked = .error .revoked
  getUserChecked : ∀ programId now user, session.getUserChecked programId now ≠ .ok user
  getDomainHashChecked : ∀ now hash, session.getDomainHashChecked now ≠ .ok hash
  getExtra : ∀ key now value, session.getExtra key now ≠ .ok value

/-- The second session is the first one, revoked. -/
structure Revokes (session session' : Session) : Prop where
  sponsor : session'.sponsor = session.sponsor
  major : session'.major = session.major
  minor : minor session'.sessionInfo = minor session.sessionInfo
  expiration : session'.expiration = session.expiration
  delegation : delegation? session'.sessionInfo = delegation? session.sessionInfo
  refused : Refused session'

theorem refused_of_revoked {session : Session} (h : session.checkIsUnrevoked = .error .revoked) :
    Refused session := by
  have hlive (now : UnixTimestamp) (r : Unit) : session.checkIsLiveAndUnrevoked now ≠ .ok r := by
    intro hok
    obtain ⟨hunrevoked, -⟩ := Session.checkIsLiveAndUnrevoked_eq_ok hok
    rw [h] at hunrevoked
    cases hunrevoked
  refine ⟨h, ?_, ?_, ?_⟩
  · intro programId now user hok
    obtain ⟨r, hcheck, -⟩ := bind_eq_ok.1 hok
    exact hlive now r hcheck
  · intro now hash hok
    obtain ⟨r, hcheck, -⟩ := bind_eq_ok.1 hok
    exact hlive now r hcheck
  · intro key now value hok
    obtain ⟨r, hcheck, -⟩ := bind_eq_ok.1 hok
    exact hlive now r hcheck

/-- Versions 2, 3 and 4 are revoked, and the others are not. -/
theorem revokedInfo_isOk {info : SessionInfo} :
    (∃ info', revokedInfo info = .ok info') ↔ 2 ≤ minor info := by
  cases info with
  | invalid => simp [revokedInfo, minor]
  | v1 info => simp [revokedInfo, minor]
  | v2 info => cases info <;> simp [revokedInfo, minor]
  | v3 info => cases info <;> simp [revokedInfo, minor]
  | v4 info => cases info <;> simp [revokedInfo, minor]

theorem revokes_of_revokedInfo {session : Session} {info : SessionInfo}
    (h : revokedInfo session.sessionInfo = .ok info) :
    Revokes session { session with sessionInfo := info } := by
  obtain ⟨sponsor, major, sessionInfo⟩ := session
  change revokedInfo sessionInfo = .ok info at h
  have hrevoked : Session.checkIsUnrevoked ⟨sponsor, major, info⟩ = .error .revoked := by
    unfold revokedInfo at h
    split at h <;> cases h <;> rfl
  refine ⟨rfl, rfl, ?_, ?_, ?_, refused_of_revoked hrevoked⟩ <;>
  · unfold revokedInfo at h
    split at h <;> cases h <;> rfl

/-- What is revoked stays as it is. -/
theorem revokedInfo_idem {info info' : SessionInfo} (h : revokedInfo info = .ok info') :
    revokedInfo info' = .ok info' := by
  unfold revokedInfo at h
  split at h <;> cases h <;> rfl

/-! ## How much room it takes -/

theorem activeSessionInfo_length {T : Type} {tokens : Codec T} {info : ActiveSessionInfo T}
    {bs : Bytes} (h : (ActiveSessionInfo.codec tokens).encode info = .ok bs) :
    ∃ ts, tokens.encode info.authorizedTokens = .ok ts ∧ 40 + ts.length ≤ bs.length := by
  simp only [ActiveSessionInfo.codec, Codec.iso, Codec.pair_encode_eq_ok, Codec.fixed_encode_eq_ok,
    Codec.i64_encode_eq_ok] at h
  obtain ⟨_, rfl, _, ⟨_, rfl, _, ⟨ps, -, _, ⟨ts, hts, es, -, rfl⟩, rfl⟩, rfl⟩, rfl⟩ := h
  refine ⟨ts, hts, ?_⟩
  simp only [List.length_append, FixedBytes.length_eq, length_leBytes]
  omega

theorem revokedSessionInfo_encode {tokens : AuthorizedTokensWithMints} {ts : Bytes}
    (h : AuthorizedTokensWithMints.codec.encode tokens = .ok ts) (user : Pubkey)
    (expiration : UnixTimestamp) :
    ∃ bs, RevokedSessionInfo.codec.encode ⟨user, expiration, tokens⟩ = .ok bs ∧
      bs.length = 40 + ts.length := by
  simp only [RevokedSessionInfo.codec, Codec.iso, Codec.pair_encode_eq_ok, Codec.fixed_encode_eq_ok,
    Codec.i64_encode_eq_ok]
  refine ⟨_, ⟨_, rfl, _, ⟨_, rfl, ts, h, rfl⟩, rfl⟩, ?_⟩
  simp only [List.length_append, FixedBytes.length_eq, length_leBytes]
  omega

/-- The tag of the version, the tag of the state, and the fields. -/
theorem tagged_eq_ok {version state : UInt8} {fields : Except IoError Bytes} {bs : Bytes} :
    ((version :: ·) <$> (state :: ·) <$> fields) = .ok bs ↔
      ∃ xs, fields = .ok xs ∧ version :: state :: xs = bs := by
  simp only [map_eq_ok]
  constructor
  · rintro ⟨_, ⟨xs, hxs, rfl⟩, rfl⟩
    exact ⟨xs, hxs, rfl⟩
  · rintro ⟨xs, hxs, rfl⟩
    exact ⟨_, ⟨xs, hxs, rfl⟩, rfl⟩

/-- The revoked form takes no more room. -/
theorem revokedInfo_encode {info info' : SessionInfo} {bs : Bytes}
    (h : revokedInfo info = .ok info') (hbs : SessionInfo.codec.encode info = .ok bs) :
    ∃ bs', SessionInfo.codec.encode info' = .ok bs' ∧ bs'.length ≤ bs.length := by
  unfold revokedInfo at h
  split at h
  · cases h
  · cases h
  · cases h
    obtain ⟨xs, hxs, rfl⟩ := tagged_eq_ok.1 hbs
    obtain ⟨ts, -, hle⟩ := activeSessionInfo_length hxs
    refine ⟨_, tagged_eq_ok.2 ⟨_, rfl, rfl⟩, ?_⟩
    simp only [List.length_cons, length_leBytes]
    omega
  · cases h
    exact ⟨bs, hbs, Nat.le_refl _⟩
  · cases h
    obtain ⟨xs, hxs, rfl⟩ := tagged_eq_ok.1 hbs
    obtain ⟨ts, hts, hle⟩ := activeSessionInfo_length hxs
    obtain ⟨ys, hys, hlength⟩ := revokedSessionInfo_encode hts _ _
    refine ⟨_, tagged_eq_ok.2 ⟨ys, hys, rfl⟩, ?_⟩
    simp only [List.length_cons]
    omega
  · cases h
    exact ⟨bs, hbs, Nat.le_refl _⟩
  · cases h
    obtain ⟨xs, hxs, rfl⟩ := tagged_eq_ok.1 hbs
    simp only [ActiveSessionInfoWithDomainHash.codec, Codec.iso, Codec.pair_encode_eq_ok] at hxs
    obtain ⟨hash, -, zs, hzs, rfl⟩ := hxs
    obtain ⟨ts, hts, hle⟩ := activeSessionInfo_length hzs
    obtain ⟨ys, hys, hlength⟩ := revokedSessionInfo_encode hts _ _
    refine ⟨_, tagged_eq_ok.2 ⟨ys, hys, rfl⟩, ?_⟩
    simp only [List.length_cons, List.length_append]
    omega
  · cases h
    exact ⟨bs, hbs, Nat.le_refl _⟩

theorem revoked_encode {session : Session} {info : SessionInfo} {bs : Bytes}
    (h : revokedInfo session.sessionInfo = .ok info) (hbs : Session.codec.encode session = .ok bs) :
    ∃ bs', Session.codec.encode { session with sessionInfo := info } = .ok bs' ∧
      bs'.length ≤ bs.length := by
  simp only [Session.codec, Codec.iso, Codec.pair_encode_eq_ok] at hbs ⊢
  obtain ⟨sponsor, hsponsor, _, ⟨major, hmajor, xs, hxs, rfl⟩, rfl⟩ := hbs
  obtain ⟨ys, hys, hle⟩ := revokedInfo_encode h hxs
  refine ⟨_, ⟨sponsor, hsponsor, _, ⟨major, hmajor, ys, hys, rfl⟩, rfl⟩, ?_⟩
  simp only [List.length_append]
  omega

/-! ## The ledger -/

/-- The account stores the session; what follows it there is ignored. -/
structure Stored (l : Ledger) (key : Pubkey) (session : Session) : Prop where
  owner_eq : (l key).owner = ProgramIds.sessionManager
  data_eq : ∃ bytes rest, Session.codec.encode session = .ok bytes ∧
    (l key).data = Session.discriminator ++ (bytes ++ rest)

variable {l l' : Ledger} {key sponsor : Pubkey}

theorem Stored.loadSession [Addressing] {session : Session} (h : Stored l key session) :
    loadSession l key = .ok session := by
  obtain ⟨bytes, rest, hbytes, hdata⟩ := h.data_eq
  have howned : (Anchor.owned l key ProgramIds.sessionManager : Except Error Bytes) =
      .ok (l key).data := by
    simp only [Anchor.owned, bind_eq_ok, require_eq_ok, pure_eq_ok]
    refine ⟨(), ?_, (), h.owner_eq, trivial⟩
    rintro ⟨howner, -⟩
    exact ProgramIds.sessionManager_ne_systemProgram (h.owner_eq.symm.trans howner)
  refine bind_eq_ok.2 ⟨_, howned, mapErr_eq_ok.2 ?_⟩
  rw [hdata]
  exact Anchor.tryDeserialize_eq_ok.2 ⟨_, rest, rfl, Session.codec.decode_encode rest hbytes⟩

theorem sessionLen_of_encode {session : Session} {bytes : Bytes}
    (h : Session.codec.encode session = .ok bytes) : sessionLen session = .ok (8 + bytes.length) := by
  simp only [sessionLen, bind_eq_ok, mapErr_eq_ok, pure_eq_ok]
  exact ⟨bytes, h, rfl⟩

/-- What is revoked has room where it is stored. -/
theorem Stored.room {session : Session} (h : Stored l key session) {info : SessionInfo} {bytes : Bytes}
    (hinfo : revokedInfo session.sessionInfo = .ok info)
    (hbytes : Session.codec.encode { session with sessionInfo := info } = .ok bytes) :
    8 + bytes.length ≤ (l key).data.length := by
  obtain ⟨bytes₀, trailing, hbytes₀, hdata⟩ := h.data_eq
  obtain ⟨bytes', hbytes', hle⟩ := revoked_encode hinfo hbytes₀
  rw [hbytes] at hbytes'
  cases hbytes'
  have hdiscriminator : Session.discriminator.length = 8 := rfl
  rw [hdata, List.length_append, List.length_append]
  omega

/-- A session that is written over data of its length is all of the data. -/
theorem storeSession_of_length {session : Session} {bytes : Bytes}
    (hbytes : Session.codec.encode session = .ok bytes)
    (hlength : (l key).data.length = 8 + bytes.length) :
    storeSession l key session = .ok (l.setData key (Session.discriminator ++ bytes)) := by
  have hdiscriminator : Session.discriminator.length = 8 := rfl
  have hfits : (Session.discriminator ++ bytes).length ≤ (l key).data.length := by
    rw [List.length_append]
    omega
  have hdrop : (l key).data.drop (Session.discriminator ++ bytes).length = [] := by
    apply List.drop_eq_nil_of_le
    rw [List.length_append]
    omega
  refine bind_eq_ok.2 ⟨Session.discriminator ++ bytes, mapErr_eq_ok.2 ?_, rfl⟩
  simp only [Anchor.trySerialize, hbytes, mapErr, Bind.bind, Except.bind, require, if_pos hfits, hdrop,
    List.append_nil]
  rfl

section

variable [SystemProgram]

/-- The lamports of the session beyond the rent. -/
def excess (l : Ledger) (key : Pubkey) (len : Nat) : Nat :=
  (l key).lamports - SystemProgram.minimumBalance len

/-- The session's account has the given length, and the sponsor its lamports beyond the rent. -/
def refunded (l : Ledger) (key sponsor : Pubkey) (len : Nat) : Ledger :=
  ((l.setData key ((l key).data.take len ++ zeros (len - (l key).data.length))).setLamports key
      (min (l key).lamports (SystemProgram.minimumBalance len))).setLamports sponsor
    ((l sponsor).lamports + excess l key len)

omit [SystemProgram] in
theorem setLamports_self {lamports : Nat} (h : lamports = (l key).lamports) :
    l.setLamports key lamports = l := by
  subst h
  exact Function.update_eq_self key l

theorem reallocateAndRefundRent_iff {session : Session} {n : Nat}
    (hlen : sessionLen session = .ok n) (hne : sponsor ≠ key)
    (howner : (l key).owner = ProgramIds.sessionManager) (hroom : n ≤ (l key).data.length) :
    reallocateAndRefundRent l key sponsor session = .ok l' ↔
      (0 < excess l key n → (l sponsor).lamports + excess l key n ≤ u64Max) ∧
        l' = refunded l key sponsor n := by
  have hrealloc : (Anchor.realloc ProgramIds.sessionManager l key n : Except Error Ledger) =
      .ok (l.setData key ((l key).data.take n ++ zeros (n - (l key).data.length))) := by
    simp only [Anchor.realloc, bind_eq_ok, require_eq_ok, pure_eq_ok]
    exact ⟨(), howner, (), by omega, trivial⟩
  have hsponsor {data : Bytes} {lamports : Nat} :
      ((l.setData key data).setLamports key lamports sponsor).lamports = (l sponsor).lamports := by
    rw [Ledger.setLamports_of_ne hne, Ledger.setData_lamports]
  simp only [reallocateAndRefundRent, bind_eq_ok, hlen, Except.ok.injEq, exists_eq_left']
  rw [hrealloc]
  simp only [Except.ok.injEq, exists_eq_left', Ledger.setData_lamports, hsponsor]
  by_cases hlt : SystemProgram.minimumBalance n < (l key).lamports
  · have hpos : 0 < excess l key n := Nat.sub_pos_of_lt hlt
    have hmin := Nat.min_eq_right hlt.le
    rw [if_pos hlt, bind_eq_ok, refunded, hmin]
    simp only [require_eq_ok, pure_eq_ok]
    constructor
    · rintro ⟨-, hfits, rfl⟩
      exact ⟨fun _ => hfits, rfl⟩
    · rintro ⟨hfits, rfl⟩
      exact ⟨(), hfits hpos, rfl⟩
  · have hexcess : excess l key n = 0 := Nat.sub_eq_zero_of_le (Nat.le_of_not_lt hlt)
    have hmin := Nat.min_eq_left (Nat.le_of_not_lt hlt)
    rw [if_neg hlt, pure_eq_ok, refunded, hexcess, hmin,
      setLamports_self (by rw [hsponsor, Nat.add_zero]), setLamports_self (Ledger.setData_lamports).symm]
    constructor
    · rintro rfl
      exact ⟨fun h => absurd h (Nat.lt_irrefl 0), rfl⟩
    · rintro ⟨-, rfl⟩
      rfl

theorem length_refunded (sponsor : Pubkey) {n : Nat} (hroom : n ≤ (l key).data.length) :
    (refunded l key sponsor n key).data.length = n := by
  rw [refunded, Ledger.setLamports_data, Ledger.setLamports_data, Ledger.setData_same,
    List.length_append, List.length_take, zeros, List.length_replicate]
  omega

/-- The sponsor can hold what it gets back. -/
def Fits (l : Ledger) (key sponsor : Pubkey) (len : Nat) : Prop :=
  0 < excess l key len → (l sponsor).lamports + excess l key len ≤ u64Max

/-- The ledger with the session in its account. -/
def settled (l : Ledger) (key sponsor : Pubkey) (bytes : Bytes) : Ledger :=
  (refunded l key sponsor (8 + bytes.length)).setData key (Session.discriminator ++ bytes)

theorem settle_iff {session : Session} {bytes : Bytes}
    (hbytes : Session.codec.encode session = .ok bytes) (hne : sponsor ≠ key)
    (howner : (l key).owner = ProgramIds.sessionManager)
    (hroom : 8 + bytes.length ≤ (l key).data.length) :
    (∃ l₁, reallocateAndRefundRent l key sponsor session = .ok l₁ ∧
      storeSession l₁ key session = .ok l') ↔
      Fits l key sponsor (8 + bytes.length) ∧ l' = settled l key sponsor bytes := by
  have hstore := storeSession_of_length hbytes (length_refunded sponsor hroom)
  simp only [reallocateAndRefundRent_iff (sessionLen_of_encode hbytes) hne howner hroom]
  constructor
  · rintro ⟨_, ⟨hfits, rfl⟩, h⟩
    rw [hstore] at h
    exact ⟨hfits, (Except.ok.inj h).symm⟩
  · rintro ⟨hfits, rfl⟩
    exact ⟨_, ⟨hfits, rfl⟩, hstore⟩

/-- What `revoke_session` leaves on the ledger, of a session that takes `len` bytes now. -/
structure Settled (l l' : Ledger) (key sponsor : Pubkey) (len : Nat) : Prop where
  session_length : (l' key).data.length = len
  session_lamports :
    (l' key).lamports = min (l key).lamports (SystemProgram.minimumBalance len)
  total : (l' key).lamports + (l' sponsor).lamports = (l key).lamports + (l sponsor).lamports
  sponsor_content : (l' sponsor).owner = (l sponsor).owner ∧ (l' sponsor).data = (l sponsor).data
  others : ∀ other, other ≠ key → other ≠ sponsor → l' other = l other

theorem settled_refunded {n : Nat} {data : Bytes} (hne : sponsor ≠ key) (hdata : data.length = n) :
    Settled l ((refunded l key sponsor n).setData key data) key sponsor n := by
  have hkey : (refunded l key sponsor n key).lamports =
      min (l key).lamports (SystemProgram.minimumBalance n) := by
    rw [refunded, Ledger.setLamports_of_ne hne.symm, Ledger.setLamports_same]
  have hsponsor : (refunded l key sponsor n sponsor).lamports =
      (l sponsor).lamports + excess l key n := by
    rw [refunded, Ledger.setLamports_same]
  refine ⟨?_, ?_, ?_, ?_, ?_⟩
  · rw [Ledger.setData_same, hdata]
  · rw [Ledger.setData_lamports, hkey]
  · rw [Ledger.setData_lamports, Ledger.setData_lamports, hkey, hsponsor, excess]
    omega
  · rw [Ledger.setData, Ledger.set_of_ne hne, refunded, Ledger.setLamports_owner,
      Ledger.setLamports_owner, Ledger.setData_owner, Ledger.setLamports_data,
      Ledger.setLamports_data, Ledger.setData, Ledger.set_of_ne hne]
    exact ⟨rfl, rfl⟩
  · intro other hkey hsponsor
    rw [Ledger.setData, Ledger.set_of_ne hkey, refunded, Ledger.setLamports_of_ne hsponsor,
      Ledger.setLamports_of_ne hkey, Ledger.setData, Ledger.set_of_ne hkey]

/-! ## The instruction -/

/-- The accounts pass their checks. -/
structure Accepted (session sponsor systemProgram : AccountMeta) (value : Session) : Prop where
  systemProgram : systemProgram.pubkey = Ids.systemProgram
  session_writable : session.isWritable = true
  session_signer : session.isSigner = true
  sponsor_writable : sponsor.isWritable = true
  sponsor_eq : value.sponsor = sponsor.pubkey

variable [Addressing] {session sponsorAccount systemProgram : AccountMeta} {rest : List AccountMeta}

theorem revokeSession_iff {value : Session} (hstored : Stored l session.pubkey value)
    (hne : sponsorAccount.pubkey ≠ session.pubkey) :
    revokeSession (session :: sponsorAccount :: systemProgram :: rest) l = .ok l' ↔
      Accepted session sponsorAccount systemProgram value ∧
        ∃ info, revokedInfo value.sessionInfo = .ok info ∧
          ∃ bytes, Session.codec.encode { value with sessionInfo := info } = .ok bytes ∧
            Fits l session.pubkey sponsorAccount.pubkey (8 + bytes.length) ∧
            l' = settled l session.pubkey sponsorAccount.pubkey bytes := by
  obtain ⟨bytes₀, trailing, hbytes₀, hdata⟩ := hstored.data_eq
  simp only [revokeSession, bind_eq_ok, hstored.loadSession, Anchor.program, Anchor.writable,
    Anchor.signerConstraint, require_eq_ok]
  constructor
  · rintro ⟨_, ⟨⟩, -, hprogram, -, hwritable, -, hsigner, -, hsponsor, -, heq, info, hinfo, h⟩
    obtain ⟨bytes, hbytes, -⟩ := revoked_encode hinfo hbytes₀
    exact ⟨⟨hprogram, hwritable, hsigner, hsponsor, heq⟩, info, hinfo, bytes, hbytes,
      (settle_iff hbytes hne hstored.owner_eq (hstored.room hinfo hbytes)).1 h⟩
  · rintro ⟨haccepted, info, hinfo, bytes, hbytes, h⟩
    exact ⟨value, rfl, (), haccepted.systemProgram, (), haccepted.session_writable, (),
      haccepted.session_signer, (), haccepted.sponsor_writable, (), haccepted.sponsor_eq, info, hinfo,
      (settle_iff hbytes hne hstored.owner_eq (hstored.room hinfo hbytes)).2 h⟩

omit [SystemProgram] [Addressing] in
theorem setData_self {data : Bytes} (h : data = (l key).data) : l.setData key data = l := by
  subst h
  exact Function.update_eq_self key l

omit [Addressing] in
/-- A session that has its room and no excess is settled. -/
theorem settled_eq_self {bytes : Bytes} (hdata : (l key).data = Session.discriminator ++ bytes)
    (hlamports : (l key).lamports ≤ SystemProgram.minimumBalance (8 + bytes.length)) :
    settled l key sponsor bytes = l := by
  have hlength : (l key).data.length = 8 + bytes.length := by
    rw [hdata, List.length_append]
    rfl
  have hexcess : excess l key (8 + bytes.length) = 0 := Nat.sub_eq_zero_of_le hlamports
  have hkept : (l key).data.take (8 + bytes.length) ++ zeros (8 + bytes.length - (l key).data.length) =
      (l key).data := by
    rw [hlength, Nat.sub_self, ← hlength, List.take_length]
    exact List.append_nil _
  rw [settled, refunded, setData_self hkept, Nat.min_eq_left hlamports, setLamports_self rfl, hexcess,
    Nat.add_zero, setLamports_self rfl, setData_self hdata.symm]

omit [Addressing] in
theorem stored_settled {value : Session} {info : SessionInfo} {bytes : Bytes}
    (hstored : Stored l key value)
    (hbytes : Session.codec.encode { value with sessionInfo := info } = .ok bytes) :
    Stored (settled l key sponsor bytes) key { value with sessionInfo := info } := by
  refine ⟨?_, bytes, [], hbytes, ?_⟩
  · rw [settled, Ledger.setData_owner, refunded, Ledger.setLamports_owner, Ledger.setLamports_owner,
      Ledger.setData_owner, hstored.owner_eq]
  · rw [settled, Ledger.setData_same, List.append_nil]

/-- **Revoking is clean and idempotent**: versions before 2 are not revoked; the others are, whenever
    the accounts pass and the sponsor can hold the refund, and revoking again changes nothing. -/
theorem revokeSession_clean {value : Session} (rest : List AccountMeta)
    (hstored : Stored l session.pubkey value) (hne : sponsorAccount.pubkey ≠ session.pubkey) :
    (minor value.sessionInfo < 2 →
      ∀ l', revokeSession (session :: sponsorAccount :: systemProgram :: rest) l ≠ .ok l') ∧
    (2 ≤ minor value.sessionInfo → ∃ value' len len',
      Revokes value value' ∧ sessionLen value = .ok len ∧ sessionLen value' = .ok len' ∧
        len' ≤ len ∧
      ((∃ l', revokeSession (session :: sponsorAccount :: systemProgram :: rest) l = .ok l') ↔
        Accepted session sponsorAccount systemProgram value ∧
          Fits l session.pubkey sponsorAccount.pubkey len') ∧
      ∀ l', revokeSession (session :: sponsorAccount :: systemProgram :: rest) l = .ok l' →
        Stored l' session.pubkey value' ∧
          Settled l l' session.pubkey sponsorAccount.pubkey len' ∧
          revokeSession (session :: sponsorAccount :: systemProgram :: rest) l' = .ok l') := by
  constructor
  · intro hminor l' h
    obtain ⟨-, info, hinfo, -⟩ := (revokeSession_iff hstored hne).1 h
    have hle := revokedInfo_isOk.1 ⟨info, hinfo⟩
    omega
  · intro hminor
    obtain ⟨info, hinfo⟩ := revokedInfo_isOk.2 hminor
    obtain ⟨bytes₀, trailing, hbytes₀, -⟩ := hstored.data_eq
    obtain ⟨bytes, hbytes, hle⟩ := revoked_encode hinfo hbytes₀
    have hrun {l' : Ledger} :
        revokeSession (session :: sponsorAccount :: systemProgram :: rest) l = .ok l' ↔
          Accepted session sponsorAccount systemProgram value ∧
            Fits l session.pubkey sponsorAccount.pubkey (8 + bytes.length) ∧
            l' = settled l session.pubkey sponsorAccount.pubkey bytes := by
      rw [revokeSession_iff hstored hne]
      simp only [hinfo, Except.ok.injEq, exists_eq_left', hbytes]
    refine ⟨{ value with sessionInfo := info }, 8 + bytes₀.length, 8 + bytes.length,
      revokes_of_revokedInfo hinfo, sessionLen_of_encode hbytes₀, sessionLen_of_encode hbytes,
      Nat.add_le_add_left hle 8, ?_, ?_⟩
    · simp only [hrun]
      constructor
      · rintro ⟨_, haccepted, hfits, -⟩
        exact ⟨haccepted, hfits⟩
      · rintro ⟨haccepted, hfits⟩
        exact ⟨_, haccepted, hfits, rfl⟩
    · intro l' h
      obtain ⟨haccepted, -, rfl⟩ := hrun.1 h
      have hsettled : Settled l (settled l session.pubkey sponsorAccount.pubkey bytes) session.pubkey
          sponsorAccount.pubkey (8 + bytes.length) := by
        refine settled_refunded hne ?_
        rw [List.length_append]
        rfl
      have hdata : (settled l session.pubkey sponsorAccount.pubkey bytes session.pubkey).data =
          Session.discriminator ++ bytes := Ledger.setData_same
      have hstored' : Stored (settled l session.pubkey sponsorAccount.pubkey bytes) session.pubkey
          { value with sessionInfo := info } := stored_settled hstored hbytes
      have hpoor := hsettled.session_lamports ▸ Nat.min_le_right _ _
      refine ⟨hstored', hsettled, (revokeSession_iff hstored' hne).2 ⟨⟨haccepted.systemProgram,
        haccepted.session_writable, haccepted.session_signer, haccepted.sponsor_writable,
        haccepted.sponsor_eq⟩, info, revokedInfo_idem hinfo, bytes, hbytes, ?_, ?_⟩⟩
      · intro hpos
        exact absurd (Nat.sub_eq_zero_of_le hpoor) (Nat.ne_of_gt hpos)
      · exact (settled_eq_self hdata hpoor).symm

end

namespace Sample

def sponsorKey : Pubkey := .ofNat 2
def userKey : Pubkey := .ofNat 3
def sessionKey : Pubkey := .ofNat 4
def mintKey : Pubkey := .ofNat 5
def userToken : Pubkey := .ofNat 6
def sessionSetter : Pubkey := .ofNat 7

/-- The addresses of a chain with one user of one token. -/
def book : AddressBook where
  hashes := []
  wallets := [sponsorKey, userKey, sessionKey, mintKey]
  derived := [
    (([sessionSetterSeed], ProgramIds.sessionManager), sessionSetter, 255),
    (([userKey.bytes, Ids.tokenProgram.bytes, mintKey.bytes], Ids.associatedTokenProgram), userToken,
      255)]
  other := .ofNat 8
  derived_off_curve := by decide +kernel
  other_off_curve := by decide +kernel

scoped instance : Addressing := book.addressing
scoped instance : SystemProgram := Native.systemProgram
scoped instance : TokenProgram := Native.tokenProgram

/-- A session of version 4 that may spend one token. -/
def session : Session where
  sponsor := sponsorKey
  major := 0
  sessionInfo := .v4 (.active {
    domainHash := .ofNat 9
    activeSessionInfo := {
      user := userKey
      expiration := 86400
      authorizedPrograms := .all
      authorizedTokens := .specific [mintKey]
      extra := [] } })

/-- A session of version 2 that may spend any token. -/
def unlimited : Session where
  sponsor := sponsorKey
  major := 0
  sessionInfo := .v2 (.active {
    user := userKey
    expiration := 86400
    authorizedPrograms := .all
    authorizedTokens := .all
    extra := [] })

/-- The account of a session. -/
def sessionData (session : Session) : Bytes :=
  Session.discriminator ++ (Session.codec.encode session).toOption.getD []

/-- The ledger while the session is the user's delegate. -/
def ledger (session : Session) : Ledger := .ofList [
  (sponsorKey, ⟨10000000000, Ids.systemProgram, []⟩),
  (sessionKey, ⟨10000000, ProgramIds.sessionManager, sessionData session⟩),
  (userToken, ⟨2039280, Ids.tokenProgram,
    mintKey.bytes ++ userKey.bytes ++ leBytes 8 5000000 ++ [1, 0, 0, 0] ++ sessionKey.bytes ++ [1] ++
      zeros 12 ++ leBytes 8 1500000 ++ zeros 36⟩)]

def sessionAccount : AccountMeta := ⟨sessionKey, true, true⟩
def sponsorAccount : AccountMeta := ⟨sponsorKey, false, true⟩
def systemAccount : AccountMeta := ⟨Ids.systemProgram, false, false⟩

theorem stored : Stored (ledger session) sessionKey session :=
  ⟨by decide +kernel, _, [], rfl, by decide +kernel⟩

theorem accepted (session : Session) (h : session.sponsor = sponsorKey) :
    Accepted sessionAccount sponsorAccount systemAccount session :=
  ⟨rfl, rfl, rfl, rfl, h⟩

end Sample

open Sample in
theorem revokeSession_clean_sample : ∃ l' value' len, Revokes Sample.session value' ∧
    revokeSession [sessionAccount, Sample.sponsorAccount, systemAccount] (ledger Sample.session) =
      .ok l' ∧
    Stored l' sessionKey value' ∧ Settled (ledger Sample.session) l' sessionKey sponsorKey len := by
  have hne : sponsorKey ≠ sessionKey := by decide
  obtain ⟨-, hclean⟩ := @revokeSession_clean _ _ _ sessionAccount Sample.sponsorAccount systemAccount _
    [] stored hne
  obtain ⟨value', len, len', hrevokes, -, -, -, hiff, hafter⟩ := hclean (by decide)
  have hsession : (ledger Sample.session sessionKey).lamports = 10000000 := by decide +kernel
  have hsponsor : (ledger Sample.session sponsorKey).lamports = 10000000000 := by decide +kernel
  have hfits : Fits (ledger Sample.session) sessionKey sponsorKey len' := by
    intro _
    have hle : excess (ledger Sample.session) sessionKey len' ≤ 10000000 :=
      hsession ▸ Nat.sub_le _ _
    rw [hsponsor, u64Max]
    omega
  obtain ⟨l', hl'⟩ := hiff.2 ⟨accepted Sample.session rfl, hfits⟩
  obtain ⟨hstored, hsettled, -⟩ := hafter l' hl'
  exact ⟨l', value', len', hrevokes, hl', hstored, hsettled⟩

end FogoSessions.SessionManager
