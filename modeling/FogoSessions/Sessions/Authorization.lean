import FogoSessions.Intents.Verified
import FogoSessions.Sessions.Lifecycle
import FogoSessions.Solana.Native
import FogoSessions.Solana.Replay

/-!
# Who a session acts for

A session that a program accepts was started from an intent the user signed, within the intent's
bounds, and was not revoked since.
-/

namespace FogoSessions.Sessions

open Lib Solana Sdk Intents DomainRegistry SessionManager

section

variable [Ed25519] [LegacyOffchain]

/-- The instruction right before the current one carries this message with a valid signature of the
    user's. -/
def SignedBy {M : Type} (parse : Bytes → Except Unit M) (user : Pubkey) (ctx : Context)
    (content : M) : Prop :=
  ∃ ix bytes signature m, precedingInstruction ctx.instructions ctx.index = some ix ∧
    ix.programId = Ids.ed25519Program ∧ Ed25519.verifyStrict user bytes signature = true ∧
    Intents.Message.deserialize bytes = .ok m ∧ parse m.toVec = .ok content

/-- An intent that is loaded in a transaction that went through was signed by its signer. -/
theorem load_signedBy {M : Type} {parse : Bytes → Except Unit M} {ctx : Context} {intent : Intent M}
    (hverified : Verified ctx.instructions)
    (h : Intent.load parse ctx.instructions ctx.index = .ok intent) :
    SignedBy parse intent.signer ctx intent.message := by
  simp only [Intent.load, bind_eq_ok, okOr_eq_ok] at h
  obtain ⟨ix, hix, htry⟩ := h
  obtain ⟨hid, offsets, bytes, m, hdeclares, hm, hparse⟩ := tryFrom_declares htry
  obtain ⟨signature, -, hverify⟩ :=
    (hdeclares.verify_iff _).1 (hverified ix (mem_of_precedingInstruction hix) hid)
  exact ⟨ix, bytes, signature, m, hix, hid, hverify, hm, hparse⟩

end

section

variable [Addressing] [SystemProgram] [TokenProgram] [TokenMetadata] [Chrono] [LegacyOffchain]
  [Ed25519]

/-- The event started a session on `key` from this intent. -/
def StartsFrom (key : Pubkey) (intent : Intent SessionManager.Message) (e : Event) : Prop :=
  IsStart key e ∧ Intent.load Message.tryFrom e.context.instructions e.context.index = .ok intent

/-- The domains that occur in a history: in the arguments of the registry and in the intents. -/
def domainsOf (log : List Event) : Set String :=
  { domain | ∃ e ∈ log, Touches domain e ∨
    ∃ key intent, StartsFrom key intent e ∧ intent.message.domain = domain }

/-- The user allowed the program to act, at the event `e` that `older` came before, until `now` at
    least. -/
structure Authorized (user key programId : Pubkey) (now : UnixTimestamp) (e : Event)
    (older : List Event) (intent : Intent SessionManager.Message) : Prop where
  starts : StartsFrom key intent e
  signer_eq : intent.signer = user
  signed : SignedBy Message.tryFrom user e.context intent.message
  sessionKey_eq : intent.message.sessionKey = key
  chainId_eq : ChainId.onLedger e.before = some ⟨intent.message.chainId⟩
  expires : now ≤ intent.message.expires.timestamp
  duration : now.toInt ≤ e.context.now.toInt + 8 * 24 * 60 * 60
  recorded : ∃ programs,
    (e.before (getDomainRecordAddress intent.message.domain)).data = recordData programs ∧
      programId ∈ programs.map DomainProgram.programId
  registered : IsRegistered intent.message.domain programId older

omit [SystemProgram] [Ed25519] in
/-- The programs of the session are the ones of the domain's record. -/
theorem Starts.recorded {s : Start} {e : Event} (h : Starts s e)
    (hheld : RegistryAccount (getDomainRecordAddress s.intent.message.domain) e.before) :
    ∃ ps, (e.before (getDomainRecordAddress s.intent.message.domain)).data = recordData ps ∧
      s.programs.map AuthorizedProgram.programId = ps.map DomainProgram.programId := by
  obtain ⟨l₁, happrove, hprograms⟩ := h.2.programs_eq
  have hwrites := approveTokens_eq_ok happrove
  simp only [StartSession.getDomainPrograms, bind_eq_ok, require_eq_ok] at hprograms
  obtain ⟨-, haddress, hvec⟩ := hprograms
  obtain ⟨ps, hps, hmap⟩ := ResizableAccountArray.toVec_eq_ok hvec
  rw [haddress] at hps
  have howner : (e.before (getDomainRecordAddress s.intent.message.domain)).owner ≠
      Ids.tokenProgram := by
    rcases hheld.owner with h | ⟨h, -⟩ <;> rw [h] <;> decide
  refine ⟨ps, (hwrites.data_eq howner).symm.trans hps, ?_⟩
  rw [← hmap, List.map_map]
  rfl

/-- The last start of a session that is accepted authorizes the program. -/
theorem Starts.authorized {s : Start} {e : Event} {older : List Event} {w : World}
    {programId user : Pubkey} {now : UnixTimestamp} {D : Set String} (h : Starts s e)
    (he : Invoked programs w e) (hlog : w.log = older) (hrecords : RecordsOk D w)
    (htouches : ∀ x ∈ older, ∀ domain, Touches domain x → domain ∈ D)
    (hdomain : s.intent.message.domain ∈ D)
    (huser : s.session.getUserChecked programId now = .ok user) :
    Authorized user s.accounts.session programId now e older s.intent := by
  obtain ⟨-, ⟨expiration, hexpiration, hle⟩, huser, authorized, hauthorized, hprogram⟩ :=
    Session.getUserChecked_eq_ok huser
  obtain ⟨hexpiration', huser', hauthorized'⟩ := buildSession_eq_ok h.2.session_eq
  rw [hexpiration'] at hexpiration
  rw [huser'] at huser
  rw [hauthorized'] at hauthorized
  cases hexpiration
  cases huser
  cases hauthorized
  obtain ⟨-, -, hchain⟩ := tryAccounts_eq_ok h.2.accounts_eq
  have hrecord : RecordOk s.intent.message.domain older e.before := by
    rw [he.before_eq, ← hlog]
    exact (hrecords (hlog ▸ htouches)).2 _ hdomain
  obtain ⟨ps, hps, hmap⟩ := h.recorded hrecord.held
  have hmem : programId ∈ ps.map DomainProgram.programId := hmap ▸ hprogram _ rfl
  have hduration : s.intent.message.expires.timestamp.toInt ≤
      e.context.now.toInt + maxSessionDuration.toInt :=
    le_trans (Int64.le_iff_toInt_le.1 h.2.expires_le) (toInt_saturatingAddI64_le (by decide))
  exact
    { starts := ⟨h.1, h.2.intent_eq⟩
      signer_eq := rfl
      signed := load_signedBy he.verified h.2.intent_eq
      sessionKey_eq := h.2.sessionKey_eq.symm
      chainId_eq := by rw [hchain, ← h.2.chainId_eq]
      expires := hle
      duration := le_trans (Int64.le_iff_toInt_le.1 hle) hduration
      recorded := ⟨ps, hps, hmem⟩
      registered := (hrecord.registered ps hps programId).1 hmem }

/-- **Session authorization soundness.** Whenever a program accepts a session account for a user, in
    a state of any run, the last `start_session` on the account was authorized by that user: for this
    key, chain, program and time. The session account was not revoked since. -/
theorem getUserChecked_sound {w : World} (hw : Observed programs w)
    (hdistinct : (domainsOf w.log).InjOn getDomainRecordAddress) {key programId user : Pubkey}
    {session : Session} (howner : (w.ledger key).owner = ProgramIds.sessionManager)
    (hsession : Session.tryDeserialize (w.ledger key).data = .ok session)
    (huser : session.getUserChecked programId w.now = .ok user) :
    ∃ newer e older intent, w.log = newer ++ e :: older ∧ (∀ x ∈ newer, ¬ IsRevoke key x) ∧
      Authorized user key programId w.now e older intent := by
  have hstate := sessionsOk_invariant.observed hw key howner
  cases hstate with
  | blank hzero =>
    have hanchor := Anchor.tryDeserialize_eq_ok.2 (Session.tryDeserialize_eq_ok.1 hsession)
    exact absurd hanchor (Anchor.not_tryDeserialize_zero ⟨243, by decide, by decide⟩ hzero)
  | revoked s e older info hs hkey hsince hinfo hholds =>
    rw [hholds.tryDeserialize_eq_ok hsession] at huser
    obtain ⟨hunrevoked, -⟩ := Session.getUserChecked_eq_ok huser
    rw [revokedInfo_not_unrevoked hinfo] at hunrevoked
    cases hunrevoked
  | active s e older hs hkey hsince hholds =>
    rw [hholds.tryDeserialize_eq_ok hsession] at huser
    obtain ⟨newer, hlog, hnewer⟩ := Since.iff_append.1 hsince
    obtain ⟨w', hw', hlog', -, he⟩ := hw.history newer e older hlog
    have hdomain : s.intent.message.domain ∈ domainsOf w.log :=
      ⟨e, hsince.mem, .inr ⟨_, _, ⟨hs.1, hs.2.intent_eq⟩, rfl⟩⟩
    have hauthorized := hs.authorized he hlog' ((recordsOk_invariant hdistinct).observed hw')
      (fun x hx domain ht => ⟨x, hsince.subset hx, .inl ht⟩) hdomain huser
    refine ⟨newer, e, older, s.intent, hlog, fun x hx => (hnewer x hx).2, ?_⟩
    exact hkey ▸ hauthorized

end

/-! ## A run -/

/-- The domains that an event can be about. -/
def domainNames [Chrono] [LegacyOffchain] (e : Event) : List String :=
  (match Args.decode e.instruction.data with
    | .ok (.addProgram domain) | .ok (.removeProgram domain) => [domain]
    | _ => []) ++
  match Intent.load Message.tryFrom e.context.instructions e.context.index with
    | .ok intent => [intent.message.domain]
    | .error _ => []

theorem mem_domainNames [Chrono] [LegacyOffchain] {log : List Event} {domain : String}
    (h : domain ∈ domainsOf log) : ∃ e ∈ log, domain ∈ domainNames e := by
  obtain ⟨e, he, htouches | ⟨key, intent, hstarts, rfl⟩⟩ := h
  · refine ⟨e, he, List.mem_append_left _ ?_⟩
    obtain ⟨programId, hadds | hremoves⟩ := htouches
    · rw [hadds.1.2]
      exact List.mem_singleton_self domain
    · rw [hremoves.1.2]
      exact List.mem_singleton_self domain
  · refine ⟨e, he, List.mem_append_right _ ?_⟩
    rw [hstarts.2]
    exact List.mem_singleton_self _

namespace Sample

def sponsor : Pubkey := .ofNat
  0x4dc21aac8658d938f2f37253691ad8462f8e33b7bb0eea4adb7dd5f4cef993a7
def user : Pubkey := .ofNat
  0x25ed471e101be7fd6c78dc0695323a470f64e09bc5f4e03da483384d8e8b65f7
def session : Pubkey := .ofNat
  0x6011fb8faf1f54d11dcc10a0c702e7f1749a75da1e14d1acf8b5a8f0ce73d121
def mint : Pubkey := .ofNat
  0xa10bba45e70638e3dd380c149cc2674ba21baef56ddbb70da2d4e083c6427c2c
def config : Pubkey := .ofNat
  0xa4b6e4b56e8e56fb58790a5f746634606ce5f33e90705d6da584ce4cd6279dcc
def record : Pubkey := .ofNat
  0x88ee3fd576587d01034d33985a704b890a1c89389b0071ed872fdb584fb01cbb
def tollboothSigner : Pubkey := .ofNat
  0xeb05e3d5b2f89c0dcc1dbc2cb8475a1f31363713b00f66f1e2e3ed107754855b
def chainId : Pubkey := .ofNat
  0xe1d007b79211cb2d932e3c36cd718c97412292ba37e4ea3d10b4a277283e7ace
def sessionSetter : Pubkey := .ofNat
  0x08a577340fc838ab0f0138a6e3a6251ddfe0ed8290b009951a1285735e0143ac
def userToken : Pubkey := .ofNat
  0xcc4d03442ed677db81c3372664085b62eb73f7955e1425219a1cc46171bacffb
def other : Pubkey := .ofNat
  0xf4ba74f1da0688e62469c75cc8892973c54cd0544a4521705cf4622fe56db009
def hash : FixedBytes 32 := .ofNat
  0xedf7f9dc037c77648e18efe31dc7def8b5d944b898ef788f90b95f2273bf7f2e

/-- The addresses of a chain with one domain. -/
def book : AddressBook where
  hashes := [(utf8 "https://app.xyz", hash)]
  wallets := [sponsor, user, session, mint]
  derived := [
    (([configSeed], ProgramIds.domainRegistry), config, 254),
    (([domainRecordSeed, hash.bytes], ProgramIds.domainRegistry), record, 254),
    (([programSignerSeed], ProgramIds.tollbooth), tollboothSigner, 253),
    (([ChainId.seed], ProgramIds.chainId), chainId, 255),
    (([sessionSetterSeed], ProgramIds.sessionManager), sessionSetter, 254),
    (([user.bytes, Ids.tokenProgram.bytes, mint.bytes], Ids.associatedTokenProgram), userToken, 253)]
  other := other
  derived_off_curve := by decide +kernel
  other_off_curve := by decide +kernel

/-- The intent of a session until a certain date. -/
def intentText (expires : String) : String :=
  "Fogo Sessions:\nSigning this intent will allow this app to interact with your on-chain " ++
  "balances. Please make sure you trust this app and the domain in the message matches the " ++
  "domain of the current web application.\n\nversion: 0.4\nchain_id: localnet\n" ++
  "domain: https://app.xyz\nexpires: " ++ expires ++
  "\nsession_key: 7U23VTTj6cRaBfQ4Z8dwM1cBT8UGjskcP3BHqkPt8oXN\ntokens:\n" ++
  "-Bqf1f4YEpkZM8AdqZnEjT1VPcnFGVKpzVoaQkJeP67Ky: 1.5\n"

def firstExpires : String := "1970-01-02T00:00:00.000Z"
def secondExpires : String := "1970-01-03T00:00:00.000Z"

/-- A signature, as its two halves. -/
def halves (r s : FixedBytes 32) : FixedBytes 64 :=
  ⟨r.bytes ++ s.bytes, by simp [r.length_eq, s.length_eq]⟩

def firstSignature : FixedBytes 64 := halves
  (.ofNat 0xeaacf0dc90eaac1b29981d0c3bc1a7f1d6898a4728cc20a648e4697bc35aa8c1)
  (.ofNat 0xa72660f152c52cca1464f93a8396e06fdc9a1f0af59f637200b50f6a6aea8807)
def secondSignature : FixedBytes 64 := halves
  (.ofNat 0x04bbdadc5a8764fefba2b1f851b31c8d0e072759b17c4ba57d4bffc75280b78e)
  (.ofNat 0x3eca4c0d84d22897c622c60304b97a72fe88c92c907842ba486bac3b83205e09)

scoped instance : Addressing := book.addressing
scoped instance : SystemProgram := Native.systemProgram
scoped instance : TokenProgram := Native.tokenProgram
scoped instance : TokenMetadata := ⟨fun _ => none⟩
scoped instance : LegacyOffchain := ⟨fun _ => none⟩
scoped instance : Chrono := ⟨fun s =>
  if s = firstExpires then some ⟨86400⟩ else if s = secondExpires then some ⟨172800⟩ else none⟩
scoped instance : Ed25519 := ⟨fun key message signature =>
  (key, message, signature) = (user, utf8 (intentText firstExpires), firstSignature) ∨
  (key, message, signature) = (user, utf8 (intentText secondExpires), secondSignature)⟩

/-- What is on the ledger before the programs run. -/
def accounts : List (Pubkey × Account) := [
  (sponsor, ⟨10000000000, Ids.systemProgram, []⟩),
  (chainId, ⟨1002240, ProgramIds.chainId, ChainId.discriminator ++ [8, 0, 0, 0] ++ utf8 "localnet"⟩),
  (mint, ⟨1461600, Ids.tokenProgram, zeros 44 ++ [6, 1] ++ zeros 36⟩),
  (userToken, ⟨2039280, Ids.tokenProgram,
    mint.bytes ++ user.bytes ++ leBytes 8 5000000 ++ zeros 36 ++ [1] ++ zeros 56⟩)]

def signer (pubkey : Pubkey) : AccountMeta := ⟨pubkey, true, true⟩
def writable (pubkey : Pubkey) : AccountMeta := ⟨pubkey, false, true⟩
def readonly (pubkey : Pubkey) : AccountMeta := ⟨pubkey, false, false⟩

def initializeConfig : Instruction where
  programId := ProgramIds.domainRegistry
  accounts := [signer sponsor, writable config, readonly Ids.systemProgram]
  data := initializeDiscriminator

def addTollbooth : Instruction where
  programId := ProgramIds.domainRegistry
  accounts := [signer sponsor, readonly config, writable record, readonly ProgramIds.tollbooth,
    readonly tollboothSigner, readonly Ids.systemProgram]
  data := addProgramDiscriminator ++ leBytes 4 15 ++ utf8 "https://app.xyz"

def intentInstruction (expires : String) (signature : FixedBytes 64) : Instruction where
  programId := Ids.ed25519Program
  accounts := []
  data := [1, 0, 48, 0, 255, 255, 16, 0, 255, 255, 112, 0] ++ leBytes 2 421 ++ [255, 255] ++
    user.bytes ++ signature.bytes ++ utf8 (intentText expires)

def startInstruction : Instruction where
  programId := ProgramIds.sessionManager
  accounts := [signer sponsor, readonly chainId, signer session, readonly Ids.sysvarInstructions,
    readonly record, readonly sessionSetter, readonly Ids.tokenProgram, readonly Ids.systemProgram,
    writable userToken, readonly mint]
  data := [0]

def revokeInstruction : Instruction where
  programId := ProgramIds.sessionManager
  accounts := [signer session, writable sponsor, readonly Ids.systemProgram]
  data := [1]

def closeInstruction : Instruction where
  programId := ProgramIds.sessionManager
  accounts := [writable session, writable sponsor, readonly sessionSetter, readonly Ids.tokenProgram,
    readonly Ids.systemProgram, writable userToken]
  data := [2]

def start (expires : String) (signature : FixedBytes 64) : List Instruction :=
  [intentInstruction expires signature, startInstruction]

/-- A session is started. -/
def started : List (Int64 × List Instruction) :=
  [(1000, [initializeConfig]), (1000, [addTollbooth]), (1000, start firstExpires firstSignature)]

/-- The session is revoked, and closed when it has expired. -/
def closed : List (Int64 × List Instruction) :=
  started ++ [(2000, [revokeInstruction]), (90000, [closeInstruction])]

/-- Another session is started on its account, from another intent. -/
def restarted : List (Int64 × List Instruction) :=
  closed ++ [(90000, start secondExpires secondSignature)]

/-- Nothing has run. -/
def world : World := ⟨(Ledger.ofList accounts).purge, 0, []⟩

theorem world_reachable : Reachable programs world :=
  AddressBook.genesis 0 system_not_mem (by decide +kernel) (by decide +kernel)

theorem admissible : ∀ entry ∈ restarted, Admissible programIds entry.2 :=
  AddressBook.admissible_of_allows (by decide +kernel)

/-- The session that is started, until a certain time. -/
def sessionUntil (expiration : UnixTimestamp) : Session where
  sponsor := sponsor
  major := 0
  sessionInfo := .v4 (.active {
    domainHash := hash
    activeSessionInfo := {
      user := user
      expiration := expiration
      authorizedPrograms := .specific [⟨ProgramIds.tollbooth, tollboothSigner⟩]
      authorizedTokens := .specific [mint]
      extra := [] } })

/-- What is checked on the ledger after `started` has run. -/
abbrev Started (w : World) : Prop :=
  (w.ledger session).owner = ProgramIds.sessionManager ∧
    Session.tryDeserialize (w.ledger session).data = .ok (sessionUntil 86400) ∧
    (sessionUntil 86400).getUserChecked ProgramIds.tollbooth w.now = .ok user ∧
    ∀ e ∈ w.log, ∀ domain ∈ domainNames e, domain = "https://app.xyz"

theorem started_runs : ∃ w, world.runAll programs started = some w ∧ Started w :=
  World.exists_runAll (by decide +kernel)

theorem getUserChecked_sound_started :
    ∃ w newer e older intent, world.runAll programs started = some w ∧ w.log = newer ++ e :: older ∧
      (∀ x ∈ newer, ¬ IsRevoke session x) ∧
      Authorized user session ProgramIds.tollbooth w.now e older intent := by
  obtain ⟨w, hw, howner, hsession, huser, hdomains⟩ := started_runs
  have hreachable : Reachable programs w := world_reachable.runAll
    (fun entry hentry => admissible entry (List.mem_append_left _ (List.mem_append_left _ hentry))) hw
  have hdomain : ∀ domain ∈ domainsOf w.log, domain = "https://app.xyz" := by
    intro domain hdomain
    obtain ⟨e, he, hmem⟩ := mem_domainNames hdomain
    exact hdomains e he domain hmem
  have hdistinct : (domainsOf w.log).InjOn getDomainRecordAddress := by
    intro a ha b hb _
    rw [hdomain a ha, hdomain b hb]
  obtain ⟨newer, e, older, intent, h⟩ :=
    getUserChecked_sound hreachable.observed hdistinct howner hsession huser
  exact ⟨w, newer, e, older, intent, hw, h⟩

end Sample

end FogoSessions.Sessions
