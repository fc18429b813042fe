import FogoSessions.IntentTransfer.System
import FogoSessions.Lib.Counter
import FogoSessions.Lib.ParserLaws

/-!
# Each signed text once, and in order

The nonce account of a user counts the texts of the user's that have been carried out: the one that is
carried out next has the next number. So the numbers are in order, without gaps, and no text is carried
out a second time, whoever sponsors it.
-/

namespace FogoSessions.IntentTransfer

open Lib Solana Intents Parser

open Sessions (SignedBy load_signedBy)

/-! ## The two grammars -/

theorem messageV0_prefix {text rest : Bytes} {message : Message}
    (h : messageV0 text = some (message, rest)) : ∃ tail, text = messagePrefix ++ tail := by
  obtain ⟨_, _, hpre, -⟩ := delimited_eq_some.1 h
  obtain ⟨_, tail, htag, -⟩ := preceded_eq_some.1 hpre
  exact ⟨tail, (tag_eq_some.1 htag).2⟩

theorem messageNtt_prefix {text rest : Bytes} {message : NttMessage}
    (h : messageNtt text = some (message, rest)) : ∃ tail, text = bridgeMessagePrefix ++ tail := by
  obtain ⟨_, _, hpre, -⟩ := delimited_eq_some.1 h
  obtain ⟨_, tail, htag, -⟩ := preceded_eq_some.1 hpre
  exact ⟨tail, (tag_eq_some.1 htag).2⟩

/-- The sixth letter of a text tells a transfer from a bridge transfer. -/
theorem prefix_ne (tail tail' : Bytes) : messagePrefix ++ tail ≠ bridgeMessagePrefix ++ tail' := by
  intro h
  have htake := congrArg (List.take 6) h
  rw [List.take_append_of_le_length (by decide +kernel),
    List.take_append_of_le_length (by decide +kernel)] at htake
  revert htake
  decide +kernel

theorem nonceOf_transfer {text : Bytes} {nonce : UInt64}
    (h : Kind.nonceOf .transfer text = some nonce) : ∃ tail, text = messagePrefix ++ tail := by
  obtain ⟨message, hmessage, -⟩ := Option.map_eq_some_iff.1 h
  obtain ⟨⟨_, rest⟩, hparse, -⟩ :=
    Option.map_eq_some_iff.1 (okOr_eq_ok.1 (toOption_eq_some.1 hmessage))
  exact messageV0_prefix hparse

theorem nonceOf_bridge {text : Bytes} {nonce : UInt64}
    (h : Kind.nonceOf .bridge text = some nonce) : ∃ tail, text = bridgeMessagePrefix ++ tail := by
  obtain ⟨message, hmessage, -⟩ := Option.map_eq_some_iff.1 h
  obtain ⟨⟨_, rest⟩, hparse, -⟩ :=
    Option.map_eq_some_iff.1 (okOr_eq_ok.1 (toOption_eq_some.1 hmessage))
  exact messageNtt_prefix hparse

/-- No text is of both grammars. -/
theorem nonceOf_unique {kind kind' : Kind} {text : Bytes} {nonce nonce' : UInt64}
    (h : kind.nonceOf text = some nonce) (h' : kind'.nonceOf text = some nonce') : kind = kind' := by
  cases kind with
  | transfer =>
    cases kind' with
    | transfer => rfl
    | bridge =>
      obtain ⟨tail, rfl⟩ := nonceOf_transfer h
      obtain ⟨tail', heq⟩ := nonceOf_bridge h'
      exact absurd heq (prefix_ne tail tail')
  | bridge =>
    cases kind' with
    | bridge => rfl
    | transfer =>
      obtain ⟨tail, rfl⟩ := nonceOf_bridge h
      obtain ⟨tail', heq⟩ := nonceOf_transfer h'
      exact absurd heq.symm (prefix_ne tail' tail)

theorem execution_nonceOf [LegacyOffchain] {e : Event} {x : Execution} (h : execution e = some x) :
    x.kind.nonceOf x.text = some x.nonce ∧ signedText e.context = .ok ⟨x.signer, x.text⟩ := by
  simp only [execution, Option.bind_eq_bind, Option.bind_eq_some_iff, toOption_eq_some,
    Option.pure_def, Option.some.injEq] at h
  obtain ⟨command, -, kind, -, intent, hintent, nonce, hnonce, rfl⟩ := h
  exact ⟨hnonce, hintent⟩

/-! ## The nonces of an account -/

section

variable [Addressing] [LegacyOffchain] {key : Pubkey} {e : Event} {log : List Event} {x : Execution}

/-- The nonces that were carried out on a nonce account, the newest first. -/
def noncesAt (key : Pubkey) (log : List Event) : List Nat :=
  ((log.filterMap execution).filter fun x => nonceAddress x.kind x.signer = key).map
    fun x => x.nonce.toNat

theorem noncesAt_append (newer older : List Event) :
    noncesAt key (newer ++ older) = noncesAt key newer ++ noncesAt key older := by
  simp [noncesAt]

theorem noncesAt_cons_of_ne (h : ∀ x, execution e = some x → nonceAddress x.kind x.signer ≠ key) :
    noncesAt key (e :: log) = noncesAt key log := by
  unfold noncesAt
  cases hx : execution e with
  | none => rw [List.filterMap_cons_none hx]
  | some x => rw [List.filterMap_cons_some hx, List.filter_cons_of_neg (by simpa using h x hx)]

theorem noncesAt_cons_of_eq (hx : execution e = some x) (hkey : nonceAddress x.kind x.signer = key) :
    noncesAt key (e :: log) = x.nonce.toNat :: noncesAt key log := by
  unfold noncesAt
  rw [List.filterMap_cons_some hx, List.filter_cons_of_pos (by simpa using hkey), List.map_cons]

/-- Nothing is carried out on an account that is not written to. -/
theorem noncesAt_of_quiet (h : ∀ e ∈ log, ¬ Writes key e) : noncesAt key log = [] := by
  induction log with
  | nil => rfl
  | cons e log ih =>
    obtain ⟨hquiet, hlog⟩ := List.forall_mem_cons.1 h
    rw [noncesAt_cons_of_ne fun x hx hkey => hquiet (.inl ⟨x, hx, hkey⟩), ih hlog]

end

section

variable [Addressing] [SystemProgram] [TokenProgram] [AssociatedTokenProgram] [TokenMetadata]
  [Invocation programIds] [LegacyOffchain] [Ed25519] {w : World} {e : Event} {x : Execution}

/-- What is carried out next has the next number. -/
theorem nonce_next (hw : Observed programs w) (he : Invoked programs w e) (hx : execution e = some x)
    (hcounted : Counted (noncesAt (nonceAddress x.kind x.signer) w.log)) :
    x.nonce.toNat = (noncesAt (nonceAddress x.kind x.signer) w.log).length + 1 := by
  have hadvances : Advances (nonceAddress x.kind x.signer) x.nonce e.before e.after := by
    cases action he with
    | execution x' hx' _ hadvances _ =>
      obtain rfl := Option.some.inj (hx.symm.trans hx')
      exact hadvances
    | registration r _ hnone _ => cases hnone.symm.trans hx
  have hbefore := hadvances.before
  rw [he.before_eq] at hbefore
  have hcustody : Custody programs (nonceAddress x.kind x.signer)
      (Writes (nonceAddress x.kind x.signer)) w := (custodian _).observed hw
  cases hcustody with
  | unused hquiet howner =>
    obtain ⟨-, hone⟩ | ⟨hmem, -⟩ := hbefore
    · rw [noncesAt_of_quiet hquiet, hone]
      rfl
    · exact absurd hmem howner
  | written e' older hsince hwrites howner hdata hmem _ =>
    obtain ⟨hnone, -⟩ | ⟨-, n, hn, hnext⟩ := hbefore
    · exact absurd hmem hnone
    obtain ⟨newer, hlog, hquiet⟩ := Since.iff_append.1 hsince
    obtain ⟨w', hw', -, -, he'⟩ := hw.history newer e' older hlog
    rw [hdata] at hn
    obtain ⟨x', hx', hkey⟩ | ⟨r, hr, hkey⟩ := hwrites
    · -- the nonce that is read is the one that was carried out last
      have hnonces : noncesAt (nonceAddress x.kind x.signer) w.log =
          x'.nonce.toNat :: noncesAt (nonceAddress x.kind x.signer) older := by
        rw [hlog, noncesAt_append, noncesAt_of_quiet hquiet, List.nil_append,
          noncesAt_cons_of_eq hx' hkey]
      cases action he' with
      | execution x'' hx'' _ hadvances' _ =>
        obtain rfl := Option.some.inj (hx'.symm.trans hx'')
        have hholds := hadvances'.holds
        rw [hkey, hn] at hholds
        rw [hnonces] at hcounted ⊢
        rw [hnext, Except.ok.inj hholds, hcounted.head_eq]
        rfl
      | registration r _ hnone _ => cases hnone.symm.trans hx'
    · -- a configuration is no nonce
      cases action he' with
      | execution x' _ hnone _ _ => cases hnone.symm.trans hr
      | registration r' hr' _ hdone =>
        obtain rfl := Option.some.inj (hr.symm.trans hr')
        exact absurd hn (hdone.not_nonce hkey)

theorem counted_invariant (key : Pubkey) :
    Invariant programs fun w => Counted (noncesAt key w.log) where
  init _ := .nil
  tick _ _ h _ := h
  frame _ _ h _ := h
  purge _ h := h
  invoke w e hw h he := by
    by_cases hexecuted : ∃ x, execution e = some x ∧ nonceAddress x.kind x.signer = key
    · obtain ⟨x, hx, rfl⟩ := hexecuted
      show Counted (noncesAt _ (e :: w.log))
      rw [noncesAt_cons_of_eq hx rfl, nonce_next hw he hx h]
      exact h.cons
    · show Counted (noncesAt _ (e :: w.log))
      rwa [noncesAt_cons_of_ne fun x hx hkey => hexecuted ⟨x, hx, hkey⟩]

/-- The pairs of a kind and a user whose nonce accounts a history is about. -/
def accountsOf (log : List Event) : Set (Kind × Pubkey) :=
  { p | ∃ e ∈ log, ∃ x, execution e = some x ∧ (x.kind, x.signer) = p }

/-- What was carried out for a user, the oldest first. -/
def carriedOut (kind : Kind) (user : Pubkey) (log : List Event) : List Execution :=
  (log.reverse.filterMap execution).filter fun x => x.kind = kind ∧ x.signer = user

omit [SystemProgram] [TokenProgram] [AssociatedTokenProgram] [TokenMetadata] [Invocation programIds]
  [Ed25519] in
/-- Where no two nonce accounts are at one address, the nonces of a user's are those of an account. -/
theorem carriedOut_nonces {log : List Event} {kind : Kind} {user : Pubkey}
    (hdistinct : (accountsOf log).InjOn fun p => nonceAddress p.1 p.2)
    (hmem : (kind, user) ∈ accountsOf log) :
    (carriedOut kind user log).map (fun x => x.nonce.toNat) =
      (noncesAt (nonceAddress kind user) log).reverse := by
  have hfilter : ((log.filterMap execution).filter fun x => x.kind = kind ∧ x.signer = user) =
      (log.filterMap execution).filter
        fun x => nonceAddress x.kind x.signer = nonceAddress kind user := by
    apply List.filter_congr
    intro x hx
    obtain ⟨e, he, hexecution⟩ := List.mem_filterMap.1 hx
    rw [decide_eq_decide]
    constructor
    · rintro ⟨rfl, rfl⟩
      rfl
    · intro haddress
      have hpair := hdistinct ⟨e, he, x, hexecution, rfl⟩ hmem haddress
      exact Prod.mk.inj hpair
  rw [carriedOut, List.filterMap_reverse, List.filter_reverse, List.map_reverse, hfilter]
  rfl

/-- **Each signed text is carried out once, and in order.** In every state of every run, whoever
    sponsors what, the texts of a user's that were carried out have the nonces 1, 2, 3 and so on in
    this order, those of transfers and those of bridge transfers on their own. Each was signed by the
    user, none was carried out twice, and none is of both kinds. -/
theorem executions_in_order (hw : Observed programs w)
    (hdistinct : (accountsOf w.log).InjOn fun p => nonceAddress p.1 p.2) :
    (∀ kind user, (carriedOut kind user w.log).map (fun x => x.nonce.toNat) =
      List.range' 1 (carriedOut kind user w.log).length) ∧
    ((w.log.filterMap execution).map fun x => (x.signer, x.text)).Nodup ∧
    ∀ e ∈ w.log, ∀ x, execution e = some x →
      SignedBy (fun text => .ok text) x.signer e.context x.text ∧
      ∀ kind nonce, kind.nonceOf x.text = some nonce → kind = x.kind ∧ nonce = x.nonce := by
  have hcounted : ∀ key, Counted (noncesAt key w.log) := fun key =>
    (counted_invariant key).observed hw
  refine ⟨fun kind user => ?_, ?_, fun e he x hx => ?_⟩
  · by_cases hmem : (kind, user) ∈ accountsOf w.log
    · have hnonces := carriedOut_nonces hdistinct hmem
      rw [(hcounted _).reverse_eq] at hnonces
      have hlength := congrArg List.length hnonces
      rw [List.length_map, List.length_range'] at hlength
      rw [hnonces, hlength]
    · have hnone : carriedOut kind user w.log = [] := by
        apply List.filter_eq_nil_iff.2
        intro x hx hpair
        obtain ⟨e, he, hexecution⟩ := List.mem_filterMap.1 hx
        obtain ⟨rfl, rfl⟩ := of_decide_eq_true hpair
        exact hmem ⟨e, List.mem_reverse.1 he, x, hexecution, rfl⟩
      rw [hnone]
      rfl
  · have hnodup := nodup_of_fibers fun key => (hcounted key).nodup
    refine List.Nodup.map_on ?_ hnodup.of_map
    intro x hx y hy heq
    obtain ⟨hsigner, htext⟩ := Prod.mk.inj heq
    obtain ⟨e, -, hx'⟩ := List.mem_filterMap.1 hx
    obtain ⟨e', -, hy'⟩ := List.mem_filterMap.1 hy
    have hnonce := (execution_nonceOf hx').1
    have hnonce' := (execution_nonceOf hy').1
    rw [← htext] at hnonce'
    have hkind := nonceOf_unique hnonce hnonce'
    rw [← hkind, hnonce] at hnonce'
    refine List.inj_on_of_nodup_map hnodup hx hy ?_
    rw [hsigner, hkind, Option.some.inj hnonce']
  · obtain ⟨newer, older, hlog⟩ := List.append_of_mem he
    obtain ⟨w', -, -, -, hinvoked⟩ := hw.history newer e older hlog
    obtain ⟨hnonce, htext⟩ := execution_nonceOf hx
    refine ⟨load_signedBy hinvoked.verified htext, fun kind nonce hkind => ?_⟩
    obtain rfl := nonceOf_unique hkind hnonce
    exact ⟨rfl, Option.some.inj (hkind.symm.trans hnonce)⟩

end

/-! ## A run -/

namespace Sample

def sponsor : Pubkey := .ofNat
  0x4dc21aac8658d938f2f37253691ad8462f8e33b7bb0eea4adb7dd5f4cef993a7
def user : Pubkey := .ofNat
  0x25ed471e101be7fd6c78dc0695323a470f64e09bc5f4e03da483384d8e8b65f7
def mint : Pubkey := .ofNat
  0xa10bba45e70638e3dd380c149cc2674ba21baef56ddbb70da2d4e083c6427c2c
def recipient : Pubkey := .ofNat
  0x7d066f3cda55748f8c7e3efdd6d33bc4f07c9210121edb6aa63d231e2bbc044d
def manager : Pubkey := .ofNat
  0xc019026b5a6ee2ad0d9d7e38d0ba84be200907292713a224922212d2cafd7ab0
def chainId : Pubkey := .ofNat
  0xe1d007b79211cb2d932e3c36cd718c97412292ba37e4ea3d10b4a277283e7ace
def setter : Pubkey := .ofNat
  0xcc4fb00f7793a183f98d7d1485b3fb68a4477fb83aaa96142f379d48535e0a6b
def transferNonce : Pubkey := .ofNat
  0x68d8e9b6a06bfce823b5cba878854b310badea52a5e806108ca15bd0abfe7775
def bridgeNonce : Pubkey := .ofNat
  0xa188cb12d9c4a582a836ac0ccaa3063de7e50562b3ec8b01c3fb53c9714401c6
def feeConfig : Pubkey := .ofNat
  0x5abcee44a2d99676a7973f651c04586f7a5bf8568b6d5df25725ec83d975a194
def nttConfig : Pubkey := .ofNat
  0x747d742cf3b702e84946125cdebce1b5df4afe69aa321df1d66fb51beed05dc3
def programData : Pubkey := .ofNat
  0xd3167bc823cff62513486f5bfe10588c7f77e23a24cda93ed46e1cebdcbcead7
def userToken : Pubkey := .ofNat
  0xcc4d03442ed677db81c3372664085b62eb73f7955e1425219a1cc46171bacffb
def recipientToken : Pubkey := .ofNat
  0xc0ac8b0120a4ab06636526da38c67a5ee118a7383e67f6e222511b5b2fc36aeb
def sponsorToken : Pubkey := .ofNat
  0x742f34916746f3a04b22e50b909eb9189b4a74101a83b9d38bffa5dd5553537a
def intermediate : Pubkey := .ofNat
  0xa534be18f4623f8fad6a216ef8465b7f23454f3a29d46897a6c327c27b66cd59
def other : Pubkey := .ofNat
  0xd9298a10d1b0735837dc4bd85dac641b0f3cef27a47e5d53a54f2f3f5b2fcffa

/-- The addresses of a chain with one user and one token. -/
def book : AddressBook where
  hashes := []
  wallets := [sponsor, user, mint, recipient, manager]
  derived := [
    (([ChainId.seed], ProgramIds.chainId), chainId, 255),
    (([intentTransferSeed], ProgramIds.intentTransfer), setter, 254),
    (([intentTransferNonceSeed, user.bytes], ProgramIds.intentTransfer), transferNonce, 255),
    (([bridgeNttNonceSeed, user.bytes], ProgramIds.intentTransfer), bridgeNonce, 255),
    (([FeeConfig.seed, mint.bytes], ProgramIds.intentTransfer), feeConfig, 255),
    (([ExpectedNttConfig.seed, mint.bytes], ProgramIds.intentTransfer), nttConfig, 255),
    (([ProgramIds.intentTransfer.bytes], bpfLoaderUpgradeable), programData, 255),
    (([user.bytes, Ids.tokenProgram.bytes, mint.bytes], Ids.associatedTokenProgram), userToken, 253),
    (([recipient.bytes, Ids.tokenProgram.bytes, mint.bytes], Ids.associatedTokenProgram),
      recipientToken, 255),
    (([sponsor.bytes, Ids.tokenProgram.bytes, mint.bytes], Ids.associatedTokenProgram), sponsorToken,
      253),
    (([bridgeNttIntermediateSeed, userToken.bytes], ProgramIds.intentTransfer), intermediate, 254)]
  other := other
  derived_off_curve := by decide +kernel
  other_off_curve := by decide +kernel

def transferText (token amount nonce : String) : String :=
  "Fogo Transfer:\nSigning this intent will transfer the tokens as described below.\n\n" ++
  "version: 0.2\nchain_id: localnet\ntoken: " ++ token ++ "\namount: " ++ amount ++
  "\nrecipient: 9R3esWGSPjyHMWmNWVXynnEptVxdcVBZQYFGoPDqWqPA\n" ++
  "fee_token: Bqf1f4YEpkZM8AdqZnEjT1VPcnFGVKpzVoaQkJeP67Ky\nfee_amount: 0.01\nnonce: " ++
  nonce ++ "\n"

def tokensText : String :=
  transferText "Bqf1f4YEpkZM8AdqZnEjT1VPcnFGVKpzVoaQkJeP67Ky" "1.5" "1"
def nativeText : String := transferText "FOGO" "0.25" "2"
def bridgeText : String :=
  "Fogo Bridge Transfer:\nSigning this intent will bridge out the tokens as described below.\n\n" ++
  "version: 0.2\nfrom_chain_id: localnet\nto_chain_id: solana\n" ++
  "token: Bqf1f4YEpkZM8AdqZnEjT1VPcnFGVKpzVoaQkJeP67Ky\namount: 2\n" ++
  "recipient_address: 9R3esWGSPjyHMWmNWVXynnEptVxdcVBZQYFGoPDqWqPA\n" ++
  "fee_token: Bqf1f4YEpkZM8AdqZnEjT1VPcnFGVKpzVoaQkJeP67Ky\nfee_amount: 0.01\nnonce: 1\n"

theorem halves_length (r s : FixedBytes 32) : (r.bytes ++ s.bytes).length = 64 := by
  rw [List.length_append, r.length_eq, s.length_eq]

/-- A signature, as its two halves. -/
def halves (r s : FixedBytes 32) : FixedBytes 64 := ⟨r.bytes ++ s.bytes, halves_length r s⟩

def tokensSignature : FixedBytes 64 := halves
  (.ofNat 0xf64c47288e357524f0e529cbfe76a7dbd987803d7765c69baf38265eaf4b06d9)
  (.ofNat 0xccdc9c4d783d739ccbe4618aa782d022ade42a473569e5cf40d12d7ac70a1a0e)
def nativeSignature : FixedBytes 64 := halves
  (.ofNat 0x8621d5b507c75ba8c382b2ce854f9981815ee16fe495a634ba094367ab730afc)
  (.ofNat 0xf2cd3163bc0a8f568e134e23e542e4417dfa8ada2733b3093f442a0561e0fc02)
def bridgeSignature : FixedBytes 64 := halves
  (.ofNat 0x28888d10f84b1cb68f3f3f8201c972acd9aba1713e4ac96bcea9dbc95e469e26)
  (.ofNat 0xebabbed36836c5c09dc7b85ef91ee47264b158a0717d0cb9f65fdf6afd90bd04)

/-- The NTT manager burns all that is in the account it is told to take from. -/
def burn (l : Ledger) (source : AccountMeta) : Option Ledger :=
  if source.isWritable then
    (Native.load l source.pubkey).bind fun s => Native.store l source.pubkey { s with amount := 0 }
  else none

/-- The other programs do nothing. -/
def invoke (l : Ledger) (ix : Instruction) : Option Ledger :=
  if ix.data.take 8 = transferBurnDiscriminator then ix.accounts[3]?.bind (burn l) else some l

scoped instance : Addressing := book.addressing
scoped instance : SystemProgram := Native.systemProgram
scoped instance : TokenProgram := Native.tokenProgram
scoped instance : AssociatedTokenProgram := Native.associatedTokenProgram
scoped instance : TokenMetadata := Native.tokenMetadata
scoped instance : LegacyOffchain := ⟨fun _ => none⟩
scoped instance : Ed25519 := ⟨fun key message signature =>
  (key, message, signature) = (user, utf8 tokensText, tokensSignature) ∨
  (key, message, signature) = (user, utf8 nativeText, nativeSignature) ∨
  (key, message, signature) = (user, utf8 bridgeText, bridgeSignature)⟩

theorem invoke_eq_some {l l' : Ledger} {ix : Instruction} (h : invoke l ix = some l') :
    l' = l ∨ ∃ source ∈ ix.accounts, source.isWritable = true ∧
      (l source.pubkey).owner = Ids.tokenProgram ∧ ∃ data, l' = l.setData source.pubkey data := by
  unfold invoke at h
  split at h
  · obtain ⟨source, hsource, hburn⟩ := Option.bind_eq_some_iff.1 h
    obtain ⟨hwritable, hstore⟩ := Option.ite_none_right_eq_some.1 hburn
    obtain ⟨s, hload, hstore⟩ := Option.bind_eq_some_iff.1 hstore
    obtain ⟨data, -, rfl⟩ := Option.map_eq_some_iff.1 hstore
    exact .inr ⟨source, List.mem_of_getElem? hsource, hwritable, (Native.load_eq_some.1 hload).1,
      data, rfl⟩
  · exact .inl (Option.some.inj h).symm

scoped instance : Invocation programIds where
  invoke := invoke
  invoke_frame h := by
    obtain rfl | ⟨source, -, -, howner, data, rfl⟩ := invoke_eq_some h
    · exact .refl
    · exact frame_setData token_not_mem Ids.tokenProgram_ne_systemProgram (.inl howner)
  invoke_other h key hkey := by
    obtain rfl | ⟨source, hmem, hwritable, -, data, rfl⟩ := invoke_eq_some h
    · rfl
    · refine Ledger.set_of_ne ?_
      rintro rfl
      cases hwritable.symm.trans (hkey source hmem rfl)

/-- What is on the ledger before the program runs. -/
def accounts : List (Pubkey × Account) := [
  (sponsor, ⟨10000000000, Ids.systemProgram, []⟩),
  (user, ⟨1000000000, Ids.systemProgram, []⟩),
  (programData, ⟨1000000, bpfLoaderUpgradeable,
    [3, 0, 0, 0] ++ leBytes 8 7 ++ [1] ++ sponsor.bytes⟩),
  (chainId, ⟨1002240, ProgramIds.chainId, ChainId.discriminator ++ [8, 0, 0, 0] ++ utf8 "localnet"⟩),
  (mint, ⟨1461600, Ids.tokenProgram, zeros 44 ++ [6, 1] ++ zeros 36⟩),
  (userToken, ⟨2039280, Ids.tokenProgram,
    mint.bytes ++ user.bytes ++ leBytes 8 5000000 ++ zeros 36 ++ [1] ++ zeros 56⟩)]

def signer (pubkey : Pubkey) : AccountMeta := ⟨pubkey, true, true⟩
def writable (pubkey : Pubkey) : AccountMeta := ⟨pubkey, false, true⟩
def readonly (pubkey : Pubkey) : AccountMeta := ⟨pubkey, false, false⟩

def instruction (accounts : List AccountMeta) (data : Bytes) : Instruction :=
  ⟨ProgramIds.intentTransfer, accounts, data⟩

/-- A transfer costs 0.005 tokens and a bridge transfer 0.01. -/
def registerFee : Instruction := instruction
  [signer sponsor, readonly programData, readonly mint, writable feeConfig,
    readonly Ids.systemProgram]
  ([3] ++ leBytes 8 5000 ++ leBytes 8 10000)

def registerNtt : Instruction := instruction
  [signer sponsor, readonly programData, readonly mint, writable nttConfig, readonly manager,
    readonly Ids.systemProgram] [2]

def intentInstruction (text : String) (signature : FixedBytes 64) : Instruction where
  programId := Ids.ed25519Program
  accounts := []
  data := [1, 0, 48, 0, 255, 255, 16, 0, 255, 255, 112, 0] ++ leBytes 2 (utf8 text).length ++
    [255, 255] ++ user.bytes ++ signature.bytes ++ utf8 text

def absent : AccountMeta := readonly ProgramIds.intentTransfer

def programAccounts : List AccountMeta :=
  [readonly Ids.systemProgram, readonly Ids.tokenProgram, readonly Ids.associatedTokenProgram]

def sendTokensInstruction : Instruction := instruction
  ([readonly chainId, readonly Ids.sysvarInstructions, readonly setter, writable userToken,
    writable recipientToken, readonly mint, absent, writable transferNonce, signer sponsor,
    readonly recipient, writable userToken, writable sponsorToken, readonly mint, absent,
    readonly feeConfig] ++ programAccounts) [0]

def sendNativeInstruction : Instruction := instruction
  ([readonly chainId, readonly Ids.sysvarInstructions, readonly setter, writable user,
    writable recipient, writable transferNonce, signer sponsor, writable userToken,
    writable sponsorToken, readonly mint, absent, readonly feeConfig] ++ programAccounts) [4]

/-- The accounts for the NTT manager, as far as they are not checked. -/
def nttAccounts : List AccountMeta :=
  [readonly sysvarClock, readonly sysvarRent, readonly manager, readonly other, writable other,
    readonly other, readonly other, writable other, readonly other, readonly other, writable other,
    writable other, writable other, readonly other, readonly nttWithExecutorProgramId,
    readonly executorProgramId, readonly other, signer sponsor, writable other, writable other,
    writable other]

def bridgeInstruction : Instruction := instruction
  ([readonly chainId, readonly Ids.sysvarInstructions, readonly setter, writable userToken,
    writable intermediate, writable mint, absent, readonly nttConfig, writable bridgeNonce,
    signer sponsor, writable userToken, writable sponsorToken, readonly mint, absent,
    readonly feeConfig] ++ programAccounts ++ nttAccounts)
  ([1] ++ zeros 91 ++ [1] ++ zeros 7 ++ zeros 65 ++ [0, 0])

/-- The fee and the NTT manager are registered, and three texts of the user's are carried out. -/
def schedule : List (Int64 × List Instruction) := [
  (1000, [registerFee, registerNtt]),
  (2000, [intentInstruction tokensText tokensSignature, sendTokensInstruction]),
  (3000, [intentInstruction bridgeText bridgeSignature, bridgeInstruction]),
  (4000, [intentInstruction nativeText nativeSignature, sendNativeInstruction])]

/-- Nothing has run. -/
def world : World := ⟨(Ledger.ofList accounts).purge, 0, []⟩

theorem world_reachable : Reachable programs world :=
  AddressBook.genesis 0 system_not_mem (by decide +kernel) (by decide +kernel)

theorem admissible : ∀ entry ∈ schedule, Admissible programIds entry.2 :=
  AddressBook.admissible_of_allows (by decide +kernel)

/-- What is checked after the run. -/
abbrev Ran (w : World) : Prop :=
  (∀ e ∈ w.log, (execution e).all (fun x => x.signer = user) = true) ∧
    (carriedOut .transfer user w.log).length = 2 ∧ (carriedOut .bridge user w.log).length = 1 ∧
    tokenBalance w.ledger userToken = 1485000 ∧ tokenBalance w.ledger recipientToken = 1500000 ∧
    tokenBalance w.ledger sponsorToken = 15000 ∧ (w.ledger recipient).lamports = 250000000 ∧
    loadFeeConfig w.ledger (feeConfigAddress mint) = .ok ⟨5000, 10000⟩ ∧
    ∀ e ∈ w.log, (registration e).all (fun r => r.mint = mint) = true

theorem schedule_runs : ∃ w, world.runAll programs schedule = some w ∧ Ran w :=
  World.exists_runAll (by decide +kernel)

theorem executions_in_order_sample : ∃ w, world.runAll programs schedule = some w ∧
    (carriedOut .transfer user w.log).map (fun x => x.nonce.toNat) = [1, 2] ∧
    (carriedOut .bridge user w.log).map (fun x => x.nonce.toNat) = [1] := by
  obtain ⟨w, hw, hsigners, htransfers, hbridges, -⟩ := schedule_runs
  have hreachable := world_reachable.runAll admissible hw
  have hdistinct : (accountsOf w.log).InjOn fun p => nonceAddress p.1 p.2 := by
    have huser : ∀ p ∈ accountsOf w.log, p.2 = user := by
      rintro p ⟨e, he, x, hx, rfl⟩
      have hall := hsigners e he
      rw [hx] at hall
      exact of_decide_eq_true hall
    have hkinds : ∀ kind kind', nonceAddress kind user = nonceAddress kind' user → kind = kind' := by
      intro kind kind'
      cases kind <;> cases kind' <;> decide +kernel
    rintro ⟨kind, signer⟩ hp ⟨kind', signer'⟩ hp' haddress
    obtain rfl : signer = user := huser _ hp
    obtain rfl : signer' = user := huser _ hp'
    rw [hkinds kind kind' haddress]
  obtain ⟨hnonces, -⟩ := executions_in_order hreachable.observed hdistinct
  refine ⟨w, hw, ?_, ?_⟩
  · rw [hnonces, htransfers]
    rfl
  · rw [hnonces, hbridges]
    rfl

end Sample

end FogoSessions.IntentTransfer
