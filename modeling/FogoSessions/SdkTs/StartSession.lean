import FogoSessions.SdkTs.Intent
import FogoSessions.SessionManager.Reading

/-!
# The session intent

`sessions-sdk-ts/src/index.ts`: the message that starts a session, and what the session manager
reads of it.
-/

namespace FogoSessions.SdkTs

open Lib Solana Intents Parser SessionManager

/-- `MESSAGE_HEADER`. -/
def messageHeader : String :=
  "Fogo Sessions:\nSigning this intent will allow this app to interact with your on-chain " ++
  "balances. Please make sure you trust this app and the domain in the message matches the " ++
  "domain of the current web application.\n"

def currentMajor : String := "0"
def currentMinor : String := "4"

/-- What `getTokenInfo` collects of a token: the symbol is the one of its metadata, if it has any. -/
structure TokenInfo where
  amount : UInt64
  decimals : UInt8
  mint : Pubkey
  metadataSymbol : Option String

/-- An empty symbol is as good as none. -/
def TokenInfo.symbolOrMint (token : TokenInfo) : SymbolOrMint :=
  match token.metadataSymbol with
  | some symbol => if symbol = "" then .mint token.mint else .symbol symbol
  | none => .mint token.mint

def TokenInfo.amountText (token : TokenInfo) : String := amountToString token.amount token.decimals

def TokenInfo.line (token : TokenInfo) : String :=
  token.symbolOrMint.text ++ ": " ++ token.amountText

/-- `.join("")`. -/
def concat : List String → String
  | [] => ""
  | s :: ss => s ++ concat ss

def serializeTokenList : Option (List TokenInfo) → String
  | none => unlimitedTokenPermissionsValue
  | some tokens =>
    if tokens.length = 0 then tokenlessPermissionsValue
    else concat (tokens.map fun token => "\n-" ++ token.line)

/-- The options as far as the message depends on them; `expires` is the text of `toISOString`. -/
structure EstablishSessionOptions where
  chainId : String
  domain : String
  expires : String
  extra : Option Record
  unlimited : Bool
  /-- the limits by mint; none when they are absent -/
  limits : List (Pubkey × UInt64)

def startSessionBody (options : EstablishSessionOptions) (sessionKey : Pubkey)
    (tokens : Option (List TokenInfo)) : Record :=
  [("version", currentMajor ++ "." ++ currentMinor),
   ("chain_id", options.chainId),
   ("domain", options.domain),
   ("expires", options.expires),
   ("session_key", sessionKey.toString),
   ("tokens", serializeTokenList tokens)]

/-- `buildStartSessionIntentInstruction` up to the wallet. -/
def buildStartSessionIntentMessage (options : EstablishSessionOptions) (sessionKey : Pubkey)
    (tokens : Option (List TokenInfo)) : Except String Bytes :=
  buildIntentMessage messageHeader (startSessionBody options sessionKey tokens) none

/-- The tokens `establishSession` asks for: limits of zero are left out, and `getTokenInfo` looks
    the others up. -/
def establishSessionTokens (options : EstablishSessionOptions)
    (getTokenInfo : Pubkey × UInt64 → TokenInfo) : Option (List TokenInfo) :=
  if options.unlimited then none
  else some ((options.limits.filter fun (_, amount) => amount > 0).map getTokenInfo)

def establishSessionMessage (options : EstablishSessionOptions) (sessionKey : Pubkey)
    (getTokenInfo : Pubkey × UInt64 → TokenInfo) : Except String Bytes :=
  buildStartSessionIntentMessage options sessionKey (establishSessionTokens options getTokenInfo)

/-! ## The list of tokens is read back -/

/-- The entry that a token is written as. -/
def TokenInfo.entry (token : TokenInfo) : SymbolOrMint × UiTokenAmount :=
  (token.symbolOrMint, ⟨token.amountText⟩)

/-- A symbol in letters, digits and dots, if there is one. -/
def TokenInfo.Readable (token : TokenInfo) : Prop :=
  ∀ symbol, token.symbolOrMint = .symbol symbol →
    ∀ c ∈ symbol.toList, Base58.IsAlphanumCode c.toNat ∨ c = '.'

theorem isAlphanum_iff {b : UInt8} : isAlphanum b = true ↔ Base58.IsAlphanumCode b.toNat := by
  simp [isAlphanum, isDecDigit, Base58.IsAlphanumCode, UInt8.le_iff_toNat_le]

/-- The characters of a token key are those of its text. -/
theorem isTokenKey_utf8 {s : String} :
    IsTokenKey (utf8 s) ↔ s ≠ "" ∧ ∀ c ∈ s.toList, Base58.IsAlphanumCode c.toNat ∨ c = '.' := by
  have hne : utf8 s ≠ [] ↔ s ≠ "" := by
    have hempty : utf8 "" = [] := by decide
    exact not_congr ⟨fun h => utf8_injective (h.trans hempty.symm), fun h => h ▸ hempty⟩
  have hdot (c : Char) : c = '.' ↔ c.toNat = 46 := by
    rw [← Char.toNat_inj]
    rfl
  have hbyte (b : UInt8) : b = 46 ↔ b.toNat = 46 := by
    rw [← UInt8.toNat_inj]
    rfl
  have hchars := forall_mem_utf8 (s := s) (P := fun n => Base58.IsAlphanumCode n ∨ n = 46) <| by
    unfold Base58.IsAlphanumCode
    omega
  simp only [IsTokenKey, hne, isAlphanum_iff, hbyte, hdot, hchars]

theorem TokenInfo.text_ne_empty (token : TokenInfo) : token.symbolOrMint.text ≠ "" := by
  have hmint : token.mint.toString ≠ "" := by
    intro h
    have hlen := token.mint.length_toString.1
    rw [h] at hlen
    exact absurd hlen (by decide)
  unfold symbolOrMint
  split
  · rename_i symbol _
    by_cases h : symbol = ""
    · rw [if_pos h]
      exact hmint
    · rw [if_neg h]
      exact h
  · exact hmint

/-- A token is readable if and only if it is written with a token key. -/
theorem TokenInfo.isTokenKey_text (token : TokenInfo) :
    IsTokenKey (utf8 token.symbolOrMint.text) ↔ token.Readable := by
  rw [isTokenKey_utf8, and_iff_right token.text_ne_empty, Readable]
  cases h : token.symbolOrMint with
  | symbol symbol => simp [SymbolOrMint.text]
  | mint mint =>
    simp only [SymbolOrMint.text, reduceCtorEq, false_implies, implies_true, iff_true]
    exact fun c hc => Or.inl (Pubkey.mem_toString hc)

/-- A token whose symbol is short is read as what it is. -/
theorem TokenInfo.fromStr_text {token : TokenInfo}
    (h : ∀ symbol, token.metadataSymbol = some symbol → symbol.utf8ByteSize ≤ 10) :
    SymbolOrMint.fromStr token.symbolOrMint.text = token.symbolOrMint := by
  unfold symbolOrMint
  split
  · rename_i symbol hsymbol
    by_cases hempty : symbol = ""
    · rw [if_pos hempty]
      exact SymbolOrMint.fromStr_mint token.mint
    · rw [if_neg hempty]
      exact SymbolOrMint.fromStr_symbol ((h symbol hsymbol).trans_lt (by decide))
  · exact SymbolOrMint.fromStr_mint token.mint

/-- A symbol of the metadata has at most ten bytes. -/
def TokenInfo.ShortSymbol (token : TokenInfo) : Prop :=
  ∀ symbol, token.metadataSymbol = some symbol → symbol.utf8ByteSize ≤ 10

theorem TokenInfo.singleLine_amountText (token : TokenInfo) : SingleLine token.amountText :=
  singleLine_of_digits fun _ hc => mem_amountToString hc

theorem TokenInfo.utf8_line (token : TokenInfo) :
    utf8 token.line = utf8 token.symbolOrMint.text ++ 58 :: 32 :: utf8 token.amountText := by
  have hcolon : utf8 ": " = [58, 32] := by decide
  rw [line, utf8_append, utf8_append, hcolon, List.append_assoc]
  rfl

theorem TokenInfo.Readable.noBreak_line {token : TokenInfo} (h : token.Readable) :
    NoBreak (utf8 token.line) := by
  rw [utf8_line]
  refine (token.isTokenKey_text.2 h).noBreak.append fun c hc => ?_
  rcases List.mem_cons.1 hc with rfl | hc
  · decide
  rcases List.mem_cons.1 hc with rfl | hc
  · decide
  · exact token.singleLine_amountText.noBreak c hc

/-- The lines of the list. -/
def tokenLines (tokens : List TokenInfo) : List Bytes := tokens.map fun token => utf8 token.line

/-- Readable tokens are read back one by one. -/
theorem many_tokenLine_tokenLines {tokens : List TokenInfo}
    (hread : ∀ token ∈ tokens, token.Readable) (hshort : ∀ token ∈ tokens, token.ShortSymbol) :
    Many tokenLine (dashText (tokenLines tokens)) (tokens.map TokenInfo.entry) [] := by
  induction tokens with
  | nil => exact .stop rfl
  | cons token tokens ih =>
    have hkey := token.isTokenKey_text.2 (hread token List.mem_cons_self)
    have hvalue : value (32 :: (utf8 token.amountText ++ ([10] ++ dashText (tokenLines tokens)))) =
        some (utf8 token.amountText, dashText (tokenLines tokens)) :=
      value_eq_some.2 (Or.inl ⟨[10], rfl, token.singleLine_amountText.noBreak, Or.inl rfl⟩)
    have htext : dashText (tokenLines (token :: tokens)) =
        45 :: (utf8 token.symbolOrMint.text ++ 58 ::
          32 :: (utf8 token.amountText ++ ([10] ++ dashText (tokenLines tokens)))) := by
      simp [dashText, tokenLines, TokenInfo.utf8_line]
    have hline := tokenLine_eq_some.2 ⟨_, _, _, hkey, htext, hvalue, rfl⟩
    rw [TokenInfo.fromStr_text (hshort token List.mem_cons_self)] at hline
    exact .round hline (ih (fun t ht => hread t (List.mem_cons_of_mem token ht))
      fun t ht => hshort t (List.mem_cons_of_mem token ht))

/-- Lines with a dash are neither of the two sentences. -/
theorem ne_sentence {s : String} {bs : Bytes} (h : utf8 s = 45 :: bs) :
    s ≠ unlimitedTokenPermissionsValue ∧ s ≠ tokenlessPermissionsValue := by
  have hhead : (utf8 s).head? = some 45 := by rw [h, List.head?_cons]
  constructor <;> rintro rfl <;> exact absurd hhead (by decide)

theorem utf8_concat (ss : List String) : utf8 (concat ss) = ss.flatMap utf8 := by
  induction ss with
  | nil => decide
  | cons s ss ih => rw [concat, utf8_append, ih, List.flatMap_cons]

theorem parseStr_tokenLines {tokens : List TokenInfo} (hne : tokens ≠ [])
    (hread : ∀ token ∈ tokens, token.Readable) (hshort : ∀ token ∈ tokens, token.ShortSymbol) :
    parseStr Tokens.fromStr (dashText (tokenLines tokens)) =
      some (.specific (tokens.map TokenInfo.entry)) := by
  have hdash : utf8 "-" = [45] := by decide
  have hbreak : utf8 "\n" = [10] := by decide
  have htext : utf8 (concat (tokens.map fun token => "-" ++ token.line ++ "\n")) =
      dashText (tokenLines tokens) := by
    simp [utf8_concat, List.flatMap_map, dashText, tokenLines, utf8_append, hdash, hbreak]
  have hmany := many_tokenLine_tokenLines hread hshort
  rw [← htext] at hmany ⊢
  have hlist := (many1_eq_some shrinks_tokenLine).2 ⟨by simpa using hne, hmany⟩
  obtain ⟨bs, hbs⟩ : ∃ bs, utf8 (concat (tokens.map fun token => "-" ++ token.line ++ "\n")) =
      45 :: bs := by
    obtain ⟨token, tokens, rfl⟩ := List.exists_cons_of_ne_nil hne
    exact ⟨_, htext⟩
  obtain ⟨hall, hnone⟩ := ne_sentence hbs
  rw [parseStr, ofUtf8?_utf8, Option.bind_some, Tokens.fromStr, if_neg hall, if_neg hnone, hlist]
  rfl

/-- What the list of tokens is to be read as. -/
def readTokens : Option (List TokenInfo) → Tokens
  | none => .all
  | some tokens => .specific (tokens.map TokenInfo.entry)

theorem entryBytes_tokens {tokens : List TokenInfo} (hne : tokens ≠ []) (key : String) :
    entryBytes key (serializeTokenList (some tokens)) =
      utf8 key ++ 58 :: 10 :: dashText (tokenLines tokens) := by
  have hcolon : utf8 ":" = [58] := by decide
  have hempty : utf8 "" = [] := by decide
  have hbreak : utf8 "\n-" = [10, 45] := by decide
  have hlines (tokens : List TokenInfo) :
      utf8 (concat (tokens.map fun token => "\n-" ++ token.line)) ++ [10] =
        10 :: dashText (tokenLines tokens) := by
    induction tokens with
    | nil => decide
    | cons token tokens ih =>
      rw [List.map_cons, concat, utf8_append, List.append_assoc, ih, utf8_append, hbreak]
      simp [dashText, tokenLines]
  have hvalue : serializeTokenList (some tokens) =
      concat (tokens.map fun token => "\n-" ++ token.line) := by
    rw [serializeTokenList, if_neg (by simpa using hne)]
  have hstarts : startsWithLineBreak (concat (tokens.map fun token => "\n-" ++ token.line)) = true := by
    obtain ⟨token, tokens, rfl⟩ := List.exists_cons_of_ne_nil hne
    simp [startsWithLineBreak, concat]
  rw [entryBytes, hvalue, serializeKeyValue, hstarts, if_pos rfl, utf8_append, utf8_append,
    utf8_append, hcolon, hempty, List.append_nil, List.append_assoc, hlines]
  simp

/-- The value of the last entry is read back, whatever the list. -/
theorem tagKeyValue_tokens {tokens : Option (List TokenInfo)}
    (hread : ∀ token ∈ tokens.getD [], token.Readable)
    (hshort : ∀ token ∈ tokens.getD [], token.ShortSymbol) :
    tagKeyValue "tokens" (parseStr Tokens.fromStr)
        (entryBytes "tokens" (serializeTokenList tokens)) = some (readTokens tokens, []) := by
  have hsentence {s : String} {o : Tokens} (hline : SingleLine s)
      (ho : parseStr Tokens.fromStr (utf8 s) = some o) :
      tagKeyValue "tokens" (parseStr Tokens.fromStr) (entryBytes "tokens" s) = some (o, []) := by
    rw [← List.append_nil (entryBytes "tokens" s)]
    exact tagKeyValue_entry hline ho []
  match tokens with
  | none => exact hsentence (by decide) (by decide +kernel)
  | some [] => exact hsentence (by decide) (by decide +kernel)
  | some (token :: tokens) =>
    have hne := List.cons_ne_nil token tokens
    have hlines : ∀ line ∈ tokenLines (token :: tokens), NoBreak line := by
      intro line hline
      obtain ⟨t, ht, rfl⟩ := List.mem_map.1 hline
      exact (hread t ht).noBreak_line
    rw [entryBytes_tokens hne, ← List.append_nil (dashText _)]
    exact tagKeyValue_block hlines (parseStr_tokenLines hne hread hshort) rfl

/-! ## The message is read back -/

/-- What the application and the chain provide is on one line, and the time is a time. -/
structure EstablishSessionOptions.Proper [Chrono] (options : EstablishSessionOptions)
    (expires : DateTime) : Prop where
  chainId : SingleLine options.chainId
  domain : SingleLine options.domain
  expires_line : SingleLine options.expires
  expires : Chrono.parseDateTime options.expires = some expires

theorem tryFrom_startSession [Chrono] {options : EstablishSessionOptions} {expires : DateTime}
    (hoptions : options.Proper expires) (sessionKey : Pubkey) (tokens : Option (List TokenInfo))
    (hread : ∀ token ∈ tokens.getD [], token.Readable)
    (hshort : ∀ token ∈ tokens.getD [], token.ShortSymbol) :
    ∃ bytes, buildStartSessionIntentMessage options sessionKey tokens = .ok bytes ∧
      Message.tryFrom bytes = .ok
        { version := ⟨0, 4⟩, chainId := options.chainId, domain := options.domain, expires,
          sessionKey, tokens := readTokens tokens, extra := [] } := by
  refine ⟨_, buildIntentMessage_none _ (List.cons_ne_nil _ _), okOr_eq_ok.2 <|
    Option.map_eq_some_iff.2 ⟨(_, []), ?_, rfl⟩⟩
  have hversion : parseStr Version.fromStr (utf8 (currentMajor ++ "." ++ currentMinor)) =
      some ⟨0, 4⟩ := by decide +kernel
  have hkey : parseStr Pubkey.fromStr (utf8 sessionKey.toString) = some sessionKey := by
    rw [parseStr, ofUtf8?_utf8, Option.bind_some, Pubkey.fromStr_toString]
  have hexpires : parseStr Chrono.parseDateTime (utf8 options.expires) = some expires := by
    rw [parseStr, ofUtf8?_utf8, Option.bind_some, hoptions.expires]
  have htokens := tagKeyValue_tokens hread hshort
  rw [← List.append_nil (entryBytes _ _)] at htokens
  simp only [messageV0, delimited_eq_some, bind_eq_some, pure_eq_some, mapOpt_eq_some]
  refine ⟨_, _, preceded_tag_lineEnding messagePrefix _, [], ?_, [], eof_eq_some.2 ⟨rfl, rfl, rfl⟩⟩
  simp only [startSessionBody, List.flatMap_cons, List.flatMap_nil]
  exact ⟨_, _, ⟨⟨0, 4⟩, tagKeyValue_entry (by decide) hversion _, rfl⟩,
    _, _, tagKeyValue_entry hoptions.chainId (ofUtf8?_utf8 _) _,
    _, _, tagKeyValue_entry hoptions.domain (ofUtf8?_utf8 _) _,
    _, _, tagKeyValue_entry hoptions.expires_line hexpires _,
    _, _, tagKeyValue_entry (singleLine_toString sessionKey) hkey _,
    _, _, htokens, [], [], ⟨[], rfl, rfl⟩, rfl, rfl⟩

/-- Whatever is read as a list of tokens has token keys. -/
theorem isTokenKey_of_many {text rest : Bytes} {entries : List (SymbolOrMint × UiTokenAmount)}
    (h : Many tokenLine text entries rest) : ∀ entry ∈ entries, IsTokenKey (utf8 entry.1.text) := by
  induction h with
  | stop => exact List.forall_mem_nil _
  | round hline _ ih =>
    obtain ⟨key, amount, _, hkey, -, -, rfl⟩ := tokenLine_eq_some.1 hline
    refine List.forall_mem_cons.2 ⟨?_, ih⟩
    rwa [SymbolOrMint.text_fromStr]

theorem readable_of_tryFrom [Chrono] {bytes : Bytes} {m : Message} {tokens : List TokenInfo}
    (h : Message.tryFrom bytes = .ok m) (htokens : m.tokens = .specific (tokens.map TokenInfo.entry)) :
    ∀ token ∈ tokens, token.Readable := by
  obtain ⟨⟨_, rest⟩, hparse, rfl⟩ := Option.map_eq_some_iff.1 (okOr_eq_ok.1 h)
  obtain ⟨raw, -, hdenotes⟩ := messageV0_raw hparse
  obtain ⟨s, -, hs⟩ := Option.bind_eq_some_iff.1 hdenotes.tokens
  rw [htokens] at hs
  intro token htoken
  rw [← TokenInfo.isTokenKey_text]
  have hentry : token.entry ∈ tokens.map TokenInfo.entry := List.mem_map_of_mem htoken
  rcases fromStr_eq_some hs with ⟨-, hall⟩ | ⟨-, hnone⟩ | ⟨entries, _, hentries, -, hmany⟩
  · cases hall
  · rw [Tokens.specific.inj hnone] at hentry
    cases hentry
  · rw [Tokens.specific.inj hentries] at hentry
    exact isTokenKey_of_many hmany _ hentry

/-- **The round trip of the token list**: an undefined list is read as all tokens, and a list is
    read as its own entries in their order if and only if the symbols are in letters, digits and
    dots. -/
theorem startSession_tokens [Chrono] {options : EstablishSessionOptions} {expires : DateTime}
    (hoptions : options.Proper expires) (sessionKey : Pubkey) :
    (∃ bytes m, buildStartSessionIntentMessage options sessionKey none = .ok bytes ∧
      Message.tryFrom bytes = .ok m ∧ m.tokens = .all) ∧
    ∀ tokens : List TokenInfo, (∀ token ∈ tokens, token.ShortSymbol) →
      ((∃ bytes m, buildStartSessionIntentMessage options sessionKey (some tokens) = .ok bytes ∧
        Message.tryFrom bytes = .ok m ∧ m.tokens = .specific (tokens.map TokenInfo.entry)) ↔
        ∀ token ∈ tokens, token.Readable) := by
  constructor
  · obtain ⟨bytes, hbytes, hm⟩ := tryFrom_startSession hoptions sessionKey none
      (List.forall_mem_nil _) (List.forall_mem_nil _)
    exact ⟨bytes, _, hbytes, hm, rfl⟩
  · intro tokens hshort
    constructor
    · rintro ⟨bytes, m, -, hm, htokens⟩
      exact readable_of_tryFrom hm htokens
    · intro hread
      obtain ⟨bytes, hbytes, hm⟩ :=
        tryFrom_startSession hoptions sessionKey (some tokens) hread hshort
      exact ⟨bytes, _, hbytes, hm, rfl⟩

/-- Options of a session on a local chain. -/
def sampleOptions (extra : Option Record) : EstablishSessionOptions where
  chainId := "localnet"
  domain := "https://app.xyz"
  expires := "1970-01-01T00:00:00.000Z"
  extra := extra
  unlimited := true
  limits := []

def sampleKey : Pubkey := .ofNat 0x19c0cd5ed1c6f8f1b2cb15d5e8bd0e6d1cf3ea4bdbbf9a8f3e34c0f3a9f7d0c1

theorem sampleOptions_proper (extra : Option Record) :
    @EstablishSessionOptions.Proper ⟨fun _ => some ⟨0⟩⟩ (sampleOptions extra) ⟨0⟩ :=
  let _ : Chrono := ⟨fun _ => some ⟨0⟩⟩
  have hchain : SingleLine "localnet" := by decide
  have hdomain : SingleLine "https://app.xyz" := by decide
  have hexpires : SingleLine "1970-01-01T00:00:00.000Z" := by decide
  ⟨hchain, hdomain, hexpires, rfl⟩

/-- A token with six decimals. -/
def sampleToken (symbol : String) (amount : UInt64) : TokenInfo := ⟨amount, 6, sampleKey, some symbol⟩

theorem startSession_tokens_sample :
    let _ : Chrono := ⟨fun _ => some ⟨0⟩⟩
    let tokens := [sampleToken "USDC.s" 1500000, sampleToken "" 2]
    ∃ bytes m, buildStartSessionIntentMessage (sampleOptions none) sampleKey (some tokens) =
      .ok bytes ∧ Message.tryFrom bytes = .ok m ∧
      m.tokens = .specific [(.symbol "USDC.s", ⟨"1.5"⟩), (.mint sampleKey, ⟨"0.000002"⟩)] := by
  intro _ tokens
  have hentries : tokens.map TokenInfo.entry =
      [(.symbol "USDC.s", ⟨"1.5"⟩), (.mint sampleKey, ⟨"0.000002"⟩)] := by decide +kernel
  have hshort : ∀ token ∈ tokens, token.ShortSymbol := by
    simp [tokens, sampleToken, TokenInfo.ShortSymbol]
    decide
  have hread : ∀ token ∈ tokens, token.Readable := by
    simp [tokens, sampleToken, TokenInfo.Readable, TokenInfo.symbolOrMint, Base58.IsAlphanumCode]
  rw [← hentries]
  exact ((startSession_tokens (sampleOptions_proper none) sampleKey).2 tokens hshort).2 hread

/-- The line of `$WIF` is not read, and neither is what follows it. -/
theorem startSession_tokens_truncated :
    let _ : Chrono := ⟨fun _ => some ⟨0⟩⟩
    let tokens := [sampleToken "USDC.s" 1500000, sampleToken "$WIF" 2, sampleToken "FOGO" 7]
    (∀ token ∈ tokens, token.ShortSymbol) ∧
      (buildStartSessionIntentMessage (sampleOptions none) sampleKey (some tokens)).map
          (fun bytes => (Message.tryFrom bytes).map Message.tokens) =
        .ok (.ok (.specific [(.symbol "USDC.s", ⟨"1.5"⟩)])) ∧
      tokens.map TokenInfo.entry ≠ [(.symbol "USDC.s", ⟨"1.5"⟩)] := by
  intro _ tokens
  refine ⟨?_, by decide +kernel, fun h => absurd (congrArg List.length h) (by decide)⟩
  simp [tokens, sampleToken, TokenInfo.ShortSymbol]
  decide

/-- **Extra entries are not signed**: for options whose other fields are read back, the extra
    entries are if and only if there are none. -/
theorem establishSession_extra [Chrono] {options : EstablishSessionOptions} {expires : DateTime}
    {getTokenInfo : Pubkey × UInt64 → TokenInfo} (hoptions : options.Proper expires)
    (hread : ∀ token ∈ (establishSessionTokens options getTokenInfo).getD [], token.Readable)
    (hshort : ∀ token ∈ (establishSessionTokens options getTokenInfo).getD [], token.ShortSymbol)
    (sessionKey : Pubkey) :
    (∃ bytes m, establishSessionMessage options sessionKey getTokenInfo = .ok bytes ∧
      Message.tryFrom bytes = .ok m ∧ m.extra.Perm (options.extra.getD [])) ↔
      options.extra.getD [] = [] := by
  obtain ⟨bytes, hbytes, hm⟩ := tryFrom_startSession hoptions sessionKey _ hread hshort
  constructor
  · rintro ⟨_, m', hbytes', hm', hextra⟩
    rw [establishSessionMessage, hbytes] at hbytes'
    cases hbytes'
    rw [hm] at hm'
    cases hm'
    exact List.nil_perm.1 hextra
  · intro hextra
    exact ⟨bytes, _, hbytes, hm, List.nil_perm.2 hextra⟩

/-- Options that limit two tokens; the limit of the second is zero. -/
def limitedOptions : EstablishSessionOptions :=
  { sampleOptions none with
    unlimited := false
    limits := [(sampleKey, 1500000), (.ofNat 7, 0)] }

theorem establishSession_extra_none :
    let _ : Chrono := ⟨fun _ => some ⟨0⟩⟩
    ∃ bytes m, establishSessionMessage limitedOptions sampleKey
      (fun (_, amount) => sampleToken "USDC.s" amount) = .ok bytes ∧
      Message.tryFrom bytes = .ok m ∧ m.extra.Perm [] := by
  intro _
  have hproper := sampleOptions_proper none
  have htokens : (establishSessionTokens limitedOptions
      fun (_, amount) => sampleToken "USDC.s" amount).getD [] = [sampleToken "USDC.s" 1500000] := rfl
  have hlimited : limitedOptions.Proper _ :=
    ⟨hproper.chainId, hproper.domain, hproper.expires_line, hproper.expires⟩
  refine (establishSession_extra hlimited ?_ ?_ sampleKey).2 rfl
  · rw [htokens]
    simp [sampleToken, TokenInfo.Readable, TokenInfo.symbolOrMint, Base58.IsAlphanumCode]
  · rw [htokens, List.forall_mem_singleton]
    rintro _ ⟨⟩
    decide

/-- An extra entry that would be serialized does not reach the message. -/
theorem establishSession_extra_dropped :
    let _ : Chrono := ⟨fun _ => some ⟨0⟩⟩
    let extra := [("key", "value")]
    serializeExtra extra = .ok "key: value" ∧ "key" ∉ reservedKeys ∧
      (establishSessionMessage (sampleOptions (some extra)) sampleKey
          fun (mint, amount) => ⟨amount, 6, mint, none⟩).map
          (fun bytes => (Message.tryFrom bytes).map Message.extra) = .ok (.ok []) ∧
      ¬ List.Perm [] extra := by
  intro _ extra
  refine ⟨by decide +kernel, by decide, by decide +kernel, ?_⟩
  rw [List.nil_perm]
  exact List.cons_ne_nil _ _

end FogoSessions.SdkTs
