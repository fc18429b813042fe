import FogoSessions.Intents.Lines
import FogoSessions.SessionManager.Message
import Mathlib.Data.List.Forall2

/-!
# What of a signed text the result accounts for

The grammar of the message insists on the end of the text, but the version and the list of tokens
are values of their own that are converted by parsers which return after a prefix. `rawMessage` is
the grammar with the values left as they stand in the text; `NothingHidden` is the condition on
them under which the conversions drop nothing.
-/

namespace FogoSessions.SessionManager

open Lib Solana Sdk Intents Parser

/-- The values of a message, as they stand in its text. -/
structure RawMessage where
  version : Bytes
  chainId : Bytes
  domain : Bytes
  expires : Bytes
  sessionKey : Bytes
  tokens : Bytes
  extra : List (Bytes × String)

def rawMessage : Parser RawMessage :=
  delimited (preceded (tag messagePrefix) lineEnding)
    (do
      let version ← tagKeyValue "version" some
      let chainId ← tagKeyValue "chain_id" some
      let domain ← tagKeyValue "domain" some
      let expires ← tagKeyValue "expires" some
      let sessionKey ← tagKeyValue "session_key" some
      let tokens ← tagKeyValue "tokens" some
      let extra ← many0 (keyValue ofUtf8?)
      return { version, chainId, domain, expires, sessionKey, tokens, extra })
    eof

/-- The message's fields are the conversions of the values. -/
structure RawMessage.Denotes [Chrono] (raw : RawMessage) (m : Message) : Prop where
  version : parseStr Version.fromStr raw.version = some m.version
  chainId : ofUtf8? raw.chainId = some m.chainId
  domain : ofUtf8? raw.domain = some m.domain
  expires : parseStr Chrono.parseDateTime raw.expires = some m.expires
  sessionKey : parseStr Pubkey.fromStr raw.sessionKey = some m.sessionKey
  tokens : parseStr Tokens.fromStr raw.tokens = some m.tokens
  extra : collectExtra raw.extra = some m.extra

theorem tagKeyValue_raw {O : Type} {key : String} {parseTo : Bytes → Option O} {bs rest : Bytes}
    {o : O} : tagKeyValue key parseTo bs = some (o, rest) ↔
      ∃ v, tagKeyValue key some bs = some (v, rest) ∧ parseTo v = some o := by
  simp only [tagKeyValue_eq_some]
  constructor
  · rintro ⟨mid, v, hbs, hv, ho⟩
    exact ⟨v, ⟨mid, v, hbs, hv, rfl⟩, ho⟩
  · rintro ⟨v, ⟨mid, _, hbs, hv, ⟨⟩⟩, ho⟩
    exact ⟨mid, v, hbs, hv, ho⟩

theorem messageV0_raw [Chrono] {bs rest : Bytes} {m : Message}
    (h : messageV0 bs = some (m, rest)) :
    ∃ raw, rawMessage bs = some (raw, rest) ∧ raw.Denotes m := by
  simp only [messageV0, delimited_eq_some, bind_eq_some, pure_eq_some, mapOpt_eq_some] at h
  obtain ⟨_, _, hprefix, _, h, hend⟩ := h
  obtain ⟨version, _, ⟨version', hversion, hmajor⟩, chainId, _, hchainId, domain, _, hdomain,
    expires, _, hexpires, sessionKey, _, hsessionKey, tokens, _, htokens, extra, _,
    ⟨pairs, hpairs, hextra⟩, rfl, rfl⟩ := h
  have hversion' : version' = version := by
    split at hmajor
    · exact Option.some.inj hmajor
    · cases hmajor
  subst hversion'
  obtain ⟨v₁, h₁, hc₁⟩ := tagKeyValue_raw.1 hversion
  obtain ⟨v₂, h₂, hc₂⟩ := tagKeyValue_raw.1 hchainId
  obtain ⟨v₃, h₃, hc₃⟩ := tagKeyValue_raw.1 hdomain
  obtain ⟨v₄, h₄, hc₄⟩ := tagKeyValue_raw.1 hexpires
  obtain ⟨v₅, h₅, hc₅⟩ := tagKeyValue_raw.1 hsessionKey
  obtain ⟨v₆, h₆, hc₆⟩ := tagKeyValue_raw.1 htokens
  refine ⟨⟨v₁, v₂, v₃, v₄, v₅, v₆, pairs⟩, ?_, hc₁, hc₂, hc₃, hc₄, hc₅, hc₆, hextra⟩
  simp only [rawMessage, delimited_eq_some, bind_eq_some, pure_eq_some]
  exact ⟨_, _, hprefix, _, ⟨v₁, _, h₁, v₂, _, h₂, v₃, _, h₃, v₄, _, h₄, v₅, _, h₅, v₆, _, h₆,
    pairs, _, hpairs, rfl, rfl⟩, hend⟩

/-! ## The version -/

/-- The version's text is two numbers around a dot. -/
def VersionAccounted (text : Bytes) (version : Version) : Prop :=
  ∃ major minor : Bytes, text = major ++ 46 :: minor ∧
    (∀ c ∈ major ++ minor, isDecDigit c = true) ∧
    (parseUnsigned 8 major).map UInt8.ofNat = some version.major ∧
    (parseUnsigned 8 minor).map UInt8.ofNat = some version.minor

theorem version_eq_some {bs rest : Bytes} {version : Version} :
    Version.version bs = some (version, rest) ↔
      ∃ major minor, takeWhile1 isDecDigit bs = some (major, 46 :: (minor ++ rest)) ∧
        takeWhile1 isDecDigit (minor ++ rest) = some (minor, rest) ∧
        (parseUnsigned 8 major).map UInt8.ofNat = some version.major ∧
        (parseUnsigned 8 minor).map UInt8.ofNat = some version.minor := by
  simp only [Version.version, Version.integerU8, map_eq_some, Prod.exists, separatedPair_eq_some,
    mapOpt_eq_some, char, tag_eq_some]
  constructor
  · rintro ⟨_, _, ⟨_, ⟨major, hmajor, hmajorVal⟩, _, mid, ⟨-, rfl⟩, minor, hminor, hminorVal⟩, rfl⟩
    obtain ⟨-, rfl, -, -⟩ := takeWhile1_eq_some.1 hminor
    exact ⟨major, minor, hmajor, hminor, hmajorVal, hminorVal⟩
  · rintro ⟨major, minor, hmajor, hminor, hmajorVal, hminorVal⟩
    exact ⟨_, _, ⟨_, ⟨major, hmajor, hmajorVal⟩, _, _, ⟨rfl, rfl⟩, minor, hminor, hminorVal⟩, rfl⟩

theorem count_dot_digits {bs : Bytes} (h : ∀ c ∈ bs, isDecDigit c = true) : bs.count 46 = 0 :=
  List.count_eq_zero.2 fun hdot => absurd (h 46 hdot) (by decide)

/-- A version drops nothing if its text is made of digits and a single dot. -/
theorem versionAccounted_iff {text : Bytes} {version : Version}
    (h : parseStr Version.fromStr text = some version) :
    VersionAccounted text version ↔
      (∀ c ∈ text, isDecDigit c = true ∨ c = 46) ∧ text.count 46 = 1 := by
  obtain ⟨s, hs, hversion⟩ := Option.bind_eq_some_iff.1 h
  obtain ⟨⟨v, rest⟩, hparse, rfl⟩ := Option.map_eq_some_iff.1 hversion
  rw [ofUtf8?_eq_some.1 hs] at hparse
  constructor
  · rintro ⟨major, minor, rfl, hdigits, -, -⟩
    simp only [List.forall_mem_append] at hdigits
    constructor
    · intro c hc
      rcases List.mem_append.1 hc with hc | hc
      · exact Or.inl (hdigits.1 c hc)
      · rcases List.mem_cons.1 hc with rfl | hc
        · exact Or.inr rfl
        · exact Or.inl (hdigits.2 c hc)
    · rw [List.count_append, List.count_cons_self, count_dot_digits hdigits.1,
        count_dot_digits hdigits.2]
  · rintro ⟨hchars, hcount⟩
    obtain ⟨major, minor, hmajor, hminor, hmajorVal, hminorVal⟩ := version_eq_some.1 hparse
    obtain ⟨-, rfl, hmajorDigits, -⟩ := takeWhile1_eq_some.1 hmajor
    obtain ⟨-, -, hminorDigits, hstop⟩ := takeWhile1_eq_some.1 hminor
    rw [List.count_append, List.count_cons_self, List.count_append, count_dot_digits hmajorDigits,
      count_dot_digits hminorDigits] at hcount
    -- the rest starts with no digit and holds no dot, so there is none
    have hrest : rest = [] := by
      cases rest with
      | nil => rfl
      | cons c rest =>
        rcases hchars c (by simp) with hc | rfl
        · rw [hstop c rfl] at hc
          cases hc
        · rw [List.count_cons_self] at hcount
          omega
    subst hrest
    rw [List.append_nil]
    exact ⟨major, minor, rfl, List.forall_mem_append.2 ⟨hmajorDigits, hminorDigits⟩, hmajorVal,
      hminorVal⟩

/-! ## The list of tokens -/

/-- A symbol or a mint in a list of tokens. -/
def IsTokenKey (key : Bytes) : Prop := key ≠ [] ∧ ∀ c ∈ key, isAlphanum c = true ∨ c = 46

/-- The entry is the key and the value of the line, the dash left out. -/
def IsEntryOf (line : Bytes) (entry : SymbolOrMint × UiTokenAmount) : Prop :=
  ∃ key amount : String, IsTokenKey (utf8 key) ∧
    (line = utf8 key ++ 58 :: 32 :: utf8 amount ∨ line = utf8 key ++ [58] ∧ amount = "") ∧
    entry = (.fromStr key, ⟨amount⟩)

/-- Every line with a dash is an entry, and there are no others. -/
inductive TokensAccounted (text : Bytes) : Tokens → Prop where
  | all (h : text = utf8 unlimitedTokenPermissionsValue) : TokensAccounted text .all
  | none (h : text = utf8 tokenlessPermissionsValue) : TokensAccounted text (.specific [])
  | list {lines : List Bytes} {entries : List (SymbolOrMint × UiTokenAmount)}
      (hlines : Many dashLine text lines []) (hentries : List.Forall₂ IsEntryOf lines entries) :
      TokensAccounted text (.specific entries)

/-- A key and a value on one line. -/
def HasValue (line : Bytes) : Prop :=
  ∃ key amount : String, IsTokenKey (utf8 key) ∧ line = utf8 key ++ 58 :: 32 :: utf8 amount

/-- Every line is a key and a value; the last one may be a key alone. -/
def Readable : List Bytes → Prop
  | [] => True
  | [line] => HasValue line ∨ ∃ key : String, IsTokenKey (utf8 key) ∧ line = utf8 key ++ [58]
  | line :: lines => HasValue line ∧ Readable lines

theorem symbolOrMint_eq_some {bs key rest : Bytes} :
    symbolOrMint bs = some (key, 58 :: rest) ↔ IsTokenKey key ∧ bs = key ++ 58 :: rest := by
  rw [symbolOrMint, takeWhile1_eq_some_of_stop (by decide)]
  simp [IsTokenKey]

theorem tokenLine_eq_some {bs rest : Bytes} {entry : SymbolOrMint × UiTokenAmount} :
    tokenLine bs = some (entry, rest) ↔
      ∃ (key amount : String) (mid : Bytes), IsTokenKey (utf8 key) ∧
        bs = 45 :: (utf8 key ++ 58 :: mid) ∧ value mid = some (utf8 amount, rest) ∧
        entry = (.fromStr key, ⟨amount⟩) := by
  have hdash : utf8 "-" = [45] := by decide
  simp only [tokenLine, mapOpt_eq_some, Prod.exists, preceded_eq_some, tag_eq_some,
    keyValueWithKeyType_eq_some, symbolOrMint_eq_some, Option.map_eq_some_iff, ofUtf8?_eq_some,
    hdash]
  constructor
  · rintro ⟨_, amount, ⟨_, _, ⟨-, rfl⟩, mid, _, ⟨hkey, rfl⟩, hvalue, rfl⟩, key, rfl, rfl⟩
    exact ⟨key, amount, mid, hkey, rfl, hvalue, rfl⟩
  · rintro ⟨key, amount, mid, hkey, rfl, hvalue, rfl⟩
    exact ⟨utf8 key, amount, ⟨_, _, ⟨rfl, rfl⟩, mid, utf8 amount, ⟨hkey, rfl⟩, hvalue, rfl⟩, key, rfl,
      rfl⟩

theorem shrinks_tokenLine : Shrinks tokenLine := by
  intro bs entry rest h
  obtain ⟨key, amount, mid, -, rfl, hvalue, -⟩ := tokenLine_eq_some.1 h
  obtain ⟨consumed, rfl⟩ := (isValue_iff.2 hvalue).suffix
  simp only [List.length_cons, List.length_append]
  omega

theorem fromStr_eq_some {s : String} {tokens : Tokens} (h : Tokens.fromStr s = some tokens) :
    s = unlimitedTokenPermissionsValue ∧ tokens = .all ∨
    s = tokenlessPermissionsValue ∧ tokens = .specific [] ∨
    ∃ entries rest, tokens = .specific entries ∧ entries ≠ [] ∧
      Many tokenLine (utf8 s) entries rest := by
  unfold Tokens.fromStr at h
  split at h
  · rename_i hs
    cases h
    exact Or.inl ⟨hs, rfl⟩
  split at h
  · rename_i hs
    cases h
    exact Or.inr (Or.inl ⟨hs, rfl⟩)
  · obtain ⟨⟨entries, rest⟩, hmany, rfl⟩ := Option.map_eq_some_iff.1 h
    obtain ⟨hne, hmany⟩ := (many1_eq_some shrinks_tokenLine).1 hmany
    exact Or.inr (Or.inr ⟨entries, rest, rfl, hne, hmany⟩)

/-- A value that starts with a dash is made of lines that do. -/
theorem value_dashLines {bs v rest : Bytes} (h : value bs = some (v, rest))
    (hdash : ∃ text, v = 45 :: text) : ∃ lines, Many dashLine v lines [] := by
  obtain ⟨text, rfl⟩ := hdash
  rcases value_eq_some.1 h with ⟨_, -, hbreak, -⟩ | ⟨lines, _, -, -, hmany⟩ | ⟨-, hv, -⟩
  · have hline : dashLine (45 :: text) = some (text, []) :=
      dashLine_eq_some.2 ⟨[], by simp, fun c hc => hbreak c (List.mem_cons_of_mem 45 hc),
        Or.inr (Or.inr ⟨rfl, rfl⟩)⟩
    exact ⟨[text], .round hline (.stop rfl)⟩
  · obtain ⟨consumed, hconsumed, hmany'⟩ := many_dashLine_prefix hmany
    rw [List.append_cancel_right hconsumed]
    exact ⟨lines, hmany'⟩
  · cases hv

theorem IsTokenKey.noBreak {key : Bytes} (h : IsTokenKey key) : NoBreak key := by
  intro c hc
  have hchar := h.2 c hc
  constructor <;> rintro rfl <;> revert hchar <;> decide

/-- A key with its colon is on one line. -/
theorem IsTokenKey.noBreak_colon {key : Bytes} (h : IsTokenKey key) : NoBreak (key ++ [58]) := by
  intro c hc
  rcases List.mem_append.1 hc with hc | hc
  · exact h.noBreak c hc
  · rw [List.mem_singleton.1 hc]
    decide

/-- Readable lines are all read. -/
theorem many_tokenLine_of_readable :
    ∀ {lines : List Bytes} {text : Bytes}, Many dashLine text lines [] → Readable lines →
      ∃ entries, Many tokenLine text entries [] ∧ List.Forall₂ IsEntryOf lines entries
  | [], _, hlines, _ => by
    cases hlines
    exact ⟨[], .stop rfl, .nil⟩
  | line :: lines, text, hlines, hread => by
    obtain ⟨mid, hline, more⟩ :
        ∃ mid, dashLine text = some (line, mid) ∧ Many dashLine mid lines [] := by
      cases hlines with
      | round hline more => exact ⟨_, hline, more⟩
    obtain ⟨ending, rfl, hbreak, hending⟩ := dashLine_eq_some.1 hline
    have hvalueLine (hline : HasValue line) (hmore : Readable lines) :
        ∃ entries, Many tokenLine (45 :: (line ++ (ending ++ mid))) entries [] ∧
          List.Forall₂ IsEntryOf (line :: lines) entries := by
      obtain ⟨entries, hentries, hall⟩ := many_tokenLine_of_readable more hmore
      obtain ⟨key, amount, hkey, rfl⟩ := hline
      have hamount : NoBreak (utf8 amount) := fun c hc => hbreak c (by simp [hc])
      have hread := tokenLine_eq_some.2 ⟨key, amount, 32 :: (utf8 amount ++ (ending ++ mid)), hkey,
        rfl, value_eq_some.2 (Or.inl ⟨ending, rfl, hamount, hending⟩), rfl⟩
      exact ⟨_, .round (by simpa using hread) hentries,
        .cons ⟨key, amount, hkey, Or.inl rfl, rfl⟩ hall⟩
    cases lines with
    | cons line' lines => exact hvalueLine hread.1 hread.2
    | nil =>
      rcases hread with hread | ⟨key, hkey, rfl⟩
      · exact hvalueLine hread trivial
      · cases more
        -- a key alone has an empty value, at the end of the text or before a last line break
        have hvalue : value (ending ++ []) = some (utf8 "", []) := by
          refine value_eq_some.2 ?_
          rcases hending with rfl | rfl | ⟨rfl, -⟩
          · exact Or.inr (Or.inl ⟨[], [10], Or.inl rfl, rfl, .stop rfl⟩)
          · exact Or.inr (Or.inl ⟨[], [13, 10], Or.inr rfl, rfl, .stop rfl⟩)
          · exact Or.inr (Or.inr ⟨rfl, rfl, rfl⟩)
        have hread := tokenLine_eq_some.2 ⟨key, "", _, hkey, rfl, hvalue, rfl⟩
        exact ⟨_, .round (by simpa using hread) (.stop rfl),
          .cons ⟨key, "", hkey, Or.inr ⟨rfl, rfl⟩, rfl⟩ .nil⟩

/-- If as many entries are read as there are lines, the lines are readable: a key alone takes the
    lines below it for its value. -/
theorem readable_of_many_tokenLine :
    ∀ {lines : List Bytes} {text rest : Bytes} {entries : List (SymbolOrMint × UiTokenAmount)},
      Many dashLine text lines [] → Many tokenLine text entries rest →
      lines.length = entries.length → Readable lines
  | [], _, _, _, _, _, _ => trivial
  | line :: lines, text, rest, entries, hlines, hentries, hlen => by
    obtain ⟨entry, entries, rfl⟩ := List.exists_cons_of_length_eq_add_one hlen.symm
    obtain ⟨mid, hline, more⟩ :
        ∃ mid, dashLine text = some (line, mid) ∧ Many dashLine mid lines [] := by
      cases hlines with
      | round hline more => exact ⟨_, hline, more⟩
    obtain ⟨mid', hentry, more'⟩ :
        ∃ mid, tokenLine text = some (entry, mid) ∧ Many tokenLine mid entries rest := by
      cases hentries with
      | round hentry more => exact ⟨_, hentry, more⟩
    obtain ⟨ending, rfl, hbreak, hending⟩ := dashLine_eq_some.1 hline
    obtain ⟨key, amount, value', hkey, hsplit, hvalue, -⟩ := tokenLine_eq_some.1 hentry
    replace hsplit := List.tail_eq_of_cons_eq hsplit
    -- no line follows a key alone
    have hbare (hnil : lines = []) (hline : line = utf8 key ++ [58]) : Readable (line :: lines) := by
      subst hnil
      exact Or.inr ⟨key, hkey, hline⟩
    rcases value_eq_some.1 hvalue with ⟨ending', rfl, hamount, hending'⟩ |
      ⟨lines', ending', hending', rfl, hmany⟩ | ⟨rfl, -, rfl⟩
    · have hsplit : line ++ (ending ++ mid) =
          (utf8 key ++ [58] ++ 32 :: utf8 amount) ++ (ending' ++ mid') := by
        rw [hsplit]
        simp
      have hvalueBreak : NoBreak (32 :: utf8 amount) := fun c hc => by
        rcases List.mem_cons.1 hc with rfl | hc
        · decide
        · exact hamount c hc
      obtain ⟨hline, hrest⟩ := line_unique hbreak (hkey.noBreak_colon.append hvalueBreak)
        ⟨ending, mid, rfl, hending⟩ ⟨ending', mid', rfl, hending'⟩ hsplit
      have hmid : mid = mid' := lineEnd_unique hending hending' hrest
      subst hmid
      have hread := readable_of_many_tokenLine more more' (Nat.succ_inj.1 hlen)
      have hvalueLine : HasValue line := ⟨key, amount, hkey, by rw [hline]; simp⟩
      cases lines with
      | nil => exact Or.inl hvalueLine
      | cons line' lines => exact ⟨hvalueLine, hread⟩
    · have hlineEnd : IsLineEnd ending' (utf8 amount ++ mid') := by
        rcases hending' with rfl | rfl
        · exact Or.inl rfl
        · exact Or.inr (Or.inl rfl)
      have hsplit : line ++ (ending ++ mid) =
          (utf8 key ++ [58]) ++ (ending' ++ (utf8 amount ++ mid')) := by
        rw [hsplit]
        simp
      obtain ⟨hline, hrest⟩ := line_unique hbreak hkey.noBreak_colon
        ⟨ending, mid, rfl, hending⟩ ⟨ending', _, rfl, hlineEnd⟩ hsplit
      have hmid : mid = utf8 amount ++ mid' := lineEnd_unique hending hlineEnd hrest
      rw [hmid] at more
      obtain ⟨rfl, rfl⟩ := more.unique hmany
      obtain ⟨rfl, -⟩ := more'.of_nil shrinks_tokenLine
      exact hbare (List.eq_nil_of_length_eq_zero (Nat.succ_inj.1 hlen)) hline
    · obtain ⟨rfl, -⟩ := more'.of_nil shrinks_tokenLine
      have hsplit : line ++ (ending ++ mid) = (utf8 key ++ [58]) ++ [] := by
        rw [hsplit]
        simp
      obtain ⟨hline, -⟩ := line_unique hbreak hkey.noBreak_colon
        ⟨ending, mid, rfl, hending⟩ ⟨[], [], rfl, Or.inr (Or.inr ⟨rfl, rfl⟩)⟩ hsplit
      exact hbare (List.eq_nil_of_length_eq_zero (Nat.succ_inj.1 hlen)) hline

/-! ## The message -/

/-- Nothing of the version and of the list of tokens is dropped. -/
structure RawMessage.Accounted (raw : RawMessage) (m : Message) : Prop where
  version : VersionAccounted raw.version m.version
  tokens : TokensAccounted raw.tokens m.tokens

/-- The version is made of digits and one dot, and every line of the list of tokens is readable. -/
structure RawMessage.NothingHidden (raw : RawMessage) : Prop where
  version_chars : ∀ c ∈ raw.version, isDecDigit c = true ∨ c = 46
  version_dot : raw.version.count 46 = 1
  tokens : ∀ lines, Many dashLine raw.tokens lines [] → Readable lines

theorem rawMessage_tokens {bs rest : Bytes} {raw : RawMessage}
    (h : rawMessage bs = some (raw, rest)) :
    ∃ mid rest, value mid = some (raw.tokens, rest) := by
  simp only [rawMessage, delimited_eq_some, bind_eq_some, pure_eq_some] at h
  obtain ⟨_, _, -, _, ⟨_, _, -, _, _, -, _, _, -, _, _, -, _, _, -, tokens, _, htokens, _, _, -, rfl,
    -⟩, -⟩ := h
  obtain ⟨mid, _, -, hv, ⟨⟩⟩ := tagKeyValue_eq_some.1 htokens
  exact ⟨mid, _, hv⟩

/-- Neither of the two sentences is made of lines with a dash. -/
theorem not_many_dashLine {text : Bytes} {lines : List Bytes} (hne : text ≠ [])
    (hdash : text.head? ≠ some 45) : ¬ Many dashLine text lines [] := by
  intro h
  cases h with
  | stop => exact hne rfl
  | round hline =>
    obtain ⟨ending, rfl, -, -⟩ := dashLine_eq_some.1 hline
    exact hdash rfl

theorem tokensAccounted_iff {bs text rest : Bytes} {tokens : Tokens}
    (hvalue : value bs = some (text, rest)) (h : parseStr Tokens.fromStr text = some tokens) :
    TokensAccounted text tokens ↔ ∀ lines, Many dashLine text lines [] → Readable lines := by
  obtain ⟨s, hs, htokens⟩ := Option.bind_eq_some_iff.1 h
  rw [← ofUtf8?_eq_some.1 hs] at hvalue ⊢
  rcases fromStr_eq_some htokens with ⟨rfl, rfl⟩ | ⟨rfl, rfl⟩ | ⟨entries, rest', rfl, hne, hmany⟩
  · refine iff_of_true (.all rfl) fun lines hlines => absurd hlines ?_
    exact not_many_dashLine (by decide) (by decide)
  · refine iff_of_true (.none rfl) fun lines hlines => absurd hlines ?_
    exact not_many_dashLine (by decide) (by decide)
  · constructor
    · intro haccounted lines hlines
      cases haccounted with
      | none => exact absurd rfl hne
      | list hlines' hentries =>
        obtain ⟨rfl, -⟩ := hlines.unique hlines'
        exact readable_of_many_tokenLine hlines hmany hentries.length_eq
    · intro hread
      have hdash : ∃ text, utf8 s = 45 :: text := by
        cases hmany with
        | stop => exact absurd rfl hne
        | round hentry =>
          obtain ⟨_, _, _, -, htext, -, -⟩ := tokenLine_eq_some.1 hentry
          exact ⟨_, htext⟩
      obtain ⟨lines, hlines⟩ := value_dashLines hvalue hdash
      obtain ⟨entries', hmany', hentries⟩ := many_tokenLine_of_readable hlines (hread lines hlines)
      obtain ⟨rfl, -⟩ := hmany.unique hmany'
      exact .list hlines hentries

/-- **What an accepted message accounts for**: its fields are the conversions of the values in its
    text, and nothing of the version and of the list of tokens is dropped if and only if the version
    is made of digits and one dot and every line of the list is readable. -/
theorem Message.tryFrom_accounted [Chrono] {bs : Bytes} {m : Message}
    (h : Message.tryFrom bs = .ok m) :
    ∃ raw, rawMessage bs = some (raw, []) ∧ raw.Denotes m ∧
      (raw.Accounted m ↔ raw.NothingHidden) := by
  obtain ⟨⟨_, rest⟩, hparse, rfl⟩ := Option.map_eq_some_iff.1 (okOr_eq_ok.1 h)
  obtain ⟨raw, hraw, hdenotes⟩ := messageV0_raw hparse
  have hrest : rest = [] := by
    simp only [rawMessage, delimited_eq_some, eof_eq_some] at hraw
    obtain ⟨_, _, -, _, -, _, -, -, hrest⟩ := hraw
    exact hrest
  subst hrest
  obtain ⟨_, _, hvalue⟩ := rawMessage_tokens hraw
  have hversion := versionAccounted_iff hdenotes.version
  have htokens := tokensAccounted_iff hvalue hdenotes.tokens
  refine ⟨raw, hraw, hdenotes, ⟨fun haccounted => ?_, fun hnothing => ?_⟩⟩
  · obtain ⟨hchars, hdot⟩ := hversion.1 haccounted.version
    exact ⟨hchars, hdot, htokens.1 haccounted.tokens⟩
  · exact ⟨hversion.2 ⟨hnothing.version_chars, hnothing.version_dot⟩, htokens.2 hnothing.tokens⟩

/-- A message with the given version and tokens. -/
def sampleText (version tokens : String) : Bytes :=
  messagePrefix ++ utf8 ("\nversion: " ++ version ++ "\nchain_id: localnet\n" ++
    "domain: https://app.xyz\nexpires: 1970-01-01T00:00:00Z\n" ++
    "session_key: 2jKr1met2kCteHoTNtkTL51Sgw7rQKcF4YNdP5xfkPRB\ntokens:" ++ tokens ++ "\n")

theorem Message.tryFrom_accounted_two :
    let _ : Chrono := ⟨fun _ => some ⟨0⟩⟩
    ∃ m raw, Message.tryFrom (sampleText "0.4" "\n-USDC.s: 100\n-SOL: 5") = .ok m ∧
      rawMessage (sampleText "0.4" "\n-USDC.s: 100\n-SOL: 5") = some (raw, []) ∧
      (raw.Accounted m ↔ raw.NothingHidden) := by
  intro _
  obtain ⟨m, hm⟩ : ∃ m, Message.tryFrom (sampleText "0.4" "\n-USDC.s: 100\n-SOL: 5") = .ok m := by
    have hok : (Message.tryFrom (sampleText "0.4" "\n-USDC.s: 100\n-SOL: 5")).isOk = true := by
      decide +kernel
    cases h : Message.tryFrom (sampleText "0.4" "\n-USDC.s: 100\n-SOL: 5") with
    | ok m => exact ⟨m, rfl⟩
    | error e => rw [h] at hok; cases hok
  obtain ⟨raw, hraw, -, hiff⟩ := Message.tryFrom_accounted hm
  exact ⟨m, raw, hm, hraw, hiff⟩

/-- The line of `$WIF` is signed and ignored. -/
theorem Message.tryFrom_accounted_hidden :
    let _ : Chrono := ⟨fun _ => some ⟨0⟩⟩
    let text := sampleText "0.4" "\n-USDC.s: 100\n-$WIF: 5"
    (Message.tryFrom text).map Message.tokens = .ok (.specific [(.symbol "USDC.s", ⟨"100"⟩)]) ∧
      ∀ m raw, Message.tryFrom text = .ok m → rawMessage text = some (raw, []) →
        ¬ raw.Accounted m := by
  intro _ text
  have htokens : (Message.tryFrom text).map Message.tokens =
      .ok (.specific [(.symbol "USDC.s", ⟨"100"⟩)]) := by decide +kernel
  refine ⟨htokens, fun m raw hm hraw haccounted => ?_⟩
  have hlines : (rawMessage text).map (fun r => many0 dashLine r.1.tokens) =
      some (some ([utf8 "USDC.s: 100", utf8 "$WIF: 5"], [])) := by decide +kernel
  rw [hraw] at hlines
  have hmany := (many0_eq_some shrinks_dashLine).1 (Option.some.inj hlines)
  rw [hm] at htokens
  have hm' : m.tokens = .specific [(.symbol "USDC.s", ⟨"100"⟩)] := Except.ok.inj htokens
  have haccounted := haccounted.tokens
  rw [hm'] at haccounted
  cases haccounted with
  | list hlines' hentries =>
    obtain ⟨rfl, -⟩ := hmany.unique hlines'
    exact absurd hentries.length_eq (by decide)

end FogoSessions.SessionManager
