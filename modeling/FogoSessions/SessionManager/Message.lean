import FogoSessions.Intents.KeyValue
import FogoSessions.Sdk.Session

/-!
# The session intent

`session-manager/src/message.rs`: the text a user signs to start a session.
-/

namespace FogoSessions.SessionManager

open Lib Solana Sdk Intents

/-- What is read of a `DateTime<FixedOffset>`. -/
structure DateTime where
  timestamp : UnixTimestamp
deriving DecidableEq

/-- The `chrono` crate. -/
class Chrono where
  parseDateTime : String → Option DateTime

/-- `MESSAGE_PREFIX`. -/
def messagePrefix : Bytes := utf8 <|
  "Fogo Sessions:\nSigning this intent will allow this app to interact with your on-chain " ++
  "balances. Please make sure you trust this app and the domain in the message matches the " ++
  "domain of the current web application.\n"

/-- `UNLIMITED_TOKEN_PERMISSIONS_VALUE`. -/
def unlimitedTokenPermissionsValue : String := "this app may spend any amount of any token"

/-- `TOKENLESS_PERMISSIONS_VALUE`. -/
def tokenlessPermissionsValue : String := "this app may not spend any tokens"

/-- `RESERVED_KEYS`. -/
def reservedKeys : List String :=
  ["version", "chain_id", "domain", "expires", "session_key", "tokens"]

structure UiTokenAmount where
  text : String
deriving DecidableEq

inductive Tokens where
  | specific (tokens : List (SymbolOrMint × UiTokenAmount))
  | all
deriving DecidableEq

structure Message where
  version : Version
  chainId : String
  domain : String
  expires : DateTime
  sessionKey : Pubkey
  tokens : Tokens
  extra : List (String × String)
deriving DecidableEq

section

open Parser

def symbolOrMint : Parser Bytes := takeWhile1 fun c => isAlphanum c ∨ c = 46

/-- A line of the list of tokens. -/
def tokenLine : Parser (SymbolOrMint × UiTokenAmount) :=
  mapOpt (preceded (tag (utf8 "-")) (keyValueWithKeyType symbolOrMint ofUtf8?)) fun (key, value) =>
    (ofUtf8? key).map fun key => (SymbolOrMint.fromStr key, ⟨value⟩)

/-- `FromStr`: what follows the last line that can be read is ignored. -/
def Tokens.fromStr (s : String) : Option Tokens :=
  if s = unlimitedTokenPermissionsValue then some .all
  else if s = tokenlessPermissionsValue then some (.specific [])
  else (many1 tokenLine (utf8 s)).map fun (tokens, _) => .specific tokens

/-- The extra pairs, none of which may repeat a key or have a reserved one. -/
def collectExtra (pairs : List (Bytes × String)) : Option (List (String × String)) :=
  pairs.foldlM
    (fun m (key, value) => do
      let key ← ofUtf8? key
      if key ∈ reservedKeys ∨ key ∈ m.map Prod.fst then none else some (m ++ [(key, value)]))
    []

def messageV0 [Chrono] : Parser Message :=
  delimited (preceded (tag messagePrefix) lineEnding)
    (do
      let version ← mapOpt (tagKeyValue "version" (parseStr Version.fromStr)) fun version =>
        if version.major = Sdk.major then some version else none
      let chainId ← tagKeyValue "chain_id" ofUtf8?
      let domain ← tagKeyValue "domain" ofUtf8?
      let expires ← tagKeyValue "expires" (parseStr Chrono.parseDateTime)
      let sessionKey ← tagKeyValue "session_key" (parseStr Pubkey.fromStr)
      let tokens ← tagKeyValue "tokens" (parseStr Tokens.fromStr)
      let extra ← mapOpt (many0 (keyValue ofUtf8?)) collectExtra
      return { version, chainId, domain, expires, sessionKey, tokens, extra })
    eof

end

/-- `TryFrom<Vec<u8>>`; which parse error it is makes no difference. -/
def Message.tryFrom [Chrono] (message : Bytes) : Except Unit Message :=
  okOr ((messageV0 message).map Prod.fst) ⟨⟩

example : Tokens.fromStr "-foo: 5467.672\n-So11111111111111111111111111111111111111112: 766" =
    some (.specific [
      (.symbol "foo", ⟨"5467.672"⟩),
      (.mint (.ofNat 0x069b8857feab8184fb687f634618c035dac439dc1aeb3b5598a0f00000000001),
        ⟨"766"⟩)]) := by
  decide +kernel

end FogoSessions.SessionManager
