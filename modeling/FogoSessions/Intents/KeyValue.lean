import FogoSessions.Lib.Parser
import FogoSessions.Solana.Pubkey

/-!
# The text of an intent

`solana-intents/src/key_value.rs`, `version.rs` and `symbol_or_mint.rs`: an intent's text is a list
of `key: value` lines; a value can also stand on lines of its own that start with a dash.
-/

namespace FogoSessions.Intents

open Lib Solana

def isDecDigit (b : UInt8) : Bool := 48 ≤ b ∧ b ≤ 57

/-- An ASCII letter or digit. -/
def isAlphanum (b : UInt8) : Bool := isDecDigit b ∨ (65 ≤ b ∧ b ≤ 90) ∨ (97 ≤ b ∧ b ≤ 122)

section

open Parser

/-- The end of a value's line. -/
def lineEndingOrEof : Parser Bytes := alt lineEnding eof

/-- The value after the colon: the rest of the line after a space, or the following lines that start
    with a dash, or nothing. -/
def value : Parser Bytes :=
  alt (delimited (tag (utf8 " ")) notLineEnding lineEndingOrEof) <|
  alt (preceded lineEnding
      (recognize (many0 (delimited (tag (utf8 "-")) notLineEnding lineEndingOrEof))))
    eof

/-- `parseTo` is the conversion of the value's bytes. -/
def keyValueWithKeyType {K O : Type} (key : Parser K) (parseTo : Bytes → Option O) :
    Parser (K × O) :=
  mapOpt (separatedPair key (char 58) value) fun (key, val) => (parseTo val).map (key, ·)

/-- A line with a given key. -/
def tagKeyValue {O : Type} (key : String) (parseTo : Bytes → Option O) : Parser O :=
  Prod.snd <$> keyValueWithKeyType (tag (utf8 key)) parseTo

/-- A line with any key in snake case. -/
def keyValue {O : Type} (parseTo : Bytes → Option O) : Parser (Bytes × O) :=
  keyValueWithKeyType (takeWhile1 fun c => isAlphanum c ∨ c = 95) parseTo

end

/-! ## Values -/

/-- `ParseTo` through `str::parse`. -/
def parseStr {O : Type} (fromStr : String → Option O) (bs : Bytes) : Option O :=
  (ofUtf8? bs).bind fromStr

def parseU64 (bs : Bytes) : Option UInt64 := (parseUnsigned 64 bs).map UInt64.ofNat

structure Version where
  major : UInt8
  minor : UInt8
deriving DecidableEq

namespace Version

open Parser

def integerU8 : Parser UInt8 :=
  mapOpt (takeWhile1 isDecDigit) fun val => (parseUnsigned 8 val).map UInt8.ofNat

def version : Parser Version :=
  (fun (major, minor) => { major, minor }) <$> separatedPair integerU8 (char 46) integerU8

/-- `FromStr`: what follows the version is ignored. -/
def fromStr (s : String) : Option Version := (version (utf8 s)).map Prod.fst

end Version

inductive SymbolOrMint where
  | symbol (symbol : String)
  | mint (mint : Pubkey)
deriving DecidableEq

def SymbolOrMint.fromStr (s : String) : SymbolOrMint :=
  match Pubkey.fromStr s with
  | some key => .mint key
  | none => .symbol s

namespace SymbolOrMint

def text : SymbolOrMint → String
  | symbol s => s
  | mint key => key.toString

/-- A text is read as what it says. -/
theorem text_fromStr (s : String) : (fromStr s).text = s := by
  unfold fromStr
  split
  · rename_i key hkey
    exact Pubkey.toString_of_fromStr hkey
  · rfl

theorem fromStr_mint (key : Pubkey) : fromStr key.toString = mint key := by
  rw [fromStr, Pubkey.fromStr_toString]

/-- A short text is a symbol: keys have at least 32 characters. -/
theorem fromStr_symbol {s : String} (h : s.utf8ByteSize < 32) : fromStr s = symbol s := by
  unfold fromStr
  split
  · rename_i key hkey
    rw [← Pubkey.toString_of_fromStr hkey, Pubkey.utf8ByteSize_toString] at h
    exact absurd h (Nat.not_lt.2 key.length_toString.1)
  · rfl

end SymbolOrMint

example : Parser.many0 (keyValue ofUtf8?) (utf8 "foo:\n-baz\r\nbar_1: 1 \nqux:") =
    some ([(utf8 "foo", "-baz\r\n"), (utf8 "bar_1", "1 "), (utf8 "qux", "")], []) := by
  decide +kernel

end FogoSessions.Intents
