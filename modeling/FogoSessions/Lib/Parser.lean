import FogoSessions.Lib.Bytes
import Mathlib.Tactic.Common

/-!
# Parser combinators

The combinators of the `nom` crate on byte strings, in their complete (not streaming) form: a parser
consumes a prefix of its input and returns what is left, or fails. Which error a failure is makes no
difference to any caller, so it is not kept.
-/

namespace Lib

def Parser (α : Type) := Bytes → Option (α × Bytes)

namespace Parser

variable {α β γ : Type}

instance : Monad Parser := inferInstanceAs (Monad (StateT Bytes Option))

instance : LawfulMonad Parser := inferInstanceAs (LawfulMonad (StateT Bytes Option))

theorem pure_eq_some {a b : α} {bs rest : Bytes} :
    (pure a : Parser α) bs = some (b, rest) ↔ a = b ∧ bs = rest := by
  show some (a, bs) = some (b, rest) ↔ _
  simp

theorem bind_eq_some {x : Parser α} {f : α → Parser β} {bs : Bytes} {r : β × Bytes} :
    (x >>= f) bs = some r ↔ ∃ a rest, x bs = some (a, rest) ∧ f a rest = some r := by
  show (x bs).bind (fun p => f p.1 p.2) = some r ↔ _
  rw [Option.bind_eq_some_iff]
  exact Prod.exists

/-! ## The combinators -/

/-- The given bytes. -/
def tag (t : Bytes) : Parser Bytes := fun bs =>
  if bs.take t.length = t then some (t, bs.drop t.length) else none

def char (c : UInt8) : Parser Bytes := tag [c]

/-- The longest nonempty prefix of bytes that satisfy `p`. -/
def takeWhile1 (p : UInt8 → Bool) : Parser Bytes := fun bs =>
  if (bs.takeWhile p).isEmpty then none else some (bs.takeWhile p, bs.dropWhile p)

/-- The end of the input. -/
def eof : Parser Bytes := fun bs => if bs.isEmpty then some ([], []) else none

/-- The first of the two that succeeds. -/
def alt (p q : Parser α) : Parser α := fun bs => (p bs).or (q bs)

/-- `\n` or `\r\n`. -/
def lineEnding : Parser Bytes := alt (tag [10]) (tag [13, 10])

/-- Everything up to the next line ending or the end of the input; a `\r` without a `\n` is an
    error. -/
def notLineEnding : Parser Bytes := fun bs =>
  let isEnd := fun c : UInt8 => c = 10 ∨ c = 13
  let line := bs.takeWhile fun c => ¬ isEnd c
  let rest := bs.dropWhile fun c => ¬ isEnd c
  match rest with
  | 13 :: 10 :: _ => some (line, rest)
  | 13 :: _ => none
  | _ => some (line, rest)

def preceded (p : Parser α) (q : Parser β) : Parser β := do
  let _ ← p
  q

def delimited (p : Parser α) (q : Parser β) (r : Parser γ) : Parser β := do
  let _ ← p
  let b ← q
  let _ ← r
  return b

def separatedPair (p : Parser α) (sep : Parser β) (q : Parser γ) : Parser (α × γ) := do
  let a ← p
  let _ ← sep
  let c ← q
  return (a, c)

/-- What the parser consumed, instead of its result. -/
def recognize (p : Parser α) : Parser Bytes := fun bs =>
  (p bs).map fun (_, rest) => (bs.take (bs.length - rest.length), rest)

/-- The parser's result through a function that may refuse it. -/
def mapOpt (p : Parser α) (f : α → Option β) : Parser β := fun bs =>
  (p bs).bind fun (a, rest) => (f a).map fun b => (b, rest)

def verify (p : Parser α) (f : α → Bool) : Parser α :=
  mapOpt p fun a => if f a then some a else none

/-- As many results as there are, in at most `fuel` further rounds. A round that consumes nothing is
    an error, so the length of the input is enough fuel. -/
def many0Fuel (p : Parser α) (fuel : Nat) : Parser (List α) := fun bs =>
  match p bs with
  | none => some ([], bs)
  | some (a, rest) =>
    if rest.length = bs.length then none
    else
      match fuel with
      | 0 => none
      | fuel + 1 => (many0Fuel p fuel rest).map fun (as, rest) => (a :: as, rest)

/-- Any number of results. -/
def many0 (p : Parser α) : Parser (List α) := fun bs => many0Fuel p bs.length bs

/-- At least one result. -/
def many1 (p : Parser α) : Parser (List α) := do
  let a ← p
  let as ← many0 p
  return a :: as

theorem tag_eq_some {t bs a rest : Bytes} :
    tag t bs = some (a, rest) ↔ a = t ∧ bs = t ++ rest := by
  unfold tag
  constructor
  · intro h
    split at h
    · rename_i htake
      cases h
      have hsplit := List.take_append_drop t.length bs
      rw [htake] at hsplit
      exact ⟨rfl, hsplit.symm⟩
    · cases h
  · rintro ⟨rfl, rfl⟩
    simp

end Parser

/-! ## Numbers -/

/-- The value of a decimal digit. -/
def digit? (b : UInt8) : Option Nat := if 48 ≤ b ∧ b ≤ 57 then some (b.toNat - 48) else none

/-- The value of a string of decimal digits that stays below `2 ^ bits`. -/
def parseDigits (bits : Nat) (bs : Bytes) : Option Nat :=
  bs.foldlM
    (fun acc b => do
      let d ← digit? b
      let n := 10 * acc + d
      if n < 2 ^ bits then some n else none)
    0

/-- `str::parse` to an unsigned integer of that many bits: a nonempty string of digits, after an
    optional plus sign. -/
def parseUnsigned (bits : Nat) : Bytes → Option Nat
  | [] => none
  | 43 :: rest => if rest.isEmpty then none else parseDigits bits rest
  | bs => parseDigits bits bs

end Lib
