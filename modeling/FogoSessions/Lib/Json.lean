import Mathlib.Data.List.Forall2

/-!
# JSON values and the readers of typed data

A JSON value as a parsed document holds it: integers apart from the other numbers, the fields of an
object in some order under distinct names. A reader takes a value apart into typed data or refuses
it; the readers here follow the derived ones of a self-describing format, with structures as objects
or as arrays of their fields, and variants tagged by their name. For each there is the lemma that it
reads back what was written.
-/

namespace Lib

inductive Json where
  | null
  | bool (value : Bool)
  | number (value : Int)
  /-- A number that is not an integer, as the bits of a double. -/
  | float (bits : UInt64)
  | string (value : String)
  | array (items : List Json)
  | object (fields : List (String × Json))

variable {α β : Type}

namespace Json

/-! ## Scalars -/

/-- An integer from 0 up to `bound`. -/
def natBelow? (bound : Nat) : Json → Option Nat
  | number n => if 0 ≤ n ∧ n.toNat < bound then some n.toNat else none
  | _ => none

def u8? (json : Json) : Option UInt8 := (json.natBelow? UInt8.size).map UInt8.ofNat
def u16? (json : Json) : Option UInt16 := (json.natBelow? UInt16.size).map UInt16.ofNat
def u32? (json : Json) : Option UInt32 := (json.natBelow? UInt32.size).map UInt32.ofNat
def u64? (json : Json) : Option UInt64 := (json.natBelow? UInt64.size).map UInt64.ofNat

def bool? : Json → Option Bool
  | bool b => some b
  | _ => none

def string? : Json → Option String
  | string s => some s
  | _ => none

def ofNat (n : Nat) : Json := number n

theorem natBelow?_ofNat {bound n : Nat} (h : n < bound) : (ofNat n).natBelow? bound = some n := by
  have hn : (0 : Int) ≤ n ∧ (n : Int).toNat < bound := ⟨by omega, by omega⟩
  rw [ofNat, natBelow?, if_pos hn, Int.toNat_natCast]

@[simp] theorem u8?_ofNat (x : UInt8) : (ofNat x.toNat).u8? = some x := by
  rw [u8?, natBelow?_ofNat x.toNat_lt_size, Option.map_some, UInt8.ofNat_toNat]

@[simp] theorem u16?_ofNat (x : UInt16) : (ofNat x.toNat).u16? = some x := by
  rw [u16?, natBelow?_ofNat x.toNat_lt_size, Option.map_some, UInt16.ofNat_toNat]

@[simp] theorem u32?_ofNat (x : UInt32) : (ofNat x.toNat).u32? = some x := by
  rw [u32?, natBelow?_ofNat x.toNat_lt_size, Option.map_some, UInt32.ofNat_toNat]

@[simp] theorem u64?_ofNat (x : UInt64) : (ofNat x.toNat).u64? = some x := by
  rw [u64?, natBelow?_ofNat x.toNat_lt_size, Option.map_some, UInt64.ofNat_toNat]

/-! ## Lists -/

def list? (read : Json → Option α) : Json → Option (List α)
  | array items => items.mapM read
  | _ => none

/-! ## Structures -/

/-- The named fields of a structure: an object has them under their names, an array in their
    order. -/
def fields? (names : List String) : Json → Option (List (String × Json))
  | object fields => some fields
  | array items => if items.length ≤ names.length then some (names.zip items) else none
  | _ => none

/-- A field that must be there. -/
def required (fields : List (String × Json)) (name : String) (read : Json → Option α) : Option α :=
  (fields.lookup name).bind read

/-- A field that has a default when it is missing. -/
def defaulted (fields : List (String × Json)) (name : String) (default : α)
    (read : Json → Option α) : Option α :=
  match fields.lookup name with
  | some json => read json
  | none => some default

/-! ## Variants -/

/-- The name of a variant, and its content unless it is the name alone. -/
def variant? : Json → Option (String × Option Json)
  | string name => some (name, none)
  | object [(name, content)] => some (name, some content)
  | _ => none

/-- A variant with a content, which the reader under its name reads. -/
def tagged? (readers : List (String × (Json → Option α))) (json : Json) : Option α := do
  let (name, content) ← json.variant?
  let read ← readers.lookup name
  read (← content)

@[simp] theorem tagged?_object (readers : List (String × (Json → Option α))) (name : String)
    (content : Json) :
    tagged? readers (object [(name, content)]) = (readers.lookup name).bind (· content) := rfl

/-- A variant without content may still be written with a `null`. -/
def isUnit : Option Json → Bool
  | none => true
  | some null => true
  | some _ => false

/-- The fields of a variant with named fields. -/
def members? : Json → Option (List (String × Json))
  | object fields => some fields
  | _ => none

end Json

/-! ## Loops over lists -/

theorem mapM_eq_some_iff {f : α → Option β} :
    ∀ {xs : List α} {ys : List β}, xs.mapM f = some ys ↔ List.Forall₂ (fun x y => f x = some y) xs ys
  | [], ys => by
    constructor
    · intro h
      cases h
      exact .nil
    · intro h
      cases h
      rfl
  | x :: xs, ys => by
    rw [List.mapM_cons]
    constructor
    · intro h
      obtain ⟨y, hy, h⟩ := Option.bind_eq_some_iff.1 h
      obtain ⟨zs, hzs, h⟩ := Option.bind_eq_some_iff.1 h
      cases h
      exact .cons hy (mapM_eq_some_iff.1 hzs)
    · intro h
      cases h with
      | cons hy hys =>
        refine Option.bind_eq_some_iff.2 ⟨_, hy, ?_⟩
        exact Option.bind_eq_some_iff.2 ⟨_, mapM_eq_some_iff.2 hys, rfl⟩

/-- What was written item by item is read item by item. -/
theorem Json.list?_array {read : Json → Option α} {write : β → Json} {xs : List β} {ys : List α} :
    Json.list? read (.array (xs.map write)) = some ys ↔
      List.Forall₂ (fun x y => read (write x) = some y) xs ys :=
  mapM_eq_some_iff.trans List.forall₂_map_left_iff

theorem Json.list?_map {read : Json → Option α} {write : α → Json} (xs : List α)
    (h : ∀ x ∈ xs, read (write x) = some x) :
    Json.list? read (.array (xs.map write)) = some xs :=
  Json.list?_array.2 (List.forall₂_same.2 h)

/-- Items with a property are read if and only if every item is read with the property. -/
theorem Json.exists_list? {read : Json → Option α} {write : β → Json} {P : α → Prop}
    {xs : List β} :
    (∃ ys, Json.list? read (.array (xs.map write)) = some ys ∧ ∀ y ∈ ys, P y) ↔
      ∀ x ∈ xs, ∃ y, read (write x) = some y ∧ P y := by
  simp only [Json.list?_array]
  induction xs with
  | nil =>
    refine ⟨fun _ => List.forall_mem_nil _, fun _ => ⟨[], .nil, List.forall_mem_nil _⟩⟩
  | cons x xs ih =>
    rw [List.forall_mem_cons, ← ih]
    constructor
    · rintro ⟨ys, hys, hP⟩
      cases hys with
      | cons hx hxs =>
        rw [List.forall_mem_cons] at hP
        exact ⟨⟨_, hx, hP.1⟩, _, hxs, hP.2⟩
    · rintro ⟨⟨y, hx, hy⟩, ys, hxs, hP⟩
      exact ⟨y :: ys, .cons hx hxs, List.forall_mem_cons.2 ⟨hy, hP⟩⟩

theorem Json.list?_isSome {read : Json → Option α} {write : β → Json} {xs : List β} :
    (∃ ys, Json.list? read (.array (xs.map write)) = some ys) ↔
      ∀ x ∈ xs, ∃ y, read (write x) = some y := by
  simpa using Json.exists_list? (P := fun _ => True)

end Lib
