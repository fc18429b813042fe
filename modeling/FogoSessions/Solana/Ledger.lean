import FogoSessions.Solana.Address
import Mathlib.Logic.Function.Basic

/-!
# The ledger

Accounts by address, and what the runtime guarantees about the accounts of a group of programs while
other code runs: only its owner writes an account's data or debits it, an account changes hands with
its data zeroed, and the account of a derived address is created by the program it is derived for.
-/

namespace FogoSessions.Solana

open Lib

structure Account where
  lamports : Nat
  owner : Pubkey
  data : Bytes
deriving DecidableEq

/-- What the ledger holds at an address nobody has used. -/
def Account.empty : Account := ⟨0, Ids.systemProgram, []⟩

/-- Zeroed account data. -/
def zeros (space : Nat) : Bytes := List.replicate space 0

abbrev Ledger := Pubkey → Account

namespace Ledger

def empty : Ledger := fun _ => .empty

def set (l : Ledger) (key : Pubkey) (account : Account) : Ledger := Function.update l key account

def setLamports (l : Ledger) (key : Pubkey) (lamports : Nat) : Ledger :=
  l.set key { l key with lamports }

def setOwner (l : Ledger) (key owner : Pubkey) : Ledger := l.set key { l key with owner }

def setData (l : Ledger) (key : Pubkey) (data : Bytes) : Ledger := l.set key { l key with data }

/-- Moves lamports between accounts: the debit first, then the credit. -/
def move (l : Ledger) (source destination : Pubkey) (lamports : Nat) : Ledger :=
  let l := l.setLamports source ((l source).lamports - lamports)
  l.setLamports destination ((l destination).lamports + lamports)

/-- A new account at the key, with lamports of the payer's. -/
def create (l : Ledger) (payer key : Pubkey) (lamports : Nat) (data : Bytes) (owner : Pubkey) :
    Ledger :=
  ((l.move payer key lamports).setData key data).setOwner key owner

/-- The lamports of the account go to the destination and the account to the system program. -/
def close (l : Ledger) (key destination : Pubkey) : Ledger :=
  let l := l.setLamports destination ((l destination).lamports + (l key).lamports)
  let l := l.setLamports key 0
  (l.setOwner key Ids.systemProgram).setData key []

/-- At the end of a transaction the accounts without lamports are gone. -/
def purge (l : Ledger) : Ledger := fun key =>
  if (l key).lamports = 0 then .empty else l key

variable {l : Ledger} {key other : Pubkey} {account : Account}

@[simp] theorem set_same : l.set key account key = account := Function.update_self ..

@[simp] theorem set_of_ne (h : other ≠ key) : l.set key account other = l other :=
  Function.update_of_ne h ..

@[simp] theorem setLamports_owner {lamports : Nat} :
    (l.setLamports key lamports other).owner = (l other).owner := by
  by_cases h : other = key
  · simp [setLamports, h]
  · simp [setLamports, h]

@[simp] theorem setLamports_data {lamports : Nat} :
    (l.setLamports key lamports other).data = (l other).data := by
  by_cases h : other = key
  · simp [setLamports, h]
  · simp [setLamports, h]

@[simp] theorem setLamports_same {lamports : Nat} :
    (l.setLamports key lamports key).lamports = lamports := by
  simp [setLamports]

theorem setLamports_of_ne {lamports : Nat} (h : other ≠ key) :
    l.setLamports key lamports other = l other := set_of_ne h

/-- A credit debits no account. -/
theorem le_setLamports {lamports : Nat} (h : (l key).lamports ≤ lamports) :
    (l other).lamports ≤ (l.setLamports key lamports other).lamports := by
  by_cases hkey : other = key
  · subst hkey
    rwa [setLamports_same]
  · rw [setLamports_of_ne hkey]

@[simp] theorem setOwner_same {owner : Pubkey} : (l.setOwner key owner key).owner = owner := by
  simp [setOwner]

@[simp] theorem setOwner_data {owner : Pubkey} :
    (l.setOwner key owner other).data = (l other).data := by
  by_cases h : other = key
  · simp [setOwner, h]
  · simp [setOwner, h]

@[simp] theorem setOwner_lamports {owner : Pubkey} :
    (l.setOwner key owner other).lamports = (l other).lamports := by
  by_cases h : other = key
  · simp [setOwner, h]
  · simp [setOwner, h]

@[simp] theorem setData_same {data : Bytes} : (l.setData key data key).data = data := by
  simp [setData]

@[simp] theorem setData_owner {data : Bytes} :
    (l.setData key data other).owner = (l other).owner := by
  by_cases h : other = key
  · simp [setData, h]
  · simp [setData, h]

@[simp] theorem setData_lamports {data : Bytes} :
    (l.setData key data other).lamports = (l other).lamports := by
  by_cases h : other = key
  · simp [setData, h]
  · simp [setData, h]

@[simp] theorem move_owner {source destination : Pubkey} {n : Nat} :
    (l.move source destination n other).owner = (l other).owner := by
  simp [move]

@[simp] theorem move_data {source destination : Pubkey} {n : Nat} :
    (l.move source destination n other).data = (l other).data := by
  simp [move]

@[simp] theorem move_zero {source destination : Pubkey} : l.move source destination 0 = l := by
  simp [move, setLamports, set]

/-- A move debits no account but its source. -/
theorem le_move {source destination : Pubkey} {n : Nat} (h : other ≠ source) :
    (l other).lamports ≤ (l.move source destination n other).lamports := by
  by_cases hd : other = destination
  · subst hd
    simp [move, setLamports_of_ne h]
  · simp [move, setLamports_of_ne h, setLamports_of_ne hd]

theorem move_source {destination : Pubkey} {n : Nat} (h : other ≠ destination) :
    (l.move other destination n other).lamports = (l other).lamports - n := by
  simp [move, setLamports_of_ne h]

theorem move_destination {source : Pubkey} {n : Nat} (h : other ≠ source) :
    (l.move source other n other).lamports = (l other).lamports + n := by
  simp [move, setLamports_of_ne h]

theorem le_move_destination {source : Pubkey} {n : Nat} :
    n ≤ (l.move source other n other).lamports := by
  simp [move]

/-- Only the new account gets an owner and data. -/
theorem create_content {payer owner : Pubkey} {n : Nat} {data : Bytes} (hk : other ≠ key) :
    (l.create payer key n data owner other).owner = (l other).owner ∧
      (l.create payer key n data owner other).data = (l other).data := by
  rw [create, setOwner, set_of_ne hk, setData, set_of_ne hk]
  exact ⟨move_owner, move_data⟩

@[simp] theorem create_owner {payer owner : Pubkey} {n : Nat} {data : Bytes} :
    (l.create payer key n data owner key).owner = owner := by
  simp [create]

@[simp] theorem create_data {payer owner : Pubkey} {n : Nat} {data : Bytes} :
    (l.create payer key n data owner key).data = data := by
  simp [create]

/-- What is written to a new account could have been its data from the start. -/
theorem create_setData {payer owner : Pubkey} {n : Nat} {data data' : Bytes} :
    (l.create payer key n data owner).setData key data' = l.create payer key n data' owner := by
  simp [create, setOwner, setData, set]

@[simp] theorem close_owner {destination : Pubkey} :
    (l.close key destination key).owner = Ids.systemProgram := by
  simp [close]

@[simp] theorem close_data {destination : Pubkey} : (l.close key destination key).data = [] := by
  simp [close]

/-- Nothing is left of a closed account. -/
@[simp] theorem close_same {destination : Pubkey} : l.close key destination key = .empty := by
  simp [close, setData, setOwner, setLamports, Account.empty]

/-- Only the closed account loses its owner and its data. -/
theorem close_content {destination : Pubkey} (hk : other ≠ key) :
    (l.close key destination other).owner = (l other).owner ∧
      (l.close key destination other).data = (l other).data := by
  simp only [close]
  rw [setData, set_of_ne hk, setOwner, set_of_ne hk, setLamports_of_ne hk]
  exact ⟨setLamports_owner, setLamports_data⟩

end Ledger

/-! ## Custody -/

section

variable [Addressing]

/-- The address is not derived for any of the programs, so someone else may sign for it. -/
def CanSign (ids : List Pubkey) (key : Pubkey) : Prop :=
  ∀ p ∈ ids, ∀ seeds, key ≠ derivedAddress seeds p

theorem canSign_of_onCurve {ids : List Pubkey} {key : Pubkey} (h : Addressing.onCurve key = true) :
    CanSign ids key := by
  rintro p - seeds rfl
  have hoff := Addressing.derived_off_curve seeds p
  rw [show (Addressing.findProgramAddress seeds p).1 = derivedAddress seeds p from rfl, h] at hoff
  cases hoff

theorem not_canSign_derived {ids : List Pubkey} {p : Pubkey} (hp : p ∈ ids) (seeds : List Bytes) :
    ¬ CanSign ids (derivedAddress seeds p) := fun h => h p hp seeds rfl

/-- How the account at `key` may change while code runs that is not one of the programs' own. -/
structure Untouched (ids : List Pubkey) (key : Pubkey) (a a' : Account) : Prop where
  owned : a.owner ∈ ids → a'.owner = a.owner ∧ a'.data = a.data ∧ a.lamports ≤ a'.lamports
  acquired : a'.owner ∈ ids → a.owner ∉ ids → CanSign ids key ∧ ∀ b ∈ a'.data, b = 0
  derived : ¬ CanSign ids key → a.owner = Ids.systemProgram →
    a'.owner = Ids.systemProgram ∧ a'.data = a.data

/-- How the ledger may change while code runs that is not one of the programs' own. -/
def Frame (ids : List Pubkey) (l l' : Ledger) : Prop := ∀ key, Untouched ids key (l key) (l' key)

/-- How the ledger changes when a program works on one account. -/
def FrameExcept (ids : List Pubkey) (k : Pubkey) (l l' : Ledger) : Prop :=
  ∀ key, key ≠ k → Untouched ids key (l key) (l' key)

variable {ids : List Pubkey} {key : Pubkey} {a a' a'' : Account} {l l' l'' : Ledger}

namespace Untouched

/-- Owner and data stay, and what the programs own is not debited. -/
theorem of_content (howner : a'.owner = a.owner) (hdata : a'.data = a.data)
    (hlamports : a.owner ∈ ids → a.lamports ≤ a'.lamports) : Untouched ids key a a' where
  owned h := ⟨howner, hdata, hlamports h⟩
  acquired h hn := absurd (howner ▸ h) hn
  derived _ h := ⟨howner.trans h, hdata⟩

theorem refl : Untouched ids key a a := of_content rfl rfl fun _ => Nat.le_refl _

/-- The account belongs to a program outside the group, and stays there. -/
theorem of_owner (howner : a'.owner = a.owner) (hids : a.owner ∉ ids)
    (hsystem : a.owner ≠ Ids.systemProgram) : Untouched ids key a a' where
  owned h := absurd h hids
  acquired h hn := absurd (howner ▸ h) hn
  derived _ h := absurd h hsystem

theorem trans (h : Untouched ids key a a') (h' : Untouched ids key a' a'') :
    Untouched ids key a a'' where
  owned ha := by
    obtain ⟨ho, hd, hl⟩ := h.owned ha
    obtain ⟨ho', hd', hl'⟩ := h'.owned (ho ▸ ha)
    exact ⟨ho'.trans ho, hd'.trans hd, hl.trans hl'⟩
  acquired ha'' hn := by
    by_cases ha' : a'.owner ∈ ids
    · have hacquired := h.acquired ha' hn
      rw [(h'.owned ha').2.1]
      exact hacquired
    · exact h'.acquired ha'' ha'
  derived hs ha := by
    obtain ⟨ho, hd⟩ := h.derived hs ha
    obtain ⟨ho', hd'⟩ := h'.derived hs ho
    exact ⟨ho', hd'.trans hd⟩

end Untouched

theorem Frame.refl : Frame ids l l := fun _ => .refl

theorem Frame.trans (h : Frame ids l l') (h' : Frame ids l' l'') : Frame ids l l'' :=
  fun key => (h key).trans (h' key)

theorem Frame.except {k : Pubkey} (h : Frame ids l l') : FrameExcept ids k l l' := fun key _ => h key

theorem FrameExcept.trans {k : Pubkey} (h : FrameExcept ids k l l') (h' : FrameExcept ids k l' l'') :
    FrameExcept ids k l l'' :=
  fun key hkey => (h key hkey).trans (h' key hkey)

theorem frameExcept_set {k : Pubkey} {account : Account} : FrameExcept ids k l (l.set k account) := by
  intro key hkey
  rw [Ledger.set_of_ne hkey]
  exact .refl

theorem frame_credit {k : Pubkey} {lamports : Nat} (h : (l k).lamports ≤ lamports) :
    Frame ids l (l.setLamports k lamports) := by
  intro key
  apply Untouched.of_content Ledger.setLamports_owner Ledger.setLamports_data
  exact fun _ => Ledger.le_setLamports h

/-- A move out of an account of the system program is no business of the programs. -/
theorem frame_move {source destination : Pubkey} {n : Nat} (hids : Ids.systemProgram ∉ ids)
    (h : 0 < n → (l source).owner = Ids.systemProgram) :
    Frame ids l (l.move source destination n) := by
  intro key
  apply Untouched.of_content Ledger.move_owner Ledger.move_data
  intro hkey
  rcases Nat.eq_zero_or_pos n with rfl | hpos
  · rw [Ledger.move_zero]
  · apply Ledger.le_move
    rintro rfl
    exact hids (h hpos ▸ hkey)

theorem frameExcept_create {payer k owner : Pubkey} {n : Nat} {data : Bytes}
    (hids : Ids.systemProgram ∉ ids) (h : 0 < n → (l payer).owner = Ids.systemProgram) :
    FrameExcept ids k l (l.create payer k n data owner) :=
  (frame_move hids h).except.trans (frameExcept_set.trans frameExcept_set)

theorem frameExcept_close {k destination : Pubkey} : FrameExcept ids k l (l.close k destination) :=
  (frame_credit (Nat.le_add_right ..)).except.trans
    (frameExcept_set.trans (frameExcept_set.trans frameExcept_set))

/-- A program outside the group writes to its own account, or leaves another one as it is. -/
theorem frame_setData {k p : Pubkey} {data : Bytes} (hids : p ∉ ids) (hsystem : p ≠ Ids.systemProgram)
    (h : (l k).owner = p ∨ data = (l k).data) : Frame ids l (l.setData k data) := by
  intro key
  by_cases hkey : key = k
  · subst hkey
    rw [Ledger.setData, Ledger.set_same]
    rcases h with rfl | rfl
    · exact .of_owner rfl hids hsystem
    · exact .refl
  · rw [Ledger.setData, Ledger.set_of_ne hkey]
    exact .refl

end

end FogoSessions.Solana
