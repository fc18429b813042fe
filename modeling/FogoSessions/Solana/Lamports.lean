import FogoSessions.Solana.SystemProgram

/-!
# Lamports of two accounts

A payer and the account it pays for, taken together: what one gives the other gets. The system
program takes no more of a payer than the payer has, `SystemProgram.Solvent`.
-/

namespace FogoSessions.Solana

open Lib

/-- The two accounts hold as much as before, together. -/
def SameSum (a b : Pubkey) (l l' : Ledger) : Prop :=
  (l' a).lamports + (l' b).lamports = (l a).lamports + (l b).lamports

namespace SameSum

variable {a b : Pubkey} {l l' l'' : Ledger}

theorem refl : SameSum a b l l := rfl

theorem trans (h : SameSum a b l l') (h' : SameSum a b l' l'') : SameSum a b l l'' :=
  Eq.trans h' h

theorem setData {key : Pubkey} {data : Bytes} : SameSum a b l (l.setData key data) := by
  unfold SameSum
  rw [Ledger.setData_lamports, Ledger.setData_lamports]

theorem setOwner {key owner : Pubkey} : SameSum a b l (l.setOwner key owner) := by
  unfold SameSum
  rw [Ledger.setOwner_lamports, Ledger.setOwner_lamports]

theorem move {n : Nat} (hne : a ≠ b) (hle : n ≤ (l a).lamports) :
    SameSum a b l (l.move a b n) := by
  have ha : (l.move a b n a).lamports = (l a).lamports - n := Ledger.move_source hne
  have hb : (l.move a b n b).lamports = (l b).lamports + n := Ledger.move_destination hne.symm
  show (l.move a b n a).lamports + (l.move a b n b).lamports = _
  omega

theorem create {n : Nat} {data : Bytes} {owner : Pubkey} (hne : a ≠ b)
    (hle : n ≤ (l a).lamports) : SameSum a b l (l.create a b n data owner) :=
  (move hne hle).trans (setData.trans setOwner)

/-- The direct edit: the credit first, then the debit. -/
theorem edit {n : Nat} (hne : a ≠ b) (hle : n ≤ (l b).lamports) :
    SameSum a b l ((l.setLamports a ((l a).lamports + n)).setLamports b ((l b).lamports - n)) := by
  show ((l.setLamports a _).setLamports b _ a).lamports +
    ((l.setLamports a _).setLamports b _ b).lamports = _
  rw [Ledger.setLamports_of_ne hne, Ledger.setLamports_same, Ledger.setLamports_same]
  omega

end SameSum

/-- The system program moves no lamports the payer does not have. -/
structure SystemProgram.Solvent [SystemProgram] : Prop where
  transfer_le : ∀ {l l' : Ledger} {source destination : Pubkey} {lamports : Nat},
    SystemProgram.transfer l source destination lamports = some l' →
      lamports ≤ (l source).lamports
  createAccount_le : ∀ {l l' : Ledger} {source key owner : Pubkey} {lamports space : Nat},
    SystemProgram.createAccount l source key lamports space owner = some l' →
      lamports ≤ (l source).lamports

variable [SystemProgram] {l l' : Ledger} {payer key owner : Pubkey}

theorem topUp_sameSum (hsolvent : SystemProgram.Solvent) (hne : payer ≠ key) {n : Nat}
    (h : topUp l payer key n = some l') : SameSum payer key l l' := by
  unfold topUp at h
  split at h
  · rename_i hpos
    have hle := hsolvent.transfer_le h
    obtain ⟨-, rfl⟩ := SystemProgram.transfer_eq_some hpos h
    exact .move hne hle
  · cases h
    exact .refl

theorem createOrFund_sameSum (hsolvent : SystemProgram.Solvent) (hne : payer ≠ key) {space : Nat}
    (h : createOrFund l payer key owner space = some l') : SameSum payer key l l' := by
  unfold createOrFund at h
  dsimp only at h
  split at h
  · have hle := hsolvent.createAccount_le h
    have hpos := SystemProgram.minimumBalance_pos space
    obtain ⟨-, -, -, -, rfl⟩ := SystemProgram.createAccount_eq_some hpos h
    exact .create hne hle
  · simp only [Option.bind_eq_bind, Option.bind_eq_some_iff] at h
    obtain ⟨l₁, htop, l₂, hallocate, hassign⟩ := h
    have hsum := topUp_sameSum hsolvent hne htop
    obtain ⟨-, -, rfl⟩ := SystemProgram.allocate_eq_some hallocate
    obtain ⟨-, rfl⟩ := SystemProgram.assign_eq_some hassign
    exact hsum.trans (SameSum.setData.trans .setOwner)

end FogoSessions.Solana
