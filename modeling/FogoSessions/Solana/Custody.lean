import FogoSessions.Lib.History
import FogoSessions.Solana.Runtime

/-!
# Accounts in custody

What an account of a derived address holds is what the programs under study wrote to it last:
nobody else creates the account, and nobody else changes what is in it.
-/

namespace FogoSessions.Solana

open Lib

section

variable [Addressing] {ids : List Pubkey} {key : Pubkey} {a a' a'' : Account} {l l' l'' : Ledger}

/-- How an account changes that a program of the group may debit or create, but does not write to. -/
structure Kept (ids : List Pubkey) (key : Pubkey) (a a' : Account) : Prop where
  owned : a.owner ∈ ids → a'.owner = a.owner ∧ a'.data = a.data ∧ a.lamports ≤ a'.lamports
  unowned : ¬ CanSign ids key → a.owner ∉ ids → a'.owner ∉ ids

/-- The ledger changes in accounts only that are kept. -/
def KeepsAll (ids : List Pubkey) (l l' : Ledger) : Prop := ∀ key, Kept ids key (l key) (l' key)

/-- The programs may have written to this one account. -/
def KeepsExcept (ids : List Pubkey) (k : Pubkey) (l l' : Ledger) : Prop :=
  ∀ key, key ≠ k → Kept ids key (l key) (l' key)

namespace Kept

theorem refl : Kept ids key a a := ⟨fun _ => ⟨rfl, rfl, Nat.le_refl _⟩, fun _ h => h⟩

theorem trans (h : Kept ids key a a') (h' : Kept ids key a' a'') : Kept ids key a a'' where
  owned ha := by
    obtain ⟨howner, hdata, hle⟩ := h.owned ha
    obtain ⟨howner', hdata', hle'⟩ := h'.owned (howner ▸ ha)
    exact ⟨howner'.trans howner, hdata'.trans hdata, hle.trans hle'⟩
  unowned hsign ha := h'.unowned hsign (h.unowned hsign ha)

theorem of_untouched (h : Untouched ids key a a') : Kept ids key a a' where
  owned := h.owned
  unowned hsign ha := fun ha' => hsign (h.acquired ha' ha).1

/-- The account changes hands outside the group. -/
theorem of_owner (h : a.owner ∉ ids) (h' : a'.owner ∉ ids) : Kept ids key a a' :=
  ⟨fun ha => absurd ha h, fun _ _ => h'⟩

end Kept

theorem KeepsAll.refl : KeepsAll ids l l := fun _ => .refl

theorem KeepsAll.trans (h : KeepsAll ids l l') (h' : KeepsAll ids l' l'') : KeepsAll ids l l'' :=
  fun key => (h key).trans (h' key)

theorem KeepsAll.except {k : Pubkey} (h : KeepsAll ids l l') : KeepsExcept ids k l l' :=
  fun key _ => h key

theorem KeepsExcept.trans {k : Pubkey} (h : KeepsExcept ids k l l') (h' : KeepsExcept ids k l' l'') :
    KeepsExcept ids k l l'' :=
  fun key hkey => (h key hkey).trans (h' key hkey)

theorem Frame.keepsAll (h : Frame ids l l') : KeepsAll ids l l' := fun key => .of_untouched (h key)

theorem keepsExcept_set {k : Pubkey} {account : Account} :
    KeepsExcept ids k l (l.set k account) := by
  intro key hkey
  rw [Ledger.set_of_ne hkey]
  exact .refl

/-- An account that was the system program's becomes another program's, outside the group. -/
theorem keepsAll_create {payer k owner : Pubkey} {n : Nat} {data : Bytes}
    (hids : Ids.systemProgram ∉ ids) (howner : owner ∉ ids)
    (hk : (l k).owner = Ids.systemProgram) (hpayer : 0 < n → (l payer).owner = Ids.systemProgram) :
    KeepsAll ids l (l.create payer k n data owner) := by
  intro key
  by_cases hkey : key = k
  · subst hkey
    exact .of_owner (hk ▸ hids) (Ledger.create_owner ▸ howner)
  · exact .of_untouched (frameExcept_create hids hpayer key hkey)

/-- A program outside the group gives up its account. -/
theorem keepsAll_close {k destination : Pubkey} (hids : Ids.systemProgram ∉ ids)
    (hk : (l k).owner ∉ ids) : KeepsAll ids l (l.close k destination) := by
  intro key
  by_cases hkey : key = k
  · subst hkey
    exact .of_owner hk (Ledger.close_owner ▸ hids)
  · exact .of_untouched (frameExcept_close key hkey)

end

/-! ## Who wrote last -/

section

variable [Addressing] [Ed25519] {P : Programs} {key : Pubkey} {Writes : Event → Prop} {w : World}

/-- The events that satisfy `Writes` are the ones that write to the derived account. -/
structure Custodian (P : Programs) (key : Pubkey) (Writes : Event → Prop) : Prop where
  derived : ¬ CanSign P.ids key
  system : Ids.systemProgram ∉ P.ids
  quiet : ∀ w e, Observed P w → Invoked P w e → ¬ Writes e →
    Kept P.ids key (e.before key) (e.after key)
  writes : ∀ w e, Observed P w → Invoked P w e → Writes e →
    (e.after key).owner ∈ P.ids ∧ 0 < (e.after key).lamports

/-- Nobody has written to the account, or it holds what was written last. -/
inductive Custody (P : Programs) (key : Pubkey) (Writes : Event → Prop) (w : World) : Prop where
  | unused : (∀ e ∈ w.log, ¬ Writes e) → (w.ledger key).owner ∉ P.ids → Custody P key Writes w
  | written (e : Event) (older : List Event) : Since (fun x => ¬ Writes x) e older w.log → Writes e →
      (w.ledger key).owner = (e.after key).owner → (w.ledger key).data = (e.after key).data →
      (w.ledger key).owner ∈ P.ids → 0 < (w.ledger key).lamports → Custody P key Writes w

theorem Custodian.invariant (h : Custodian P key Writes) : Invariant P (Custody P key Writes) where
  init _ := .unused (by simp) h.system
  tick _ _ hw _ := by
    cases hw with
    | unused hlog howner => exact .unused hlog howner
    | written e older hsince he howner hdata hids hpos =>
      exact .written e older hsince he howner hdata hids hpos
  frame w l' hw hframe := by
    have hkept : Kept P.ids key (w.ledger key) (l' key) := .of_untouched (hframe key)
    cases hw with
    | unused hlog howner => exact .unused hlog (hkept.unowned h.derived howner)
    | written e older hsince he howner hdata hids hpos =>
      obtain ⟨howner', hdata', hle⟩ := hkept.owned hids
      exact .written e older hsince he (howner'.trans howner) (hdata'.trans hdata)
        (howner' ▸ hids) (hpos.trans_le hle)
  purge w hw := by
    cases hw with
    | unused hlog howner =>
      refine .unused hlog ?_
      show (w.ledger.purge key).owner ∉ P.ids
      unfold Ledger.purge
      split
      · exact h.system
      · exact howner
    | written e older hsince he howner hdata hids hpos =>
      have hsame : w.ledger.purge key = w.ledger key := if_neg (Nat.pos_iff_ne_zero.1 hpos)
      refine .written e older hsince he ?_ ?_ ?_ ?_
      · exact (congrArg Account.owner hsame).trans howner
      · exact (congrArg Account.data hsame).trans hdata
      · show (w.ledger.purge key).owner ∈ P.ids
        rwa [hsame]
      · show 0 < (w.ledger.purge key).lamports
        rwa [hsame]
  invoke w e hobserved hw he := by
    by_cases hwrites : Writes e
    · obtain ⟨hids, hpos⟩ := h.writes w e hobserved he hwrites
      exact .written e w.log .here hwrites rfl rfl hids hpos
    · have hkept := h.quiet w e hobserved he hwrites
      rw [he.before_eq] at hkept
      cases hw with
      | unused hlog howner =>
        exact .unused (List.forall_mem_cons.2 ⟨hwrites, hlog⟩) (hkept.unowned h.derived howner)
      | written e' older hsince he' howner hdata hids hpos =>
        obtain ⟨howner', hdata', hle⟩ := hkept.owned hids
        exact .written e' older (.later hwrites hsince) he' (howner'.trans howner)
          (hdata'.trans hdata) (howner' ▸ hids) (hpos.trans_le hle)

/-- The custody rule. -/
theorem Custodian.observed (h : Custodian P key Writes) (hw : Observed P w) :
    Custody P key Writes w := h.invariant.observed hw

end

end FogoSessions.Solana
