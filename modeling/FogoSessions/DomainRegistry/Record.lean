import FogoSessions.Lib.Word
import FogoSessions.ProgramIds
import FogoSessions.Sdk.Session
import FogoSessions.Solana.Address
import FogoSessions.Solana.Anchor
import Mathlib.Data.List.Perm.Basic

/-!
# Domain records

`domain-registry/src/state.rs`: the record of a domain is an account that holds an array of
programs and resizes with it. `sessions-sdk-rs/src/domain_registry/mod.rs` says where it is.
-/

namespace FogoSessions.DomainRegistry

open Lib Solana Sdk

section

/-- `DOMAIN_RECORD_SEED`. -/
def domainRecordSeed : Bytes := utf8 "domain-record"

variable [Addressing]

/-- The sha256 hash of the domain's name. -/
def domainHash (domainName : String) : FixedBytes 32 := Addressing.sha256 (utf8 domainName)

def getDomainRecordAddress (domainName : String) : Pubkey :=
  derivedAddress [domainRecordSeed, (domainHash domainName).bytes] ProgramIds.domainRegistry

end

structure DomainProgram where
  programId : Pubkey
  signerPda : Pubkey
deriving DecidableEq

/-- `From<DomainProgram>`. -/
def DomainProgram.toAuthorizedProgram (p : DomainProgram) : AuthorizedProgram where
  programId := p.programId
  signerPda := p.signerPda

namespace DomainProgram

/-- `size_of::<DomainProgram>()`. -/
def size : Nat := 64

def toBytes (p : DomainProgram) : Bytes := p.programId.bytes ++ p.signerPda.bytes

def decode : Decoder DomainProgram := do
  let programId ← Decoder.fixed 32
  let signerPda ← Decoder.fixed 32
  return { programId, signerPda }

theorem decode_exact : Decoder.Exact decode toBytes := by
  intro bs p rest
  simp only [decode, Decoder.bind_eq_ok, Decoder.fixed_eq_ok, Decoder.pure_apply]
  constructor
  · rintro ⟨a, _, rfl, b, _, rfl, h⟩
    cases h
    exact (List.append_assoc ..).symm
  · rintro rfl
    exact ⟨p.programId, _, List.append_assoc .., p.signerPda, _, rfl, rfl⟩

theorem length_toBytes (p : DomainProgram) : p.toBytes.length = size := by
  simp [toBytes, size, p.programId.length_eq, p.signerPda.length_eq]

end DomainProgram

/-- The data of an account that holds these programs. -/
def recordData (programs : List DomainProgram) : Bytes := programs.flatMap DomainProgram.toBytes

/-- `bytemuck::cast_slice`: panics unless the data is a whole number of programs. -/
def castSlice {ε : Type} (data : Bytes) : Except (ProgramError ε) (List DomainProgram) :=
  if data.length % DomainProgram.size = 0 then
    match DomainProgram.decode.many (data.length / DomainProgram.size) data with
    | .ok (programs, _) => .ok programs
    | .error _ => .error .panic
  else .error .panic

theorem length_recordData (programs : List DomainProgram) :
    (recordData programs).length = programs.length * DomainProgram.size := by
  induction programs with
  | nil => rfl
  | cons p programs ih =>
    rw [recordData, List.flatMap_cons, List.length_append, p.length_toBytes]
    rw [recordData] at ih
    rw [ih, List.length_cons, Nat.succ_mul, Nat.add_comm]

theorem castSlice_eq_ok {ε : Type} {data : Bytes} {programs : List DomainProgram} :
    (castSlice data : Except (ProgramError ε) _) = .ok programs ↔ data = recordData programs := by
  have hmany {n : Nat} {bs rest : Bytes} {ps : List DomainProgram} :
      DomainProgram.decode.many n bs = .ok (ps, rest) ↔
        ps.length = n ∧ bs = ps.flatMap DomainProgram.toBytes ++ rest :=
    DomainProgram.decode_exact.many
  unfold castSlice
  constructor
  · intro h
    split at h
    · rename_i hdvd
      split at h
      · rename_i ps rest hdecode
        cases h
        obtain ⟨hlen, hdata⟩ := hmany.1 hdecode
        have hrest : rest.length = 0 := by
          have hl := congrArg List.length hdata
          rw [List.length_append, ← recordData, length_recordData, hlen] at hl
          have hmod := Nat.div_add_mod' data.length DomainProgram.size
          omega
        rw [hdata, List.eq_nil_of_length_eq_zero hrest, List.append_nil, recordData]
      · cases h
    · cases h
  · rintro rfl
    have hsize : 0 < DomainProgram.size := by decide
    have hdecode : DomainProgram.decode.many programs.length (recordData programs) =
        .ok (programs, []) := hmany.2 ⟨rfl, (List.append_nil _).symm⟩
    rw [length_recordData, if_pos (Nat.mul_mod_left ..), Nat.mul_div_cancel _ hsize, hdecode]

theorem recordData_injective : Function.Injective recordData := by
  intro ps qs h
  have hcast : castSlice (ε := Unit) (recordData ps) = .ok qs := castSlice_eq_ok.2 h
  rw [castSlice_eq_ok.2 rfl] at hcast
  exact Except.ok.inj hcast

/-! ## The account -/

/-- Two elements exchanged. -/
def swap (programs : List DomainProgram) (i j : Nat) : List DomainProgram :=
  match programs[i]?, programs[j]? with
  | some a, some b => (programs.set i b).set j a
  | _, _ => programs

@[simp] theorem length_swap {programs : List DomainProgram} {i j : Nat} :
    (swap programs i j).length = programs.length := by
  unfold swap
  split <;> simp

/-- `DomainRecordInner`. -/
structure ResizableAccountArray where
  accInfo : Pubkey
  payer : Pubkey

namespace ResizableAccountArray

variable {ε : Type} [SystemProgram]

/-- The rent of an account of that length; an empty one needs none. -/
def amountRequired (dataLen : Nat) : Nat :=
  if dataLen = 0 then 0 else SystemProgram.minimumBalance dataLen

/-- Brings the account's lamports to the rent of its length, at the payer's expense or benefit. -/
def adjustRentIfNeeded (self : ResizableAccountArray) (l : Ledger) :
    Except (ProgramError ε) Ledger := do
  let amountRequired := amountRequired (l self.accInfo).data.length
  let amountToTransfer := amountRequired - (l self.accInfo).lamports
  let l ← okOr (topUp l self.payer self.accInfo amountToTransfer) .invoked
  let amountToWithdraw := (l self.accInfo).lamports - amountRequired
  if 0 < amountToWithdraw then do
    let lamports := (l self.payer).lamports + amountToWithdraw
    require (lamports ≤ u64Max) .panic
    let l := l.setLamports self.payer lamports
    return l.setLamports self.accInfo ((l self.accInfo).lamports - amountToWithdraw)
  else return l

def extend (self : ResizableAccountArray) (l : Ledger) : Except (ProgramError ε) Ledger := do
  let l ← Anchor.realloc ProgramIds.domainRegistry l self.accInfo
    ((l self.accInfo).data.length + DomainProgram.size)
  self.adjustRentIfNeeded l

def push (self : ResizableAccountArray) (l : Ledger) (value : DomainProgram) :
    Except (ProgramError ε) Ledger := do
  let l ← self.extend l
  let data := (l self.accInfo).data
  return l.setData self.accInfo (data.take (data.length - DomainProgram.size) ++ value.toBytes)

def swapRemove (self : ResizableAccountArray) (l : Ledger) (index : Nat) :
    Except (ProgramError ε) Ledger := do
  let elements ← castSlice (l self.accInfo).data
  require (index < elements.length) .accountDataTooSmall
  let l := l.setData self.accInfo (recordData (swap elements index (elements.length - 1)))
  let l ← Anchor.realloc ProgramIds.domainRegistry l self.accInfo
    ((l self.accInfo).data.length - DomainProgram.size)
  self.adjustRentIfNeeded l

def contains (self : ResizableAccountArray) (l : Ledger) (value : DomainProgram) :
    Except (ProgramError ε) Bool :=
  (fun programs => programs.contains value) <$> castSlice (l self.accInfo).data

def position (self : ResizableAccountArray) (l : Ledger) (predicate : DomainProgram → Bool) :
    Except (ProgramError ε) (Option Nat) :=
  (fun programs => programs.findIdx? predicate) <$> castSlice (l self.accInfo).data

def toVec (self : ResizableAccountArray) (l : Ledger) :
    Except (ProgramError ε) (List AuthorizedProgram) :=
  (fun programs => programs.map DomainProgram.toAuthorizedProgram) <$> castSlice (l self.accInfo).data

end ResizableAccountArray

/-! ## What succeeded -/

/-- An account of the registry whose data was rewritten, and what else that moved. -/
structure Resized (ids : List Pubkey) [Addressing] (key : Pubkey) (data : Bytes) (l l' : Ledger) :
    Prop where
  frame : FrameExcept ids key l l'
  owner_eq : (l' key).owner = (l key).owner
  data_eq : (l' key).data = data
  funded : data ≠ [] → 0 < (l' key).lamports

theorem recordData_concat (programs : List DomainProgram) (p : DomainProgram) :
    recordData (programs ++ [p]) = recordData programs ++ p.toBytes := by
  simp [recordData]

theorem recordData_take (programs : List DomainProgram) (n : Nat) :
    (recordData programs).take (n * DomainProgram.size) = recordData (programs.take n) := by
  induction programs generalizing n with
  | nil => simp [recordData]
  | cons p programs ih =>
    cases n with
    | zero => simp [recordData]
    | succ n =>
      have hlen : (n + 1) * DomainProgram.size = p.toBytes.length + n * DomainProgram.size := by
        rw [p.length_toBytes, Nat.succ_mul, Nat.add_comm]
      rw [hlen, recordData, List.flatMap_cons, List.take_length_add_append, ← recordData, ih]
      rfl

/-- Exchanging an element with the last one and dropping the last place removes the element. -/
theorem swap_take_perm {programs : List DomainProgram} {index : Nat} {p : DomainProgram}
    (h : programs[index]? = some p) :
    ((swap programs index (programs.length - 1)).take (programs.length - 1)).Perm
      (programs.eraseIdx index) := by
  have hlt : index < programs.length := (List.getElem?_eq_some_iff.1 h).1
  obtain ⟨init, last, rfl⟩ : ∃ init last, programs = init ++ [last] :=
    ⟨_, _, (List.dropLast_concat_getLast (List.ne_nil_of_length_pos (by omega))).symm⟩
  rw [List.length_append, List.length_singleton] at hlt
  rw [List.length_append, List.length_singleton, Nat.add_sub_cancel, swap, h,
    List.getElem?_concat_length]
  dsimp only
  by_cases hindex : index = init.length
  · subst hindex
    rw [List.eraseIdx_append_of_length_le (Nat.le_refl _)]
    simp
  · have hinit : index < init.length := by omega
    rw [List.set_append_left _ _ hinit, List.set_append_right _ _ (by simp)]
    rw [List.take_append_of_le_length (by simp), List.take_of_length_le (by simp)]
    rw [List.eraseIdx_append_of_lt_length hinit]
    exact (List.set_perm_cons_eraseIdx hinit last).trans (List.perm_append_singleton _ _).symm

/-- What was there is the removed element and what is left. -/
theorem cons_perm_of_eraseIdx {programs programs' : List DomainProgram} {index : Nat}
    {p : DomainProgram} (h : programs[index]? = some p)
    (hperm : programs'.Perm (programs.eraseIdx index)) : (p :: programs').Perm programs := by
  obtain ⟨hlt, hp⟩ := List.getElem?_eq_some_iff.1 h
  refine (hperm.cons p).trans ?_
  rw [← hp]
  exact List.getElem_cons_eraseIdx_perm hlt

namespace ResizableAccountArray

section

variable {ε : Type} {l : Ledger} {self : ResizableAccountArray}

theorem contains_eq_ok {value : DomainProgram} {b : Bool}
    (h : (self.contains l value : Except (ProgramError ε) Bool) = .ok b) :
    ∃ programs, (l self.accInfo).data = recordData programs ∧ programs.contains value = b := by
  obtain ⟨programs, hcast, hb⟩ := map_eq_ok.1 h
  exact ⟨programs, castSlice_eq_ok.1 hcast, hb⟩

theorem position_eq_ok {predicate : DomainProgram → Bool} {o : Option Nat}
    (h : (self.position l predicate : Except (ProgramError ε) (Option Nat)) = .ok o) :
    ∃ programs, (l self.accInfo).data = recordData programs ∧
      programs.findIdx? predicate = o := by
  obtain ⟨programs, hcast, ho⟩ := map_eq_ok.1 h
  exact ⟨programs, castSlice_eq_ok.1 hcast, ho⟩

theorem toVec_eq_ok {programs : List AuthorizedProgram}
    (h : (self.toVec l : Except (ProgramError ε) (List AuthorizedProgram)) = .ok programs) :
    ∃ ps, (l self.accInfo).data = recordData ps ∧
      ps.map DomainProgram.toAuthorizedProgram = programs := by
  obtain ⟨ps, hcast, hps⟩ := map_eq_ok.1 h
  exact ⟨ps, castSlice_eq_ok.1 hcast, hps⟩

end

variable {ε : Type} [Addressing] [SystemProgram] {ids : List Pubkey} {l l' : Ledger}
  {self : ResizableAccountArray}

theorem adjustRentIfNeeded_eq_ok (hids : Ids.systemProgram ∉ ids)
    (h : (self.adjustRentIfNeeded l : Except (ProgramError ε) Ledger) = .ok l') :
    Resized ids self.accInfo (l self.accInfo).data l l' := by
  simp only [adjustRentIfNeeded, bind_eq_ok, okOr_eq_ok] at h
  obtain ⟨l₁, htop, h⟩ := h
  obtain ⟨hframe, hcontent, hlamports⟩ := topUp_frame hids htop
  obtain ⟨howner, hdata⟩ := hcontent self.accInfo
  have hrequired (hne : (l self.accInfo).data ≠ []) :
      0 < amountRequired (l self.accInfo).data.length := by
    unfold amountRequired
    rw [if_neg (by simpa using hne)]
    exact SystemProgram.minimumBalance_pos _
  split at h
  · rename_i hwithdraw
    simp only [bind_eq_ok, require_eq_ok, pure_eq_ok] at h
    obtain ⟨-, -, rfl⟩ := h
    refine ⟨hframe.except.trans ?_, by simpa using howner, by simpa using hdata, fun hne => ?_⟩
    · exact (frame_credit (Nat.le_add_right ..)).except.trans frameExcept_set
    · have hpos := hrequired hne
      have hcredit : (l₁ self.accInfo).lamports ≤
          (l₁.setLamports self.payer ((l₁ self.payer).lamports + ((l₁ self.accInfo).lamports -
            amountRequired (l self.accInfo).data.length)) self.accInfo).lamports :=
        Ledger.le_setLamports (Nat.le_add_right _ _)
      rw [Ledger.setLamports_same]
      omega
  · cases pure_eq_ok.1 h
    refine ⟨hframe.except, howner, hdata, fun hne => hlamports ?_⟩
    have hpos := hrequired hne
    omega

theorem push_eq_ok {value : DomainProgram} (hids : Ids.systemProgram ∉ ids)
    (h : (self.push l value : Except (ProgramError ε) Ledger) = .ok l') :
    (l self.accInfo).owner = ProgramIds.domainRegistry ∧
      Resized ids self.accInfo ((l self.accInfo).data ++ value.toBytes) l l' := by
  simp only [push, extend, bind_eq_ok, pure_eq_ok] at h
  obtain ⟨l₂, ⟨l₁, hrealloc, hadjust⟩, rfl⟩ := h
  have hadjusted := adjustRentIfNeeded_eq_ok hids hadjust
  obtain ⟨howner, rfl⟩ := Anchor.realloc_eq_ok hrealloc
  refine ⟨howner, ?_, by simp [hadjusted.owner_eq], ?_, fun _ => ?_⟩
  · exact frameExcept_set.trans (hadjusted.frame.trans frameExcept_set)
  · have hdata := hadjusted.data_eq
    rw [Ledger.setData_same] at hdata
    rw [Ledger.setData_same, hdata]
    congr 1
    have hfront : (l self.accInfo).data.length ≤ (l self.accInfo).data.length + DomainProgram.size :=
      Nat.le_add_right ..
    simp [zeros, List.take_of_length_le hfront]
  · rw [Ledger.setData_lamports]
    apply hadjusted.funded
    rw [Ledger.setData_same]
    simp [zeros, DomainProgram.size]

theorem swapRemove_eq_ok {index : Nat} (hids : Ids.systemProgram ∉ ids)
    (h : (self.swapRemove l index : Except (ProgramError ε) Ledger) = .ok l') :
    ∃ programs p programs', (l self.accInfo).owner = ProgramIds.domainRegistry ∧
      (l self.accInfo).data = recordData programs ∧ programs[index]? = some p ∧
      programs'.Perm (programs.eraseIdx index) ∧ Resized ids self.accInfo (recordData programs') l l' := by
  simp only [swapRemove, bind_eq_ok, require_eq_ok] at h
  obtain ⟨programs, hcast, -, hindex, l₁, hrealloc, hadjust⟩ := h
  have hget := List.getElem?_eq_getElem hindex
  have hperm := swap_take_perm hget
  have hadjusted := adjustRentIfNeeded_eq_ok hids hadjust
  obtain ⟨howner, rfl⟩ := Anchor.realloc_eq_ok hrealloc
  rw [Ledger.setData_owner] at howner
  have hframe : FrameExcept ids self.accInfo l l' :=
    frameExcept_set.trans (frameExcept_set.trans hadjusted.frame)
  have hdata : (l' self.accInfo).data = recordData
      ((swap programs index (programs.length - 1)).take (programs.length - 1)) := by
    have hsub : programs.length * DomainProgram.size - DomainProgram.size =
        (programs.length - 1) * DomainProgram.size := by
      rw [Nat.sub_mul, Nat.one_mul]
    rw [hadjusted.data_eq, Ledger.setData_same, Ledger.setData_same, length_recordData, length_swap, hsub,
      recordData_take, Nat.sub_eq_zero_of_le (Nat.mul_le_mul_right _ (Nat.sub_le ..))]
    simp [zeros]
  refine ⟨programs, _, _, howner, castSlice_eq_ok.1 hcast, hget, hperm, hframe,
    by simp [hadjusted.owner_eq], hdata, fun hne => hadjusted.funded ?_⟩
  rwa [← hadjusted.data_eq, hdata]

end ResizableAccountArray

end FogoSessions.DomainRegistry
