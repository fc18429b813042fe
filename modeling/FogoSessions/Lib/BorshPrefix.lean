import FogoSessions.Lib.Borsh

/-!
# Abbreviated decoders

A decoder may read less of an encoding than was written, as long as what it leaves out comes last.
`Abbreviates d f c` says that `d` reads `f a` from the front of every encoding of `a` by `c`,
whatever follows; what it leaves unread is unspecified, so nothing can be read after it.
-/

namespace Lib

variable {α β γ : Type}

/-- `d` reads `f a` from the front of what `c` writes for `a`. -/
def Abbreviates (d : Decoder β) (f : α → β) (c : Codec α) : Prop :=
  ∀ ⦃a : α⦄ ⦃bs : Bytes⦄, c.encode a = .ok bs → ∀ rest : Bytes,
    ∃ left, d (bs ++ rest) = .ok (f a, left)

/-- A codec's own decoder leaves nothing out. -/
theorem Codec.abbreviates (c : Codec α) : Abbreviates c.decode id c :=
  fun _ _ h rest => ⟨rest, c.decode_encode rest h⟩

namespace Abbreviates

variable {d : Decoder β} {f : α → β} {c : Codec α}

theorem map (h : Abbreviates d f c) (g : β → γ) : Abbreviates (g <$> d) (g ∘ f) c := by
  intro a bs hbs rest
  obtain ⟨left, hd⟩ := h hbs rest
  exact ⟨left, by rw [Decoder.map_apply, hd]; rfl⟩

theorem iso {δ : Type} {f : δ → β} {g : α → δ} {g' : δ → α} (hg : ∀ b, g (g' b) = b)
    (h : Abbreviates d (f ∘ g) c) : Abbreviates d f (c.iso g g' hg) := by
  intro b bs hbs rest
  obtain ⟨left, hd⟩ := h hbs rest
  exact ⟨left, by rw [hd, Function.comp, hg]⟩

/-- The second half may be left out. -/
theorem fst (h : Abbreviates d f c) (c' : Codec γ) :
    Abbreviates d (f ∘ Prod.fst) (c.pair c') := by
  rintro ⟨a, b⟩ bs hbs rest
  simp only [Codec.pair, bind_eq_ok, pure_eq_ok] at hbs
  obtain ⟨xs, hx, ys, -, rfl⟩ := hbs
  rw [List.append_assoc]
  exact h hx (ys ++ rest)

/-- Only the second half may be abbreviated. -/
theorem snd {δ : Type} {c' : Codec γ} {f : γ → β} (c : Codec α) (h : Abbreviates d f c')
    (g : α → β → δ) :
    Abbreviates (do let a ← c.decode; let b ← d; return g a b) (fun p => g p.1 (f p.2))
      (c.pair c') := by
  rintro ⟨a, b⟩ bs hbs rest
  simp only [Codec.pair, bind_eq_ok, pure_eq_ok] at hbs
  obtain ⟨xs, hx, ys, hy, rfl⟩ := hbs
  obtain ⟨left, hd⟩ := h hy rest
  refine ⟨left, ?_⟩
  rw [List.append_assoc, Decoder.bind_apply, c.decode_encode _ hx]
  dsimp only
  rw [Decoder.bind_apply, hd]
  rfl

end Abbreviates

/-- The decoder of an enumeration: the variant's tag byte, then its fields. -/
def Decoder.enum (decodeVariant : UInt8 → Option (Decoder β)) : Decoder β := do
  let t ← Codec.u8.decode
  match decodeVariant t with
  | some d => d
  | none => Decoder.fail (.invalidData "Unexpected variant tag")

/-- An enumeration is abbreviated by abbreviating its variants under the same tags. -/
theorem Abbreviates.enum {tag : α → UInt8} {encodeVariant : α → Except IoError Bytes}
    {decodeVariant : UInt8 → Option (Decoder α)} {shortVariant : UInt8 → Option (Decoder β)}
    {f : α → β}
    (h : ∀ a, ∃ d, decodeVariant (tag a) = some d ∧
      ∀ bs rest, encodeVariant a = .ok bs → d (bs ++ rest) = .ok (a, rest))
    (hshort : ∀ a, ∃ d, shortVariant (tag a) = some d ∧
      ∀ bs, encodeVariant a = .ok bs → ∀ rest, ∃ left, d (bs ++ rest) = .ok (f a, left)) :
    Abbreviates (Decoder.enum shortVariant) f (Codec.enum tag encodeVariant decodeVariant h) := by
  intro a bs hbs rest
  obtain ⟨xs, hx, rfl⟩ := map_eq_ok.1 hbs
  obtain ⟨d, hd, hread⟩ := hshort a
  obtain ⟨left, hleft⟩ := hread xs hx rest
  have hbyte : Codec.u8.encode (tag a) = .ok [tag a] := by simp [Codec.u8, Codec.le, leBytes]
  have htag : Codec.u8.decode (tag a :: (xs ++ rest)) = .ok (tag a, xs ++ rest) :=
    Codec.u8.decode_encode (xs ++ rest) hbyte
  refine ⟨left, ?_⟩
  rw [Decoder.enum, List.cons_append, Decoder.bind_apply, htag]
  simp only [hd]
  exact hleft

end Lib
