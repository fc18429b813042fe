import FogoSessions.Lib.Bytes
import FogoSessions.Lib.Result

/-!
# Borsh

Decoders read a value from the front of a byte string and return what is left; a `Codec` pairs a
decoder with the encoder it undoes. Codecs are built from the codecs of their parts (`pair`,
`iso`, `vec`, `enum`), so a record's round trip is never proved by hand.
-/

namespace Lib

/-- The errors of a byte reader. -/
inductive IoError where
  | invalidData (message : String)
  | unexpectedEof (message : String)
deriving DecidableEq

def IoError.message : IoError → String
  | invalidData message => message
  | unexpectedEof message => message

/-- A decoder consumes a prefix of its input. -/
def Decoder (α : Type) := Bytes → Except IoError (α × Bytes)

namespace Decoder

variable {α β : Type}

instance : Monad Decoder where
  pure a := fun bs => .ok (a, bs)
  bind x f := fun bs =>
    match x bs with
    | .ok (a, rest) => f a rest
    | .error e => .error e

@[simp] theorem pure_apply (a : α) (bs : Bytes) : (pure a : Decoder α) bs = .ok (a, bs) := rfl

theorem bind_apply (x : Decoder α) (f : α → Decoder β) (bs : Bytes) :
    (x >>= f) bs = match x bs with
      | .ok (a, rest) => f a rest
      | .error e => .error e := rfl

theorem bind_eq_ok {x : Decoder α} {f : α → Decoder β} {bs : Bytes} {r : β × Bytes} :
    (x >>= f) bs = .ok r ↔ ∃ a rest, x bs = .ok (a, rest) ∧ f a rest = .ok r := by
  rw [bind_apply]
  cases h : x bs with
  | error e => simp
  | ok p =>
    obtain ⟨a, rest⟩ := p
    simp

@[simp] theorem map_apply (f : α → β) (x : Decoder α) (bs : Bytes) :
    (f <$> x) bs = match x bs with
      | .ok (a, rest) => .ok (f a, rest)
      | .error e => .error e := rfl

theorem id_map (x : Decoder α) : id <$> x = x := by
  funext bs
  rw [map_apply]
  cases x bs <;> rfl

theorem bind_assoc {γ : Type} (x : Decoder α) (f : α → Decoder β) (g : β → Decoder γ) :
    x >>= f >>= g = x >>= fun a => f a >>= g := by
  funext bs
  simp only [bind_apply]
  cases x bs <;> rfl

instance : LawfulMonad Decoder := LawfulMonad.mk' Decoder id_map (fun _ _ => rfl) bind_assoc

def fail (e : IoError) : Decoder α := fun _ => .error e

/-- A computation that reads nothing. -/
def lift (x : Except IoError α) : Decoder α := fun bs => (·, bs) <$> x

/-- Reads exactly `n` bytes. -/
def take (n : Nat) : Decoder Bytes := fun bs =>
  if n ≤ bs.length then .ok (bs.take n, bs.drop n)
  else .error (.invalidData "Unexpected length of input")

/-- Reads everything that is left. -/
def readToEnd : Decoder Bytes := fun bs => .ok (bs, [])

theorem take_eq_ok {n : Nat} {bs a rest : Bytes} :
    take n bs = .ok (a, rest) ↔ bs = a ++ rest ∧ a.length = n := by
  unfold take
  constructor
  · intro h
    split at h
    · cases h
      exact ⟨(List.take_append_drop n bs).symm, by simpa⟩
    · cases h
  · rintro ⟨rfl, rfl⟩
    simp

@[simp] theorem take_append (a rest : Bytes) : take a.length (a ++ rest) = .ok (a, rest) :=
  take_eq_ok.2 ⟨rfl, rfl⟩

/-- A little-endian unsigned integer of `k` bytes. -/
def le (k : Nat) : Decoder Nat := leNat <$> take k

def u8 : Decoder UInt8 := UInt8.ofNat <$> le 1
def u16 : Decoder UInt16 := UInt16.ofNat <$> le 2
def u32 : Decoder UInt32 := UInt32.ofNat <$> le 4
def u64 : Decoder UInt64 := UInt64.ofNat <$> le 8

/-- A byte array of a fixed length. -/
def fixed (n : Nat) : Decoder (FixedBytes n) := fun bs =>
  if h : n ≤ bs.length then .ok (⟨bs.take n, by simpa using h⟩, bs.drop n)
  else .error (.invalidData "Unexpected length of input")

/-- `n` values, one after the other. -/
def many (d : Decoder α) : Nat → Decoder (List α)
  | 0 => pure []
  | n + 1 => do
    let a ← d
    let as ← many d n
    return a :: as

/-- A decoder that has to consume its whole input. -/
def tryFromSlice (d : Decoder α) (bs : Bytes) : Except IoError α :=
  match d bs with
  | .ok (a, []) => .ok a
  | .ok (_, _ :: _) => .error (.invalidData "Not all bytes read")
  | .error e => .error e

theorem tryFromSlice_eq_ok {d : Decoder α} {bs : Bytes} {a : α} :
    d.tryFromSlice bs = .ok a ↔ d bs = .ok (a, []) := by
  unfold tryFromSlice
  constructor
  · intro h
    split at h
    · cases h
      assumption
    · cases h
    · cases h
  · intro h
    rw [h]

theorem fixed_eq_ok {n : Nat} {bs rest : Bytes} {a : FixedBytes n} :
    fixed n bs = .ok (a, rest) ↔ bs = a.bytes ++ rest := by
  unfold fixed
  constructor
  · intro h
    split at h
    · cases h
      exact (List.take_append_drop n bs).symm
    · cases h
  · intro h
    have hn : n = a.bytes.length := a.length_eq.symm
    subst h
    rw [dif_pos (by simp [a.length_eq])]
    congr 2
    · ext1
      simp [hn]
    · simp [hn]

theorem le_eq_ok {k n : Nat} {bs rest : Bytes} :
    le k bs = .ok (n, rest) ↔ ∃ a, bs = a ++ rest ∧ a.length = k ∧ leNat a = n := by
  unfold le
  rw [map_apply]
  constructor
  · intro h
    split at h
    · rename_i a mid ht
      cases h
      obtain ⟨rfl, hl⟩ := take_eq_ok.1 ht
      exact ⟨a, rfl, hl, rfl⟩
    · cases h
  · rintro ⟨a, rfl, rfl, rfl⟩
    simp

theorem lift_eq_ok {x : Except IoError α} {bs rest : Bytes} {a : α} :
    lift x bs = .ok (a, rest) ↔ x = .ok a ∧ bs = rest := by
  simp only [lift, map_eq_ok, Prod.mk.injEq]
  constructor
  · rintro ⟨_, hx, rfl, rfl⟩
    exact ⟨hx, rfl⟩
  · rintro ⟨hx, rfl⟩
    exact ⟨a, hx, rfl, rfl⟩

theorem u8_eq_ok {b : UInt8} {bs rest : Bytes} : u8 bs = .ok (b, rest) ↔ bs = b :: rest := by
  unfold u8
  rw [map_apply]
  constructor
  · intro h
    split at h
    · rename_i n mid hle
      cases h
      obtain ⟨a, rfl, hl, rfl⟩ := le_eq_ok.1 hle
      obtain ⟨b, rfl⟩ := List.length_eq_one_iff.1 hl
      simp [leNat]
    · cases h
  · rintro rfl
    have hle : le 1 (b :: rest) = .ok (b.toNat, rest) := le_eq_ok.2 ⟨[b], rfl, rfl, by simp [leNat]⟩
    simp [hle]

theorem u16_eq_ok {n : UInt16} {bs rest : Bytes} :
    u16 bs = .ok (n, rest) ↔ bs = leBytes 2 n.toNat ++ rest := by
  unfold u16
  rw [map_apply]
  constructor
  · intro h
    split at h
    · rename_i v mid hle
      cases h
      obtain ⟨a, rfl, hlen, rfl⟩ := le_eq_ok.1 hle
      have hlt : leNat a < 65536 := by
        have := leNat_lt a
        rwa [hlen] at this
      have hback : leBytes 2 (leNat a) = a := hlen ▸ leBytes_leNat a
      have hto : (UInt16.ofNat (leNat a)).toNat = leNat a := by simpa using hlt
      rw [hto, hback]
    · cases h
  · rintro rfl
    have hle : le 2 (leBytes 2 n.toNat ++ rest) = .ok (n.toNat % 65536, rest) :=
      le_eq_ok.2 ⟨_, rfl, length_leBytes _ _, leNat_leBytes _ _⟩
    simp [hle]

/-! ## Decoders of fixed-size values -/

/-- A successful read takes exactly `k` bytes. -/
def Consumes (k : Nat) (d : Decoder α) : Prop :=
  ∀ ⦃bs : Bytes⦄ ⦃a : α⦄ ⦃rest : Bytes⦄, d bs = .ok (a, rest) →
    ∃ pre, bs = pre ++ rest ∧ pre.length = k

theorem consumes_le (k : Nat) : Consumes k (le k) := by
  intro bs a rest h
  obtain ⟨pre, hpre, hlen, _⟩ := le_eq_ok.1 h
  exact ⟨pre, hpre, hlen⟩

theorem consumes_pure (a : α) : Consumes 0 (pure a : Decoder α) := by
  intro bs b rest h
  cases h
  exact ⟨[], rfl, rfl⟩

theorem Consumes.bind {j k : Nat} {d : Decoder α} {f : α → Decoder β} (hd : Consumes j d)
    (hf : ∀ a, Consumes k (f a)) : Consumes (j + k) (d >>= f) := by
  intro bs b rest h
  obtain ⟨a, mid, hda, hfa⟩ := bind_eq_ok.1 h
  obtain ⟨pre, rfl, rfl⟩ := hd hda
  obtain ⟨post, rfl, rfl⟩ := hf a hfa
  exact ⟨pre ++ post, (List.append_assoc ..).symm, List.length_append⟩

theorem Consumes.map {k : Nat} {d : Decoder α} (hd : Consumes k d) (f : α → β) :
    Consumes k (f <$> d) := by
  rw [← bind_pure_comp]
  exact hd.bind fun a => consumes_pure (f a)

theorem consumes_take (k : Nat) : Consumes k (take k) := by
  intro bs a rest h
  obtain ⟨rfl, hlength⟩ := take_eq_ok.1 h
  exact ⟨a, rfl, hlength⟩

theorem consumes_fixed (n : Nat) : Consumes n (fixed n) := by
  intro bs a rest h
  exact ⟨a.bytes, fixed_eq_ok.1 h, a.length_eq⟩

theorem consumes_u16 : Consumes 2 u16 := (consumes_le 2).map _

/-- The decoder reads whatever `k` bytes it is given, and leaves what follows them. -/
def Reads (k : Nat) (d : Decoder α) : Prop :=
  ∀ bs rest : Bytes, bs.length = k → ∃ a, d (bs ++ rest) = .ok (a, rest)

theorem reads_take (k : Nat) : Reads k (take k) := by
  intro bs rest h
  exact ⟨bs, take_eq_ok.2 ⟨rfl, h⟩⟩

theorem reads_pure (a : α) : Reads 0 (pure a : Decoder α) := by
  intro bs rest h
  rw [List.eq_nil_of_length_eq_zero h]
  exact ⟨a, rfl⟩

theorem Reads.bind {j k : Nat} {d : Decoder α} {f : α → Decoder β} (hd : Reads j d)
    (hf : ∀ a, Reads k (f a)) : Reads (j + k) (d >>= f) := by
  intro bs rest h
  obtain ⟨a, ha⟩ := hd (bs.take j) (bs.drop j ++ rest) (by rw [List.length_take]; omega)
  obtain ⟨b, hb⟩ := hf a (bs.drop j) rest (by rw [List.length_drop]; omega)
  refine ⟨b, bind_eq_ok.2 ⟨a, bs.drop j ++ rest, ?_, hb⟩⟩
  rwa [← List.append_assoc, List.take_append_drop] at ha

theorem Reads.map {k : Nat} {d : Decoder α} (hd : Reads k d) (f : α → β) : Reads k (f <$> d) := by
  rw [← bind_pure_comp]
  exact hd.bind fun a => reads_pure (f a)

theorem reads_u8 : Reads 1 u8 := ((reads_take 1).map leNat).map _

theorem reads_u16 : Reads 2 u16 := ((reads_take 2).map leNat).map _

/-- The decoder reads exactly the values that `enc` writes. -/
def Exact (d : Decoder α) (enc : α → Bytes) : Prop :=
  ∀ {bs : Bytes} {a : α} {rest : Bytes}, d bs = .ok (a, rest) ↔ bs = enc a ++ rest

theorem Exact.many {d : Decoder α} {enc : α → Bytes} (h : Exact d enc) {rest : Bytes} :
    ∀ {n : Nat} {bs : Bytes} {as : List α},
      d.many n bs = .ok (as, rest) ↔ as.length = n ∧ bs = as.flatMap enc ++ rest
  | 0, bs, as => by
    rw [Decoder.many, pure_apply]
    constructor
    · rintro ⟨⟩
      exact ⟨rfl, rfl⟩
    · rintro ⟨hlen, rfl⟩
      cases List.eq_nil_of_length_eq_zero hlen
      rfl
  | n + 1, bs, as => by
    have ih {bs : Bytes} {as : List α} :
        d.many n bs = .ok (as, rest) ↔ as.length = n ∧ bs = as.flatMap enc ++ rest := h.many
    simp only [Decoder.many, bind_eq_ok]
    constructor
    · rintro ⟨a, mid, ha, as, rest', has, hpure⟩
      cases hpure
      obtain ⟨rfl, rfl⟩ := ih.1 has
      exact ⟨rfl, by rw [h.1 ha, List.flatMap_cons, List.append_assoc]⟩
    · rintro ⟨hlen, rfl⟩
      obtain ⟨a, as, rfl⟩ := List.exists_cons_of_length_eq_add_one hlen
      rw [List.flatMap_cons, List.append_assoc]
      exact ⟨a, _, h.2 rfl, as, rest, ih.2 ⟨Nat.succ_inj.1 hlen, rfl⟩, rfl⟩

end Decoder

/-- An encoder together with the decoder that undoes it, whatever follows. -/
structure Codec (α : Type) where
  encode : α → Except IoError Bytes
  decode : Decoder α
  decode_encode : ∀ {a : α} {bs : Bytes} (rest : Bytes),
    encode a = .ok bs → decode (bs ++ rest) = .ok (a, rest)

namespace Codec

variable {α β γ : Type}

/-- A little-endian integer of `k` bytes, through its value. -/
def le (k : Nat) (toNat : α → Nat) (ofNat : Nat → α)
    (h : ∀ a, ofNat (toNat a % 256 ^ k) = a) : Codec α where
  encode a := .ok (leBytes k (toNat a))
  decode := ofNat <$> Decoder.le k
  decode_encode := by
    rintro a bs rest ⟨⟩
    have hle : Decoder.le k (leBytes k (toNat a) ++ rest) = .ok (toNat a % 256 ^ k, rest) :=
      Decoder.le_eq_ok.2 ⟨_, rfl, length_leBytes _ _, leNat_leBytes _ _⟩
    simp [hle, h]

def u8 : Codec UInt8 := le 1 UInt8.toNat UInt8.ofNat fun a => by simp
def u32 : Codec UInt32 := le 4 UInt32.toNat UInt32.ofNat fun a => by simp
def u64 : Codec UInt64 := le 8 UInt64.toNat UInt64.ofNat fun a => by simp
def i64 : Codec Int64 :=
  le 8 (·.toUInt64.toNat) (UInt64.toInt64 <| UInt64.ofNat ·) fun a => by simp

/-- A big-endian integer of `k` bytes, through its value. -/
def be (k : Nat) (toNat : α → Nat) (ofNat : Nat → α)
    (h : ∀ a, ofNat (toNat a % 256 ^ k) = a) : Codec α where
  encode a := .ok (leBytes k (toNat a)).reverse
  decode := (fun bs => ofNat (leNat bs.reverse)) <$> Decoder.take k
  decode_encode := by
    rintro a bs rest ⟨⟩
    have htake : Decoder.take k ((leBytes k (toNat a)).reverse ++ rest) =
        .ok ((leBytes k (toNat a)).reverse, rest) := Decoder.take_eq_ok.2 ⟨rfl, by simp⟩
    simp [htake, leNat_leBytes, h]

def u16BE : Codec UInt16 := be 2 UInt16.toNat UInt16.ofNat fun a => by simp
def u64BE : Codec UInt64 := be 8 UInt64.toNat UInt64.ofNat fun a => by simp

def fixed (n : Nat) : Codec (FixedBytes n) where
  encode a := .ok a.bytes
  decode := Decoder.fixed n
  decode_encode := by
    rintro a bs rest ⟨⟩
    exact Decoder.fixed_eq_ok.2 rfl

def pair (c : Codec α) (d : Codec β) : Codec (α × β) where
  encode p := do
    let xs ← c.encode p.1
    let ys ← d.encode p.2
    return xs ++ ys
  decode := do
    let a ← c.decode
    let b ← d.decode
    return (a, b)
  decode_encode := by
    rintro ⟨a, b⟩ bs rest h
    simp only [Lib.bind_eq_ok, pure_eq_ok] at h
    obtain ⟨xs, hx, ys, hy, rfl⟩ := h
    rw [List.append_assoc, Decoder.bind_apply, c.decode_encode _ hx]
    dsimp only
    rw [Decoder.bind_apply, d.decode_encode _ hy]
    rfl

/-- The codec of a type that is another one in disguise. -/
def iso (f : α → β) (g : β → α) (h : ∀ b, f (g b) = b) (c : Codec α) : Codec β where
  encode b := c.encode (g b)
  decode := f <$> c.decode
  decode_encode := by
    intro b bs rest hb
    simp [c.decode_encode rest hb, h]

/-- An enumeration: the variant's tag byte, then its fields. `decodeVariant` says how the variant
    with a given tag is read. -/
def enum (tag : α → UInt8) (encodeVariant : α → Except IoError Bytes)
    (decodeVariant : UInt8 → Option (Decoder α))
    (h : ∀ a, ∃ d, decodeVariant (tag a) = some d ∧
      ∀ bs rest, encodeVariant a = .ok bs → d (bs ++ rest) = .ok (a, rest)) : Codec α where
  encode a := (tag a :: ·) <$> encodeVariant a
  decode := do
    let t ← u8.decode
    match decodeVariant t with
    | some d => d
    | none => Decoder.fail (.invalidData "Unexpected variant tag")
  decode_encode := by
    intro a bs rest hb
    obtain ⟨xs, hx, rfl⟩ := map_eq_ok.1 hb
    obtain ⟨d, hd, hdec⟩ := h a
    have hbyte : u8.encode (tag a) = .ok [tag a] := by simp [u8, le, leBytes]
    have htag : u8.decode (tag a :: (xs ++ rest)) = .ok (tag a, xs ++ rest) :=
      u8.decode_encode (xs ++ rest) hbyte
    rw [List.cons_append, Decoder.bind_apply, htag]
    simp only [hd]
    exact hdec xs rest hx

/-! ## What is written -/

theorem pair_encode_eq_ok {c : Codec α} {d : Codec β} {p : α × β} {bs : Bytes} :
    (c.pair d).encode p = .ok bs ↔
      ∃ xs, c.encode p.1 = .ok xs ∧ ∃ ys, d.encode p.2 = .ok ys ∧ xs ++ ys = bs := by
  simp only [pair, Lib.bind_eq_ok, pure_eq_ok]

theorem fixed_encode_eq_ok {n : Nat} {a : FixedBytes n} {bs : Bytes} :
    (fixed n).encode a = .ok bs ↔ a.bytes = bs := by
  simp only [fixed, Except.ok.injEq]

theorem i64_encode_eq_ok {n : Int64} {bs : Bytes} :
    i64.encode n = .ok bs ↔ leBytes 8 n.toUInt64.toNat = bs := by
  simp only [i64, le, Except.ok.injEq]

/-! ## Codecs of fixed-size values -/

/-- Whatever `k` bytes there are, they encode a value. -/
def Covers (k : Nat) (c : Codec α) : Prop := ∀ bs : Bytes, bs.length = k → ∃ a, c.encode a = .ok bs

theorem covers_be (k : Nat) (toNat : α → Nat) (ofNat : Nat → α)
    (h : ∀ a, ofNat (toNat a % 256 ^ k) = a) (hto : ∀ n < 256 ^ k, toNat (ofNat n) = n) :
    Covers k (be k toNat ofNat h) := by
  intro bs hbs
  have hlen : bs.reverse.length = k := List.length_reverse.trans hbs
  have hlt : leNat bs.reverse < 256 ^ k := hlen ▸ leNat_lt bs.reverse
  have hback : leBytes k (leNat bs.reverse) = bs.reverse := hlen ▸ leBytes_leNat bs.reverse
  refine ⟨ofNat (leNat bs.reverse), ?_⟩
  show Except.ok (leBytes k (toNat (ofNat (leNat bs.reverse)))).reverse = _
  rw [hto _ hlt, hback, List.reverse_reverse]

theorem covers_u16BE : Covers 2 u16BE :=
  covers_be 2 _ _ _ fun _ hn => UInt16.toNat_ofNat_of_lt' hn

theorem covers_u64BE : Covers 8 u64BE :=
  covers_be 8 _ _ _ fun _ hn => UInt64.toNat_ofNat_of_lt' hn

theorem covers_fixed (n : Nat) : Covers n (fixed n) := by
  intro bs hbs
  exact ⟨⟨bs, hbs⟩, rfl⟩

theorem Covers.pair {j k : Nat} {c : Codec α} {d : Codec β} (hc : Covers j c) (hd : Covers k d) :
    Covers (j + k) (c.pair d) := by
  intro bs hbs
  obtain ⟨a, ha⟩ := hc (bs.take j) (by rw [List.length_take]; omega)
  obtain ⟨b, hb⟩ := hd (bs.drop j) (by rw [List.length_drop]; omega)
  refine ⟨(a, b), ?_⟩
  simp only [Codec.pair, ha, hb, Bind.bind, Except.bind, pure, Except.pure, List.take_append_drop]

theorem Covers.iso {k : Nat} {c : Codec α} (hc : Covers k c) {f : α → β} {g : β → α}
    (h : ∀ b, f (g b) = b) (hg : ∀ a, g (f a) = a) : Covers k (c.iso f g h) := by
  intro bs hbs
  obtain ⟨a, ha⟩ := hc bs hbs
  exact ⟨f a, (congrArg c.encode (hg a)).trans ha⟩

theorem consumes_u16BE : Decoder.Consumes 2 u16BE.decode := (Decoder.consumes_take 2).map _

theorem consumes_u64BE : Decoder.Consumes 8 u64BE.decode := (Decoder.consumes_take 8).map _

theorem consumes_fixed (n : Nat) : Decoder.Consumes n (fixed n).decode := Decoder.consumes_fixed n

theorem consumes_pair {j k : Nat} {c : Codec α} {d : Codec β} (hc : Decoder.Consumes j c.decode)
    (hd : Decoder.Consumes k d.decode) : Decoder.Consumes (j + k) (c.pair d).decode :=
  hc.bind fun _ => hd.bind fun _ => Decoder.consumes_pure _

theorem consumes_iso {k : Nat} {c : Codec α} (hc : Decoder.Consumes k c.decode) {f : α → β} {g : β → α}
    (h : ∀ b, f (g b) = b) : Decoder.Consumes k (c.iso f g h).decode :=
  hc.map f

/-! ## Sequences -/

/-- The concatenated encodings of a list. -/
def encodeAll (c : Codec α) : List α → Except IoError Bytes
  | [] => .ok []
  | a :: as => do
    let xs ← c.encode a
    let ys ← encodeAll c as
    return xs ++ ys

theorem many_encodeAll (c : Codec α) (rest : Bytes) :
    ∀ {as : List α} {bs : Bytes}, c.encodeAll as = .ok bs →
      c.decode.many as.length (bs ++ rest) = .ok (as, rest)
  | [], bs, h => by
    cases h
    rfl
  | a :: as, bs, h => by
    simp only [encodeAll, Lib.bind_eq_ok, pure_eq_ok] at h
    obtain ⟨xs, hx, ys, hy, rfl⟩ := h
    rw [List.append_assoc, List.length_cons, Decoder.many, Decoder.bind_apply,
      c.decode_encode _ hx]
    dsimp only
    rw [Decoder.bind_apply, many_encodeAll c rest hy]
    rfl

/-- A vector: its length in four bytes, then its elements. -/
def vec (c : Codec α) : Codec (List α) where
  encode as :=
    if as.length < 2 ^ 32 then (leBytes 4 as.length ++ ·) <$> c.encodeAll as
    else .error (.invalidData "")
  decode := do
    let n ← u32.decode
    c.decode.many n.toNat
  decode_encode := by
    intro as bs rest h
    split at h
    · rename_i hlen
      obtain ⟨xs, hx, rfl⟩ := map_eq_ok.1 h
      have hto : (UInt32.ofNat as.length).toNat = as.length := by simpa using hlen
      have hn : u32.decode (leBytes 4 as.length ++ (xs ++ rest))
          = .ok (UInt32.ofNat as.length, xs ++ rest) :=
        u32.decode_encode _ (congrArg (fun n => Except.ok (leBytes 4 n)) hto)
      rw [List.append_assoc, Decoder.bind_apply, hn]
      simp only [hto]
      exact many_encodeAll c rest hx
    · cases h

/-- A text: its length in four bytes, then its UTF-8 bytes. -/
def string : Codec String where
  encode s := u8.vec.encode (utf8 s)
  decode := do
    let bs ← u8.vec.decode
    match ofUtf8? bs with
    | some s => return s
    | none => Decoder.fail (.invalidData "invalid utf-8 sequence")
  decode_encode := by
    intro s bs rest h
    rw [Decoder.bind_apply, u8.vec.decode_encode rest h]
    simp only [ofUtf8?_utf8]
    rfl

end Codec

end Lib
