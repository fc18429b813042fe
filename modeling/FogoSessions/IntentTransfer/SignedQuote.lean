import FogoSessions.Lib.Borsh

/-!
# Signed quotes

`intent-transfer/src/bridge/processor/bridge_ntt_tokens.rs` and `be.rs`: the 165-byte quote of a
relayer, with big-endian integers, and the signature over its first 100 bytes.
-/

namespace FogoSessions.IntentTransfer

open Lib

abbrev H160 := FixedBytes 20

structure SignedQuoteHeader where
  quotePrefix : FixedBytes 4
  quoterAddress : H160
  payeeAddress : FixedBytes 32
  sourceChain : UInt16
  destinationChain : UInt16
  expiryTime : UInt64
deriving DecidableEq

structure SignedQuote where
  header : SignedQuoteHeader
  baseFee : UInt64
  destinationGasPrice : UInt64
  sourcePrice : UInt64
  destinationPrice : UInt64
  signature : FixedBytes 65
deriving DecidableEq

def SignedQuoteHeader.codec : Codec SignedQuoteHeader :=
  .iso (fun (a, b, c, d, e, f) => ⟨a, b, c, d, e, f⟩)
    (fun h => (h.quotePrefix, h.quoterAddress, h.payeeAddress, h.sourceChain, h.destinationChain,
      h.expiryTime))
    (fun _ => rfl)
    (.pair (.fixed 4) <| .pair (.fixed 20) <| .pair (.fixed 32) <| .pair .u16BE <|
      .pair .u16BE .u64BE)

def SignedQuote.codec : Codec SignedQuote :=
  .iso (fun (a, b, c, d, e, f) => ⟨a, b, c, d, e, f⟩)
    (fun q => (q.header, q.baseFee, q.destinationGasPrice, q.sourcePrice, q.destinationPrice,
      q.signature))
    (fun _ => rfl)
    (.pair SignedQuoteHeader.codec <| .pair .u64BE <| .pair .u64BE <| .pair .u64BE <|
      .pair .u64BE (.fixed 65))

/-- The signed part: the first 100 bytes of the serialized quote. -/
def SignedQuote.tryGetMessageBody (quote : SignedQuote) : Except String (FixedBytes 100) := do
  let serialized ← mapErr (fun _ => "Failed to serialize") (SignedQuote.codec.encode quote)
  okOr ((slice? serialized 0 100).bind FixedBytes.ofBytes?) "InvalidNttSignedQuote"

/-- The signature and the recovery index. -/
def SignedQuote.tryGetSignatureComponents (quote : SignedQuote) :
    Except String (FixedBytes 64 × UInt8) := do
  let bytes := quote.signature.bytes
  let signature ← okOr (FixedBytes.ofBytes? (bytes.take 64)) "InvalidNttSignedQuote"
  let recoveryIndex ← okOr (bytes.drop 64).head? "InvalidNttSignedQuote"
  return (signature, recoveryIndex)

/-- Whatever 165 bytes there are, they are a quote. -/
theorem SignedQuote.covers_codec : Codec.Covers 165 SignedQuote.codec := by
  have hheader : Codec.Covers 68 SignedQuoteHeader.codec :=
    ((Codec.covers_fixed 4).pair <| (Codec.covers_fixed 20).pair <| (Codec.covers_fixed 32).pair <|
      Codec.covers_u16BE.pair <| Codec.covers_u16BE.pair Codec.covers_u64BE).iso _ fun _ => rfl
  exact (hheader.pair <| Codec.covers_u64BE.pair <| Codec.covers_u64BE.pair <|
    Codec.covers_u64BE.pair <| Codec.covers_u64BE.pair (Codec.covers_fixed 65)).iso _ fun _ => rfl

/-- The bytes of a quote: the quoter, the signature, and what stands before and between them. -/
theorem SignedQuote.encode_eq_ok {quote : SignedQuote} {bs : Bytes}
    (h : SignedQuote.codec.encode quote = .ok bs) :
    ∃ middle, middle.length = 76 ∧
      bs = quote.header.quotePrefix.bytes ++ (quote.header.quoterAddress.bytes ++
        (middle ++ quote.signature.bytes)) := by
  obtain rfl := Except.ok.inj h
  refine ⟨quote.header.payeeAddress.bytes ++ ((leBytes 2 quote.header.sourceChain.toNat).reverse ++
    ((leBytes 2 quote.header.destinationChain.toNat).reverse ++
    ((leBytes 8 quote.header.expiryTime.toNat).reverse ++
    ((leBytes 8 quote.baseFee.toNat).reverse ++
    ((leBytes 8 quote.destinationGasPrice.toNat).reverse ++
    ((leBytes 8 quote.sourcePrice.toNat).reverse ++
      (leBytes 8 quote.destinationPrice.toNat).reverse)))))), ?_, ?_⟩
  · simp [FixedBytes.length_eq]
  · simp only [List.append_assoc]

theorem SignedQuote.encode_layout {quote : SignedQuote} {bs : Bytes}
    (h : SignedQuote.codec.encode quote = .ok bs) :
    bs.length = 165 ∧ (bs.drop 4).take 20 = quote.header.quoterAddress.bytes ∧
      bs.drop 100 = quote.signature.bytes := by
  obtain ⟨middle, hmiddle, rfl⟩ := encode_eq_ok h
  refine ⟨?_, ?_, ?_⟩
  · simp [hmiddle, FixedBytes.length_eq]
  · rw [List.drop_left' quote.header.quotePrefix.length_eq,
      List.take_left' quote.header.quoterAddress.length_eq]
  · rw [← List.append_assoc, ← List.append_assoc]
    apply List.drop_left'
    simp [hmiddle, FixedBytes.length_eq]

theorem SignedQuote.tryGetMessageBody_of_encode {quote : SignedQuote} {bs : Bytes}
    (h : SignedQuote.codec.encode quote = .ok bs) :
    ∃ body, quote.tryGetMessageBody = .ok body ∧ body.bytes = bs.take 100 := by
  have hslice : slice? bs 0 100 = some (bs.take 100) := by
    rw [slice?, if_pos (by rw [(encode_layout h).1]; decide), List.drop_zero]
  obtain ⟨body, hbody⟩ : ∃ body : FixedBytes 100, body.bytes = bs.take 100 :=
    ⟨⟨bs.take 100, slice?_length hslice⟩, rfl⟩
  refine ⟨body, ?_, hbody⟩
  refine bind_eq_ok.2 ⟨bs, mapErr_eq_ok.2 h, okOr_eq_ok.2 ?_⟩
  rw [hslice]
  exact FixedBytes.ofBytes?_eq_some.2 hbody

theorem SignedQuote.tryGetSignatureComponents_isOk (quote : SignedQuote) :
    ∃ signature recoveryIndex, quote.tryGetSignatureComponents = .ok (signature, recoveryIndex) ∧
      quote.signature.bytes = signature.bytes ++ [recoveryIndex] := by
  have hlength := quote.signature.length_eq
  obtain ⟨recoveryIndex, hindex⟩ : ∃ b, quote.signature.bytes.drop 64 = [b] := by
    apply List.length_eq_one_iff.1
    rw [List.length_drop, hlength]
  obtain ⟨signature, hsignature⟩ : ∃ s : FixedBytes 64, s.bytes = quote.signature.bytes.take 64 :=
    ⟨⟨quote.signature.bytes.take 64, by rw [List.length_take, hlength]; decide⟩, rfl⟩
  refine ⟨signature, recoveryIndex, ?_, ?_⟩
  · refine bind_eq_ok.2 ⟨signature, okOr_eq_ok.2 (FixedBytes.ofBytes?_eq_some.2 hsignature), ?_⟩
    exact bind_eq_ok.2 ⟨recoveryIndex, okOr_eq_ok.2 (by rw [hindex]; rfl), rfl⟩
  · rw [hsignature, ← hindex, List.take_append_drop]

/-- A quote is read from 165 bytes. -/
theorem SignedQuote.consumes_codec : Decoder.Consumes 165 SignedQuote.codec.decode := by
  have hheader : Decoder.Consumes 68 SignedQuoteHeader.codec.decode :=
    Codec.consumes_iso (Codec.consumes_pair (Codec.consumes_fixed 4) <|
      Codec.consumes_pair (Codec.consumes_fixed 20) <|
      Codec.consumes_pair (Codec.consumes_fixed 32) <|
      Codec.consumes_pair Codec.consumes_u16BE <|
      Codec.consumes_pair Codec.consumes_u16BE Codec.consumes_u64BE) _
  exact Codec.consumes_iso (Codec.consumes_pair hheader <|
    Codec.consumes_pair Codec.consumes_u64BE <| Codec.consumes_pair Codec.consumes_u64BE <|
    Codec.consumes_pair Codec.consumes_u64BE <|
    Codec.consumes_pair Codec.consumes_u64BE (Codec.consumes_fixed 65)) _

/-- The quote has its fields where they stand on the wire, integers with the most significant byte
    first. -/
structure SignedQuote.At (bs : Bytes) (quote : SignedQuote) : Prop where
  quotePrefix : quote.header.quotePrefix.bytes = bs.take 4
  quoterAddress : quote.header.quoterAddress.bytes = (bs.drop 4).take 20
  payeeAddress : quote.header.payeeAddress.bytes = (bs.drop 24).take 32
  sourceChain : quote.header.sourceChain.toNat = beNat ((bs.drop 56).take 2)
  destinationChain : quote.header.destinationChain.toNat = beNat ((bs.drop 58).take 2)
  expiryTime : quote.header.expiryTime.toNat = beNat ((bs.drop 60).take 8)
  baseFee : quote.baseFee.toNat = beNat ((bs.drop 68).take 8)
  destinationGasPrice : quote.destinationGasPrice.toNat = beNat ((bs.drop 76).take 8)
  sourcePrice : quote.sourcePrice.toNat = beNat ((bs.drop 84).take 8)
  destinationPrice : quote.destinationPrice.toNat = beNat ((bs.drop 92).take 8)
  signature : quote.signature.bytes = bs.drop 100

/-- The bytes of an integer. -/
theorem exists_be (k : Nat) {n : Nat} (h : n < 256 ^ k) :
    ∃ bs, (leBytes k n).reverse = bs ∧ bs.length = k ∧ n = beNat bs := by
  refine ⟨_, rfl, by simp, ?_⟩
  rw [beNat_reverse, leNat_leBytes]
  exact (Nat.mod_eq_of_lt h).symm

theorem SignedQuote.at_of_encode {quote : SignedQuote} {bs : Bytes}
    (h : SignedQuote.codec.encode quote = .ok bs) : quote.At bs := by
  obtain ⟨⟨quotePrefix, quoterAddress, payeeAddress, sourceChain, destinationChain, expiryTime⟩, baseFee,
    destinationGasPrice, sourcePrice, destinationPrice, signature⟩ := quote
  obtain rfl := Except.ok.inj h
  obtain ⟨s, hs, hsl, hsv⟩ := exists_be 2 sourceChain.toNat_lt
  obtain ⟨d, hd, hdl, hdv⟩ := exists_be 2 destinationChain.toNat_lt
  obtain ⟨t, ht, htl, htv⟩ := exists_be 8 expiryTime.toNat_lt
  obtain ⟨f, hf, hfl, hfv⟩ := exists_be 8 baseFee.toNat_lt
  obtain ⟨g, hg, hgl, hgv⟩ := exists_be 8 destinationGasPrice.toNat_lt
  obtain ⟨p, hp, hpl, hpv⟩ := exists_be 8 sourcePrice.toNat_lt
  obtain ⟨q, hq, hql, hqv⟩ := exists_be 8 destinationPrice.toNat_lt
  dsimp only
  rw [hs, hd, ht, hf, hg, hp, hq]
  constructor <;>
    simp [List.drop_append, List.drop_eq_nil_of_le, FixedBytes.length_eq, *]

/-- **The codec is faithful**: every 165 bytes are those of one quote, and no other bytes are. -/
theorem SignedQuote.codec_faithful :
    (∀ bs : Bytes, bs.length = 165 → ∃ quote : SignedQuote,
      SignedQuote.codec.decode.tryFromSlice bs = .ok quote ∧ quote.At bs ∧
      SignedQuote.codec.encode quote = .ok bs ∧
      (∃ body, quote.tryGetMessageBody = .ok body ∧ body.bytes = bs.take 100) ∧
      ∃ signature recoveryIndex,
        quote.tryGetSignatureComponents = .ok (signature, recoveryIndex) ∧
        signature.bytes = (bs.drop 100).take 64 ∧ [recoveryIndex] = bs.drop 164) ∧
    (∀ bs : Bytes, bs.length ≠ 165 → ∀ quote,
      SignedQuote.codec.decode.tryFromSlice bs ≠ .ok quote) ∧
    ∀ quote : SignedQuote, ∃ bs, SignedQuote.codec.encode quote = .ok bs ∧
      SignedQuote.codec.decode.tryFromSlice bs = .ok quote := by
  have hread {quote : SignedQuote} {bs : Bytes} (h : SignedQuote.codec.encode quote = .ok bs) :
      SignedQuote.codec.decode.tryFromSlice bs = .ok quote := by
    rw [Decoder.tryFromSlice_eq_ok]
    simpa using SignedQuote.codec.decode_encode [] h
  refine ⟨?_, ?_, ?_⟩
  · intro bs hbs
    obtain ⟨quote, hquote⟩ := SignedQuote.covers_codec bs hbs
    obtain ⟨signature, recoveryIndex, hcomponents, hsplit⟩ := quote.tryGetSignatureComponents_isOk
    have hsignature := (SignedQuote.at_of_encode hquote).signature
    rw [hsplit] at hsignature
    refine ⟨quote, hread hquote, SignedQuote.at_of_encode hquote, hquote,
      SignedQuote.tryGetMessageBody_of_encode hquote, signature, recoveryIndex, hcomponents, ?_, ?_⟩
    · rw [← hsignature, List.take_left' signature.length_eq]
    · have hdrop : bs.drop 164 = (bs.drop 100).drop 64 := by rw [List.drop_drop]
      rw [hdrop, ← hsignature, List.drop_left' signature.length_eq]
  · intro bs hbs quote h
    obtain ⟨pre, rfl, hlength⟩ := SignedQuote.consumes_codec (Decoder.tryFromSlice_eq_ok.1 h)
    rw [List.append_nil] at hbs
    exact hbs hlength
  · intro quote
    obtain ⟨bs, hbs⟩ : ∃ bs, SignedQuote.codec.encode quote = .ok bs := ⟨_, rfl⟩
    exact ⟨bs, hbs, hread hbs⟩

theorem SignedQuote.codec_faithful_sample : ∃ quote : SignedQuote,
    SignedQuote.codec.decode.tryFromSlice ((List.range 165).map UInt8.ofNat) = .ok quote ∧
      quote.header.sourceChain.toNat = 56 * 256 + 57 := by
  obtain ⟨quote, hread, hat, -⟩ :=
    SignedQuote.codec_faithful.1 ((List.range 165).map UInt8.ofNat) (by simp)
  exact ⟨quote, hread, hat.sourceChain.trans (by decide +kernel)⟩

end FogoSessions.IntentTransfer
