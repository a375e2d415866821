import Avionicpp.Nmea0183.Payloads
import Avionicpp.Nmea0183.SentenceStream

/-! # The NMEA serializer (`nmea0183/serializer.hpp`)

`serialize` formats a message with a format string that is built from its members, and adds the
checksum and the end of the line. `sentenceOf` says which sentence that is, and `serialize_sentence`
that a buffer with room for it holds it afterwards.
-/
namespace Avionicpp.Nmea0183
open Foundations
set_option autoImplicit false

/-- `formatter<OptionalWrapper>::format`: an absent value has no text. -/
def formatField (conv : FloatConv) : (kind : FieldKind) → Option kind.Value → List UInt8
  | _, none => []
  | .float type precision width, some v => conv.format type precision width v
  | .int width, some v => formatInt 10 width v.toInt
  | .char, some c => [c]
  | .string, some text => text

/-! ## The format string -/

def getSpecifier (_ : Field) : List UInt8 := asciiText "{}"

def buildPayloadFmt (index : ℕ) : List Field → List UInt8
  | [] => []
  | f :: fs =>
    if index = 0 then getSpecifier f ++ buildPayloadFmt (index + 1) fs
    else asciiText "," ++ getSpecifier f ++ buildPayloadFmt (index + 1) fs

/-- `Message::FULL_FMT` -/
def fullFmt (p : Payload) : List UInt8 := asciiText "${}{}," ++ buildPayloadFmt 0 p.fields

def fieldTexts (conv : FloatConv) (p : Payload) (msg : p.Message) : List (List UInt8) :=
  List.ofFn fun i => formatField conv (p.kind i) (msg i)

/-! ## The serializer -/

/-- `std::ranges::fold_left(span, std::uint8_t{0}, std::bit_xor<>{})`: the sum is an `int`, to which
every `char` is promoted. -/
def foldXor (chars : List UInt8) : Int32 := chars.foldl (fun sum c => sum ^^^ c.toInt8.toInt32) 0

/-- `serialize`: the number of bytes written, and the buffer afterwards. Over an empty buffer the
range of the checksum ends before it starts, which is undefined. -/
def serialize (conv : FloatConv) (talkerId : List UInt8) (p : Payload) (msg : p.Message)
    (buffer : Region UInt8) : Option (ℕ × Region UInt8) :=
  let fullArgs := talkerId :: p.messageId :: fieldTexts conv p msg
  let (ptr, buffer) := formatToN buffer 0 (stdFormat (fullFmt p) fullArgs)
  if ptr = 0 then none
  else
    let checksum := foldXor (buffer.read 1 (ptr - 1))
    some (formatToN buffer ptr
      (asciiText "*" ++ formatInt 16 2 checksum.toInt ++ asciiText "\r\n"))

/-! ## The sentence -/

/-- The body of the sentence: the address and the texts of the members. -/
def bodyOf (conv : FloatConv) (talkerId : List UInt8) (p : Payload) (msg : p.Message) : List UInt8 :=
  [ascii ','].intercalate ((talkerId ++ p.messageId) :: fieldTexts conv p msg)

/-- The sentence of a body with the framer's sum. -/
def Sentence.ofBody (body : List UInt8) : Sentence where
  delimiter := ascii '$'
  body := body
  h1 := digitChar ((checksum body).toNat / 16)
  h2 := digitChar ((checksum body).toNat % 16)

def sentenceOf (conv : FloatConv) (talkerId : List UInt8) (p : Payload) (msg : p.Message) :
    Sentence := .ofBody (bodyOf conv talkerId p msg)

theorem intercalate_cons (text : List UInt8) (texts : List (List UInt8)) :
    [ascii ','].intercalate (text :: texts) = text ++ texts.flatMap (List.cons (ascii ',')) := by
  induction texts generalizing text with
  | nil => simp
  | cons t ts ih => rw [List.intercalate_cons_cons, ih, List.flatMap_cons]; simp

theorem mem_intercalate {c : UInt8} {texts : List (List UInt8)}
    (h : c ∈ [ascii ','].intercalate texts) : c = ascii ',' ∨ ∃ text ∈ texts, c ∈ text := by
  cases texts with
  | nil => cases h
  | cons text texts =>
    rw [intercalate_cons] at h
    obtain hc | hc := List.mem_append.mp h
    · exact Or.inr ⟨text, List.mem_cons_self .., hc⟩
    · obtain ⟨t, ht, hc⟩ := List.mem_flatMap.mp hc
      obtain hc | hc := List.mem_cons.mp hc
      · exact Or.inl hc
      · exact Or.inr ⟨t, List.mem_cons_of_mem text ht, hc⟩

theorem stdFormat_buildPayloadFmt (index : ℕ) (fields : List Field) (texts : List (List UInt8))
    (hlen : texts.length = fields.length) :
    stdFormat (buildPayloadFmt (index + 1) fields) texts =
      texts.flatMap (List.cons (ascii ',')) := by
  induction fields generalizing index texts with
  | nil =>
    rw [List.length_nil, List.length_eq_zero_iff] at hlen
    rw [hlen]
    rfl
  | cons f fs ih =>
    cases texts with
    | nil => cases hlen
    | cons t ts =>
      rw [List.length_cons, List.length_cons, Nat.add_right_cancel_iff] at hlen
      rw [buildPayloadFmt, if_neg (Nat.succ_ne_zero index), getSpecifier, List.append_assoc]
      show stdFormat (ascii ',' :: (asciiText "{}" ++ _)) _ = _
      rw [stdFormat_char (by decide), stdFormat_arg, ih _ ts hlen, List.flatMap_cons,
        List.cons_append]

/-- What the code writes between the start character and the checksum. Without a member it still ends
in a comma. -/
def writtenBody (conv : FloatConv) (talkerId : List UInt8) (p : Payload) (msg : p.Message) :
    List UInt8 :=
  talkerId ++ p.messageId ++ ascii ',' :: [ascii ','].intercalate (fieldTexts conv p msg)

theorem stdFormat_members (fields : List Field) (texts : List (List UInt8))
    (hlen : texts.length = fields.length) :
    stdFormat (buildPayloadFmt 0 fields) texts = [ascii ','].intercalate texts := by
  cases fields with
  | nil =>
    rw [List.length_nil, List.length_eq_zero_iff] at hlen
    rw [hlen]
    rfl
  | cons f fs =>
    cases texts with
    | nil => cases hlen
    | cons t ts =>
      rw [List.length_cons, List.length_cons, Nat.add_right_cancel_iff] at hlen
      rw [buildPayloadFmt, if_pos rfl, getSpecifier, stdFormat_arg,
        stdFormat_buildPayloadFmt 0 fs ts hlen, intercalate_cons]

theorem fieldTexts_length (conv : FloatConv) (p : Payload) (msg : p.Message) :
    (fieldTexts conv p msg).length = p.fields.length := List.length_ofFn

theorem stdFormat_fullFmt (conv : FloatConv) (talkerId : List UInt8) (p : Payload)
    (msg : p.Message) :
    stdFormat (fullFmt p) (talkerId :: p.messageId :: fieldTexts conv p msg) =
      ascii '$' :: writtenBody conv talkerId p msg := by
  rw [fullFmt]
  show stdFormat (ascii '$' :: (asciiText "{}" ++ (asciiText "{}" ++ (ascii ',' ::
    buildPayloadFmt 0 p.fields)))) _ = _
  rw [stdFormat_char (by decide), stdFormat_arg, stdFormat_arg, stdFormat_char (by decide),
    stdFormat_members _ _ (fieldTexts_length conv p msg), writtenBody, List.append_assoc]

theorem writtenBody_eq (conv : FloatConv) (talkerId : List UInt8) (p : Payload) (msg : p.Message)
    (hp : p.fields ≠ []) : writtenBody conv talkerId p msg = bodyOf conv talkerId p msg := by
  have hne : fieldTexts conv p msg ≠ [] := by
    intro h
    have hlen := fieldTexts_length conv p msg
    rw [h] at hlen
    exact hp (List.length_eq_zero_iff.mp hlen.symm)
  obtain ⟨text, texts, htexts⟩ := List.exists_cons_of_ne_nil hne
  rw [writtenBody, bodyOf, htexts, List.intercalate_cons_cons, List.append_cons]

/-! ## The checksum -/

def IsAscii (c : UInt8) : Prop := c.toNat < 128

/-- Sign extension commutes with the sum, so the promotion of each `char` gives the promotion of the
framer's sum. -/
theorem foldXor_eq (b : List UInt8) : foldXor b = (checksum b).toInt8.toInt32 := by
  have hfold : ∀ sum : UInt8, b.foldl (fun sum c => sum ^^^ c.toInt8.toInt32) sum.toInt8.toInt32 =
      (b.foldl (· ^^^ ·) sum).toInt8.toInt32 := by
    induction b with
    | nil => exact fun sum => rfl
    | cons c b ih =>
      intro sum
      rw [List.foldl_cons, List.foldl_cons, ← ih (sum ^^^ c), UInt8.toInt8_xor, Int8.toInt32_xor]
  exact hfold 0

/-- The two sums have the same value below `0x80`; from there on the serializer's is negative. -/
theorem foldXor_toInt (b : List UInt8) :
    (foldXor b).toInt =
      if (checksum b).toNat < 128 then ((checksum b).toNat : ℤ) else (checksum b).toNat - 256 := by
  rw [foldXor_eq, Int8.toInt_toInt32]
  show (checksum b).toBitVec.toInt = _
  rw [BitVec.toInt_eq_toNat_cond]
  show (if 2 * (checksum b).toNat < 256 then ((checksum b).toNat : ℤ)
    else (checksum b).toNat - 256) = _
  by_cases h : (checksum b).toNat < 128
  · rw [if_pos h, if_pos (by omega)]
  · rw [if_neg h, if_neg (by omega)]

theorem xor_high (x y : UInt8) :
    128 ≤ (x ^^^ y).toNat ↔ ¬ (128 ≤ x.toNat ↔ 128 ≤ y.toNat) := by
  have hbit : ∀ z : UInt8, z.toNat.testBit 7 = decide (128 ≤ z.toNat) := by
    intro z
    have hz := z.toNat_lt
    rw [Nat.testBit_eq_decide_div_mod_eq, decide_eq_decide]
    omega
  have hxor := Nat.testBit_xor x.toNat y.toNat 7
  rw [← UInt8.toNat_xor, hbit, hbit, hbit] at hxor
  rw [← decide_eq_true_iff (p := 128 ≤ (x ^^^ y).toNat), hxor, bne_iff_ne, ne_eq, decide_eq_decide]

def highBytes (text : List UInt8) : ℕ := text.countP fun c => decide (128 ≤ c.toNat)

theorem highBytes_append (a b : List UInt8) : highBytes (a ++ b) = highBytes a + highBytes b :=
  List.countP_append

theorem highBytes_ascii {text : List UInt8} (h : ∀ c ∈ text, IsAscii c) : highBytes text = 0 := by
  rw [highBytes, List.countP_eq_zero]
  intro c hc
  have hascii : c.toNat < 128 := h c hc
  simpa using hascii

/-- The top bit of the sum is the parity of the number of bytes that have it. -/
theorem checksum_high (b : List UInt8) :
    128 ≤ (checksum b).toNat ↔ Odd (highBytes b) := by
  induction b using List.reverseRecOn with
  | nil => exact iff_of_false (by decide) (by decide)
  | append_singleton b c ih =>
    rw [checksum_concat, xor_high, ih, highBytes_append]
    by_cases hc : 128 ≤ c.toNat
    · simp [highBytes, hc, Nat.odd_add_one]
    · simp [highBytes, hc]

/-- The serializer's sum is the framer's, or it is negative. -/
theorem foldXor_of_even {b : List UInt8} (h : Even (highBytes b)) :
    (foldXor b).toInt = (checksum b).toNat := by
  have hlow : ¬ 128 ≤ (checksum b).toNat := by
    rwa [checksum_high, Nat.not_odd_iff_even]
  rw [foldXor_toInt, if_pos (by omega)]

theorem foldXor_of_odd {b : List UInt8} (h : Odd (highBytes b)) : (foldXor b).toInt < 0 := by
  have hhigh := (checksum_high b).mpr h
  have hlt := (checksum b).toNat_lt
  rw [foldXor_toInt, if_neg (by omega)]
  omega

theorem formatInt_hex (x : UInt8) :
    formatInt 16 2 (x.toNat : ℤ) = [digitChar (x.toNat / 16), digitChar (x.toNat % 16)] := by
  have hx := x.toNat_lt
  have hpos : ¬ (x.toNat : ℤ) < 0 := by omega
  by_cases h0 : x.toNat = 0
  · rw [h0]
    decide
  · by_cases h16 : x.toNat < 16
    · have hz : ascii '0' = digitChar 0 := by decide
      have hdiv : x.toNat / 16 = 0 := by omega
      have hmod : x.toNat % 16 = x.toNat := by omega
      simp [formatInt, hpos, digitsOf, h0, hdiv, hmod, hz, Nat.digits_of_lt 16 x.toNat h0 h16]
    · have hdigits : Nat.digits 16 x.toNat = [x.toNat % 16, x.toNat / 16] := by
        rw [Nat.digits_def' (by omega) (by omega),
          Nat.digits_of_lt 16 (x.toNat / 16) (by omega) (by omega)]
      simp [formatInt, hpos, digitsOf, h0, hdigits]

theorem hexByte_digitChar (x : UInt8) :
    hexByte (digitChar (x.toNat / 16)) (digitChar (x.toNat % 16)) = some x := by
  have hx := x.toNat_lt
  rw [hexByte, digitIn_digitChar (by omega) (by omega), digitIn_digitChar (by omega) (by omega)]
  show some (UInt8.ofNat (16 * (x.toNat / 16) + x.toNat % 16)) = some x
  rw [Nat.div_add_mod, UInt8.ofNat_toNat]

theorem Sentence.ofBody_bytes (body : List UInt8) :
    (Sentence.ofBody body).bytes =
      ascii '$' :: body ++
        (asciiText "*" ++ formatInt 16 2 (checksum body).toNat ++ asciiText "\r\n") := by
  rw [formatInt_hex]
  simp [Sentence.bytes, Sentence.front, Sentence.ofBody, asciiText]

theorem Sentence.ofBody_valid {body : List UInt8} (hbody : BodyText body) {N : ℕ}
    (hN : body.length ≤ N) : (Sentence.ofBody body).Valid N where
  delimiter := Or.inl rfl
  body := hbody
  fits := hN
  sum := hexByte_digitChar _

/-! ## What the code writes -/

section
variable (conv : FloatConv) (talkerId : List UInt8) (p : Payload) (msg : p.Message)

/-- What a buffer with room for the body holds after `serialize`: the footer as far as it fits. -/
theorem serialize_writes (buffer : Region UInt8) {body footer : List UInt8}
    (hbody : writtenBody conv talkerId p msg = body)
    (hfooter : (asciiText "*" ++ formatInt 16 2 (foldXor body).toInt ++ asciiText "\r\n").take
      (buffer.size - (body.length + 1)) = footer)
    (hroom : body.length + 1 ≤ buffer.size) :
    ∃ buffer', serialize conv talkerId p msg buffer =
        some ((ascii '$' :: body ++ footer).length, buffer') ∧
      buffer'.read 0 (ascii '$' :: body ++ footer).length = ascii '$' :: body ++ footer := by
  have hfmt := stdFormat_fullFmt conv talkerId p msg
  rw [hbody] at hfmt
  have hlen : (ascii '$' :: body).length = body.length + 1 := rfl
  -- the body first
  have hwrite : formatToN buffer 0 (ascii '$' :: body) =
      (body.length + 1, buffer.storeList 0 (ascii '$' :: body)) := by
    have h : formatToN buffer 0 (ascii '$' :: body) = (0 + (ascii '$' :: body).length, _) :=
      formatToN_room (by omega)
    rwa [Nat.zero_add, hlen] at h
  have hread : (buffer.storeList 0 (ascii '$' :: body)).read 1 (body.length + 1 - 1) = body :=
    Region.read_storeList_self (buffer.store 0 (ascii '$')) 1 body
  refine ⟨(buffer.storeList 0 (ascii '$' :: body)).storeList (body.length + 1) footer, ?_, ?_⟩
  · -- then the footer
    rw [serialize, hfmt, hwrite]
    dsimp only
    rw [if_neg (Nat.succ_ne_zero _), hread, formatToN, Region.storeList_size, hfooter,
      List.length_append, hlen]
  · have h := Region.read_storeList_end (buffer.storeList 0 (ascii '$' :: body)) 0
      (ascii '$' :: body).length footer
    rw [Region.read_storeList_self, Nat.zero_add, ← List.length_append] at h
    exact h

theorem serialize_ofBody {body : List UInt8} (hbody : writtenBody conv talkerId p msg = body)
    (heven : Even (highBytes body)) (buffer : Region UInt8)
    (hroom : (Sentence.ofBody body).bytes.length ≤ buffer.size) :
    ∃ buffer', serialize conv talkerId p msg buffer =
        some ((Sentence.ofBody body).bytes.length, buffer') ∧
      buffer'.read 0 (Sentence.ofBody body).bytes.length = (Sentence.ofBody body).bytes := by
  rw [Sentence.ofBody_bytes] at hroom ⊢
  rw [List.length_append, List.length_cons] at hroom
  refine serialize_writes conv talkerId p msg buffer hbody ?_ (by omega)
  rw [foldXor_of_even heven]
  exact List.take_of_length_le (by omega)

/-- **What a buffer with room for the sentence holds after `serialize`.** -/
theorem serialize_sentence (hp : p.fields ≠ [])
    (hascii : ∀ c ∈ bodyOf conv talkerId p msg, IsAscii c) (buffer : Region UInt8)
    (hroom : (sentenceOf conv talkerId p msg).bytes.length ≤ buffer.size) :
    ∃ buffer', serialize conv talkerId p msg buffer =
        some ((sentenceOf conv talkerId p msg).bytes.length, buffer') ∧
      buffer'.read 0 (sentenceOf conv talkerId p msg).bytes.length =
        (sentenceOf conv talkerId p msg).bytes := by
  apply serialize_ofBody conv talkerId p msg (writtenBody_eq conv talkerId p msg hp)
  · rw [highBytes_ascii hascii]
    exact Even.zero
  · exact hroom

end

end Avionicpp.Nmea0183
