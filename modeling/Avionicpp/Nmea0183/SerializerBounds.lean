import Avionicpp.Nmea0183.Serializer

/-! # A buffer of any size

`serialize` writes the sentence as far as the buffer goes. The footer follows only a complete body, so
whatever part of the checksum appears is the checksum of the whole body. An empty buffer leaves no
place for the start character, behind which the sum begins.
-/
namespace Avionicpp.Nmea0183
open Foundations
set_option autoImplicit false

section
variable (conv : FloatConv) (talkerId : List UInt8) (p : Payload) (msg : p.Message)

/-! ## What is asked -/

/-- The sentence of the message, with the sum of its whole body. -/
def completeSentence : List UInt8 := (Sentence.ofBody (writtenBody conv talkerId p msg)).bytes

/-- The span whose sum is taken: the index of its first character and the index behind its last. -/
def checksumSpan (buffer : Region UInt8) : ℕ × ℕ :=
  (1, (formatToN buffer 0 (stdFormat (fullFmt p)
    (talkerId :: p.messageId :: fieldTexts conv p msg))).1)

/-- A call that stays inside the buffer and leaves the front of the sentence in it. -/
structure WritesFront (buffer : Region UInt8) (written : ℕ) (buffer' : Region UInt8) : Prop where
  result : serialize conv talkerId p msg buffer = some (written, buffer')
  length : written = min buffer.size (completeSentence conv talkerId p msg).length
  contents : buffer'.read 0 written = (completeSentence conv talkerId p msg).take written
  stores : ∃ new, buffer'.stores = new ++ buffer.stores ∧ ∀ i ∈ new, i < buffer.size
  reads : (checksumSpan conv talkerId p msg buffer).1 ≤ (checksumSpan conv talkerId p msg buffer).2 ∧
    (checksumSpan conv talkerId p msg buffer).2 ≤ buffer.size

/-! ## What the code writes -/

theorem checksumSpan_first (buffer : Region UInt8) :
    (checksumSpan conv talkerId p msg buffer).1 = 1 := rfl

theorem checksumSpan_last (buffer : Region UInt8) :
    (checksumSpan conv talkerId p msg buffer).2 =
      min buffer.size ((writtenBody conv talkerId p msg).length + 1) := by
  rw [checksumSpan, formatToN_length, stdFormat_fullFmt, Nat.zero_add, Nat.sub_zero,
    List.length_cons]

/-- The sum reads this span and nothing else; a span that ends before it starts is undefined. -/
theorem serialize_span (buffer : Region UInt8) :
    serialize conv talkerId p msg buffer =
      let out := formatToN buffer 0 (ascii '$' :: writtenBody conv talkerId p msg)
      let span := checksumSpan conv talkerId p msg buffer
      if span.2 < span.1 then none
      else some (formatToN out.2 span.2 (asciiText "*" ++
        formatInt 16 2 (foldXor (out.2.read span.1 (span.2 - span.1))).toInt ++
        asciiText "\r\n")) := by
  simp only [serialize, checksumSpan, stdFormat_fullFmt, Nat.lt_one_iff]

theorem serialize_empty (buffer : Region UInt8) (h : buffer.size = 0) :
    serialize conv talkerId p msg buffer = none := by
  have hlast := checksumSpan_last conv talkerId p msg buffer
  rw [h, Nat.zero_min] at hlast
  rw [serialize_span]
  exact if_pos (by rw [hlast, checksumSpan_first]; exact Nat.one_pos)

variable (hascii : ∀ c ∈ writtenBody conv talkerId p msg, IsAscii c)
include hascii

/-- **The whole sentence is written in one go**, as far as the buffer goes. -/
theorem serialize_nonempty {buffer : Region UInt8} (h : 0 < buffer.size) :
    serialize conv talkerId p msg buffer =
      some (formatToN buffer 0 (completeSentence conv talkerId p msg)) := by
  have hlast := checksumSpan_last conv talkerId p msg buffer
  have hptr : (formatToN buffer 0 (ascii '$' :: writtenBody conv talkerId p msg)).1 =
      (checksumSpan conv talkerId p msg buffer).2 := by
    rw [checksumSpan, stdFormat_fullFmt]
  have heven : Even (highBytes (writtenBody conv talkerId p msg)) := by
    rw [highBytes_ascii hascii]
    exact Even.zero
  rw [serialize_span, completeSentence, Sentence.ofBody_bytes, ← formatToN_append, hptr]
  dsimp only
  rw [checksumSpan_first, if_neg (by omega)]
  apply congrArg some
  by_cases hroom : (writtenBody conv talkerId p msg).length + 1 ≤ buffer.size
  · -- the body is complete: the span is the body
    have hlast' : (checksumSpan conv talkerId p msg buffer).2 =
        (writtenBody conv talkerId p msg).length + 1 := by omega
    have hout : (formatToN buffer 0 (ascii '$' :: writtenBody conv talkerId p msg)).2 =
        buffer.storeList 0 (ascii '$' :: writtenBody conv talkerId p msg) := by
      rw [formatToN_room (by rw [List.length_cons]; omega)]
    have hread : (buffer.storeList 0 (ascii '$' :: writtenBody conv talkerId p msg)).read 1
        (writtenBody conv talkerId p msg).length = writtenBody conv talkerId p msg :=
      Region.read_storeList_self (buffer.store 0 (ascii '$')) 1 _
    rw [hlast', hout, Nat.add_sub_cancel, hread, foldXor_of_even heven]
  · -- the body fills the buffer: no footer, whatever the sum
    have hfull : (formatToN buffer 0 (ascii '$' :: writtenBody conv talkerId p msg)).2.size ≤
        (checksumSpan conv talkerId p msg buffer).2 := by
      rw [formatToN, Region.storeList_size]
      omega
    rw [formatToN_full hfull, formatToN_full hfull]

/-- **`serialize` writes the front of the sentence exactly if the buffer has room for a character**,
and a buffer with room for the sentence receives all of it. -/
theorem serialize_front_iff :
    (∀ large : Region UInt8, (completeSentence conv talkerId p msg).length ≤ large.size →
      ∃ large', serialize conv talkerId p msg large =
          some ((completeSentence conv talkerId p msg).length, large') ∧
        large'.read 0 (completeSentence conv talkerId p msg).length =
          completeSentence conv talkerId p msg) ∧
    ∀ buffer : Region UInt8,
      (∃ written buffer', WritesFront conv talkerId p msg buffer written buffer') ↔
        0 < buffer.size := by
  constructor
  · intro large hlarge
    refine serialize_ofBody conv talkerId p msg rfl ?_ large hlarge
    rw [highBytes_ascii hascii]
    exact Even.zero
  · intro buffer
    constructor
    · rintro ⟨written, buffer', h⟩
      by_contra hempty
      have hnone := serialize_empty conv talkerId p msg buffer (by omega)
      rw [h.result] at hnone
      cases hnone
    · intro h
      have hlast := checksumSpan_last conv talkerId p msg buffer
      refine ⟨_, _, serialize_nonempty conv talkerId p msg hascii h, ?_, ?_, ?_, ?_⟩
      · rw [Nat.zero_add, Nat.sub_zero, List.length_take]
      · rw [Nat.zero_add, Nat.sub_zero, Region.read_storeList_self, List.length_take,
          ← List.take_eq_take_min]
      · refine ⟨_, Region.storeList_stores .., ?_⟩
        intro i hi
        rw [List.mem_reverse, List.mem_range'_1, List.length_take] at hi
        omega
      · rw [hlast, checksumSpan_first]
        omega

end

/-- For messages without a floating-point value. -/
def noFloats : FloatConv where
  format _ _ _ _ := []
  fromChars _ _ := (.invalidArgument, 0)

/-- Only the status is known. -/
def sampleTurn : Payloads.rot.Message
  | ⟨0, _⟩ => none
  | ⟨1, _⟩ => some (ascii 'A')

theorem sampleTurn_front :
    (∀ large : Region UInt8,
      (completeSentence noFloats (asciiText "GP") Payloads.rot sampleTurn).length ≤ large.size →
      ∃ large', serialize noFloats (asciiText "GP") Payloads.rot sampleTurn large =
          some ((completeSentence noFloats (asciiText "GP") Payloads.rot sampleTurn).length, large') ∧
        large'.read 0 (completeSentence noFloats (asciiText "GP") Payloads.rot sampleTurn).length =
          completeSentence noFloats (asciiText "GP") Payloads.rot sampleTurn) ∧
    ∀ buffer : Region UInt8,
      (∃ written buffer',
        WritesFront noFloats (asciiText "GP") Payloads.rot sampleTurn buffer written buffer') ↔
        0 < buffer.size :=
  serialize_front_iff noFloats (asciiText "GP") Payloads.rot sampleTurn (by
    have hbody : (asciiText "GPROT,,A").all (fun c => decide (c.toNat < 128)) = true := by decide
    intro c hc
    have hc' : decide (c.toNat < 128) = true := List.all_eq_true.mp hbody c hc
    show c.toNat < 128
    exact of_decide_eq_true hc')

/-- There is no room for the start character. -/
theorem sampleTurn_empty :
    ¬ ∃ written buffer', WritesFront noFloats (asciiText "GP") Payloads.rot sampleTurn
      (Region.ofList 0 []) written buffer' := by
  rintro ⟨written, buffer', h⟩
  have hnone := serialize_empty noFloats (asciiText "GP") Payloads.rot sampleTurn
    (Region.ofList 0 []) rfl
  rw [h.result] at hnone
  cases hnone

end Avionicpp.Nmea0183
