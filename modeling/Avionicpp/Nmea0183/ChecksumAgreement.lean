import Avionicpp.Nmea0183.RoundTrip
import Mathlib.Algebra.BigOperators.Group.List.Basic

/-! # The two checksums of a sentence

The framer sums bytes, the serializer sums `char`s promoted to `int` and prints the result. The two
agree exactly if the top bit of the sum is clear, which is a matter of how many bytes of the message
have it set.
-/
namespace Avionicpp.Nmea0183
open Foundations
set_option autoImplicit false

/-- The serializer fills a buffer with the sentence of the body, two digits of the sum and all, and a
framer that is looking for a sentence takes it. -/
def Agrees (conv : FloatConv) (talkerId : List UInt8) (p : Payload) (msg : p.Message)
    (out : Region UInt8) : Prop :=
  let s := Sentence.ofBody (writtenBody conv talkerId p msg)
  ∃ out', serialize conv talkerId p msg out = some (s.bytes.length, out') ∧
    out'.read 0 s.bytes.length = s.bytes ∧
    ∀ (buffer : Region UInt8) (u : List UInt8), s.body.length ≤ buffer.size →
      (framerAfter buffer u).locals.site = .search →
      resultsAfter buffer u (out'.read 0 s.bytes.length) =
        List.replicate s.front.length none ++ [some (.ok s.view)]

/-! ## The bytes of a message -/

/-- What a value contributes: only characters and strings can. -/
def FieldKind.highBytes : (kind : FieldKind) → Option kind.Value → ℕ
  | .char, some c => Nmea0183.highBytes [c]
  | .string, some text => Nmea0183.highBytes text
  | _, _ => 0

def Payload.highBytes (talkerId : List UInt8) (p : Payload) (msg : p.Message) : ℕ :=
  Nmea0183.highBytes talkerId + Nmea0183.highBytes p.messageId +
    (List.ofFn fun i => (p.kind i).highBytes (msg i)).sum

/-- A value whose text does not end the body. -/
def FieldKind.Transmissible : (kind : FieldKind) → kind.Value → Prop
  | .float .., _ => True
  | .int _, _ => True
  | .char, c => BodyText [c]
  | .string, text => BodyText text

structure Transmissible (talkerId : List UInt8) (p : Payload) (msg : p.Message) : Prop where
  talkerId : BodyText talkerId
  messageId : BodyText p.messageId
  values : ∀ i v, msg i = some v → (p.kind i).Transmissible v

theorem highBytes_intercalate (texts : List (List UInt8)) :
    highBytes ([ascii ','].intercalate texts) = (texts.map highBytes).sum := by
  cases texts with
  | nil => rfl
  | cons text texts =>
    rw [intercalate_cons, highBytes_append, List.map_cons, List.sum_cons]
    congr 1
    induction texts with
    | nil => rfl
    | cons t ts ih =>
      have hcomma : highBytes [ascii ','] = 0 := by decide
      rw [List.flatMap_cons, List.cons_append, ← List.singleton_append, highBytes_append, hcomma,
        highBytes_append, ih, List.map_cons, List.sum_cons, Nat.zero_add]

section
variable {conv : FloatConv} (hconv : conv.Conforming)
include hconv

/-- The text of a number is ASCII and has no byte that ends the body. -/
theorem number_chars {kind : FieldKind} (value : Option kind.Value)
    (hnumber : kind ≠ .char ∧ kind ≠ .string) :
    ∀ c ∈ formatField conv kind value, IsFieldChar c := by
  apply formatField_chars hconv
  intro v _
  cases kind with
  | float type precision width => exact trivial
  | int width => exact trivial
  | char => exact absurd rfl hnumber.1
  | string => exact absurd rfl hnumber.2

theorem formatField_highBytes (kind : FieldKind) (value : Option kind.Value) :
    highBytes (formatField conv kind value) = kind.highBytes value := by
  have hascii : ∀ c, IsFieldChar c → IsAscii c := by
    intro c hc
    have h := hc.2.1
    show c.toNat < 128
    omega
  cases value with
  | none => cases kind <;> rfl
  | some v =>
    cases kind with
    | float type precision width =>
      exact highBytes_ascii fun c hc => hascii c (number_chars hconv (some v) (by simp) c hc)
    | int width =>
      exact highBytes_ascii fun c hc => hascii c (number_chars hconv (some v) (by simp) c hc)
    | char => rfl
    | string => rfl

theorem writtenBody_highBytes (talkerId : List UInt8) (p : Payload) (msg : p.Message) :
    highBytes (writtenBody conv talkerId p msg) = p.highBytes talkerId msg := by
  have hcomma : highBytes [ascii ','] = 0 := by decide
  have hfields : (fieldTexts conv p msg).map highBytes =
      List.ofFn fun i => (p.kind i).highBytes (msg i) := by
    rw [fieldTexts, List.map_ofFn]
    congr 1
    funext i
    exact formatField_highBytes hconv (p.kind i) (msg i)
  rw [writtenBody, List.append_cons, highBytes_append, highBytes_append, highBytes_append, hcomma,
    highBytes_intercalate, hfields, Payload.highBytes, Nat.add_zero]

theorem formatField_bodyText (kind : FieldKind) (value : Option kind.Value)
    (hvalue : ∀ v, value = some v → kind.Transmissible v) :
    BodyText (formatField conv kind value) := by
  have hprintable : ∀ c, IsFieldChar c → c ≠ ascii '*' ∧ c ≠ ascii '\n' := by
    rintro c ⟨hlow, -, -, hstar⟩
    refine ⟨hstar, ?_⟩
    rintro rfl
    revert hlow
    decide
  cases value with
  | none =>
    intro c hc
    cases hc
  | some v =>
    have hv := hvalue v rfl
    cases kind with
    | float type precision width =>
      exact fun c hc => hprintable c (number_chars hconv (some v) (by simp) c hc)
    | int width =>
      exact fun c hc => hprintable c (number_chars hconv (some v) (by simp) c hc)
    | char => exact hv
    | string => exact hv

theorem writtenBody_bodyText {talkerId : List UInt8} {p : Payload} {msg : p.Message}
    (h : Transmissible talkerId p msg) : BodyText (writtenBody conv talkerId p msg) := by
  have hcomma : ascii ',' ≠ ascii '*' ∧ ascii ',' ≠ ascii '\n' := by decide
  intro c hc
  obtain haddress | hc := List.mem_append.mp hc
  · obtain htalker | hid := List.mem_append.mp haddress
    · exact h.talkerId c htalker
    · exact h.messageId c hid
  · obtain rfl | hc := List.mem_cons.mp hc
    · exact hcomma
    · obtain rfl | ⟨text, htext, hc⟩ := mem_intercalate hc
      · exact hcomma
      · obtain ⟨i, rfl⟩ := List.mem_ofFn.mp htext
        exact formatField_bodyText hconv (p.kind i) (msg i) (h.values i) c hc

end

/-! ## Agreement -/

/-- A negative sum is printed with its sign, which no digit is. -/
theorem formatInt_negative {v : ℤ} (hv : v < 0) :
    ∃ digits, formatInt 16 2 v = ascii '-' :: digits := by
  rw [formatInt_eq, if_pos hv]
  exact ⟨_, rfl⟩

theorem agrees_of_even {conv : FloatConv} {talkerId : List UInt8} {p : Payload} {msg : p.Message}
    (hbody : BodyText (writtenBody conv talkerId p msg)) {out : Region UInt8}
    (hout : (Sentence.ofBody (writtenBody conv talkerId p msg)).bytes.length ≤ out.size)
    (heven : Even (highBytes (writtenBody conv talkerId p msg))) :
    Agrees conv talkerId p msg out := by
  obtain ⟨out', hserialize, hread⟩ := serialize_ofBody conv talkerId p msg rfl heven out hout
  refine ⟨out', hserialize, hread, fun buffer u hfits hsite => ?_⟩
  rw [hread, resultsAfter_eq, phaseAfter_of_search buffer u hsite]
  exact (sentence_delivered buffer.size _ (Sentence.ofBody_valid hbody hfits)).2

theorem even_of_agrees {conv : FloatConv} {talkerId : List UInt8} {p : Payload} {msg : p.Message}
    {out : Region UInt8}
    (hout : (Sentence.ofBody (writtenBody conv talkerId p msg)).bytes.length ≤ out.size)
    (h : Agrees conv talkerId p msg out) : Even (highBytes (writtenBody conv talkerId p msg)) := by
  obtain ⟨out', hserialize, hread, -⟩ := h
  by_contra hodd
  rw [Nat.not_even_iff_odd] at hodd
  obtain ⟨digits, hdigits⟩ := formatInt_negative (foldXor_of_odd hodd)
  have hbytes := Sentence.ofBody_bytes (writtenBody conv talkerId p msg)
  rw [formatInt_hex] at hbytes
  have hroom : (writtenBody conv talkerId p msg).length + 1 ≤ out.size := by
    rw [hbytes, List.length_append, List.length_cons] at hout
    omega
  obtain ⟨out'', hserialize', hread'⟩ := serialize_writes conv talkerId p msg out rfl rfl hroom
  rw [hserialize', Option.some.injEq, Prod.mk.injEq] at hserialize
  rw [hserialize.1, hserialize.2, hread, hbytes, hdigits] at hread'
  -- what stands behind the asterisk
  have hfooter := congrArg (·[1]?) (List.append_cancel_left hread')
  have hlt := (checksum (writtenBody conv talkerId p msg)).toNat_lt
  rw [List.getElem?_take] at hfooter
  split at hfooter
  · exact digitChar_ne_minus _ (by omega) (Option.some.inj hfooter)
  · cases hfooter

/-- **When the serializer's checksum is the framer's.** -/
theorem checksum_agrees_iff (conv : FloatConv) (hconv : conv.Conforming) (talkerId : List UInt8)
    (p : Payload) (msg : p.Message) (hmsg : Transmissible talkerId p msg) (out : Region UInt8)
    (hout : (Sentence.ofBody (writtenBody conv talkerId p msg)).bytes.length ≤ out.size) :
    Agrees conv talkerId p msg out ↔ Even (p.highBytes talkerId msg) := by
  rw [← writtenBody_highBytes hconv]
  exact ⟨even_of_agrees hout, agrees_of_even (writtenBody_bodyText hconv hmsg) hout⟩

/-- A datum whose code is one letter of two bytes, both with the top bit. -/
def datumMessage : Payloads.dtm.Message
  | ⟨0, _⟩ => some ([0xC3, 0xA9] : List UInt8)
  | ⟨1, _⟩ => none
  | ⟨2, _⟩ => some (0#64 : BitVec 64)
  | ⟨3, _⟩ => none
  | ⟨4, _⟩ => none
  | ⟨5, _⟩ => none
  | ⟨6, _⟩ => none
  | ⟨7, _⟩ => none

theorem datumMessage_transmissible : Transmissible (asciiText "GP") Payloads.dtm datumMessage := by
  refine ⟨by decide, by decide, fun i v hv => ?_⟩
  match i with
  | ⟨0, _⟩ =>
    cases hv
    show BodyText [0xC3, 0xA9]
    decide
  | ⟨1, _⟩ | ⟨3, _⟩ | ⟨4, _⟩ | ⟨5, _⟩ | ⟨6, _⟩ | ⟨7, _⟩ => cases hv
  | ⟨2, _⟩ => exact trivial

theorem datumMessage_agrees :
    Agrees zeroConv (asciiText "GP") Payloads.dtm datumMessage
        (Region.ofList 0 (List.replicate 40 0)) ↔
      Even (Payloads.dtm.highBytes (asciiText "GP") datumMessage) :=
  checksum_agrees_iff zeroConv zeroConv_conforming (asciiText "GP") Payloads.dtm datumMessage
    datumMessage_transmissible _ (by decide)

/-- A heading without a value, marked with a single byte that has the top bit. -/
def headingMessage : Payloads.hdt.Message
  | ⟨0, _⟩ => none
  | ⟨1, _⟩ => some (0xC9 : UInt8)

theorem headingMessage_transmissible :
    Transmissible (asciiText "GP") Payloads.hdt headingMessage := by
  refine ⟨by decide, by decide, fun i v hv => ?_⟩
  match i with
  | ⟨0, _⟩ => cases hv
  | ⟨1, _⟩ =>
    cases hv
    show BodyText [0xC9]
    decide

/-- The sum of its sentence is printed as a negative number. -/
theorem headingMessage_disagrees :
    ¬ ∀ (conv : FloatConv), conv.Conforming → ∀ (talkerId : List UInt8) (p : Payload)
      (msg : p.Message), Transmissible talkerId p msg → ∀ out : Region UInt8,
      (Sentence.ofBody (writtenBody conv talkerId p msg)).bytes.length ≤ out.size →
      Agrees conv talkerId p msg out := by
  intro h
  have hout : (Sentence.ofBody (writtenBody zeroConv (asciiText "GP") Payloads.hdt
      headingMessage)).bytes.length ≤ (Region.ofList 0 (List.replicate 40 0) : Region UInt8).size := by
    decide
  have hagrees := h zeroConv zeroConv_conforming (asciiText "GP") Payloads.hdt headingMessage
    headingMessage_transmissible _ hout
  exact absurd (even_of_agrees hout hagrees) (by decide)

end Avionicpp.Nmea0183
