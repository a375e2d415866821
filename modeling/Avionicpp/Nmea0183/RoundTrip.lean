import Avionicpp.Nmea0183.Deserializer
import Avionicpp.Nmea0183.Serializer

/-! # A message over a stream

A message is serialized, framed, dispatched and bound, and every member gives its value back.
-/
namespace Avionicpp.Nmea0183
open Foundations
set_option autoImplicit false

def IsTalkerId (talkerId : List UInt8) : Prop :=
  talkerId.length = 2 ∧
    ∀ c ∈ talkerId, (65 ≤ c.toNat ∧ c.toNat ≤ 90) ∨ (97 ≤ c.toNat ∧ c.toNat ≤ 122)

instance (talkerId : List UInt8) : Decidable (IsTalkerId talkerId) :=
  @instDecidableAnd _ _ _ (List.decidableBAll _ talkerId)

/-- Printable ASCII that neither separates fields nor ends the body. -/
def IsFieldChar (c : UInt8) : Prop :=
  32 ≤ c.toNat ∧ c.toNat ≤ 126 ∧ c ≠ ascii ',' ∧ c ≠ ascii '*'

instance (c : UInt8) : Decidable (IsFieldChar c) := inferInstanceAs (Decidable (_ ∧ _))

def FieldChars (text : List UInt8) : Prop := ∀ c ∈ text, IsFieldChar c

instance (text : List UInt8) : Decidable (FieldChars text) := List.decidableBAll _ text

/-- A value whose text can stand in a field; only text itself could fail to. -/
def FieldKind.Sendable : (kind : FieldKind) → kind.Value → Prop
  | .float .., _ => True
  | .int _, _ => True
  | .char, c => IsFieldChar c
  | .string, text => text ≠ [] ∧ FieldChars text

def FieldKind.IsFloat : FieldKind → Prop
  | .float .. => True
  | _ => False

def Sendable {p : Payload} (msg : p.Message) : Prop :=
  ∀ i v, msg i = some v → (p.kind i).Sendable v

/-- What a member's token must say about its value. -/
structure Restored (conv : FloatConv) {kind : FieldKind} (value : Option kind.Value)
    (token : List UInt8) : Prop where
  text : token = formatField conv kind value
  absent : fieldValue conv kind token = .ok none ↔ value = none
  exact : ¬ kind.IsFloat → fieldValue conv kind token = .ok value

/-- The receiver's side of a message: the handler for its id is invoked, with every member restored
while the buffer has the given contents. -/
def Received (conv : FloatConv) {p : Payload} (msg : p.Message) (contents : Region UInt8)
    (view : MessageView) : Prop :=
  ∃ lazy : p.Lazy,
    (∀ (ρ : Type) (visitor : Visitor ρ) (earlier later : List MessageHandler) (r : ρ),
      (∀ h ∈ earlier, h.id ≠ p.messageId) →
        dispatch contents view visitor (earlier ++ ⟨p.messageId, p⟩ :: later) r =
          (true, visitor ⟨p.messageId, p⟩ (.ok lazy) r)) ∧
    ∀ i, Restored conv (msg i) ((lazy i).text contents)

/-! ## The texts -/

section
variable {conv : FloatConv} (hconv : conv.Conforming)
include hconv

theorem formatField_chars {kind : FieldKind} {value : Option kind.Value}
    (hvalue : ∀ v, value = some v → kind.Sendable v) : FieldChars (formatField conv kind value) := by
  have hfloat : FieldChars floatChars := by decide
  have hminus : IsFieldChar (ascii '-') := by decide
  have hdigit : ∀ d < 10, IsFieldChar (digitChar d) := by decide
  intro c hc
  cases value with
  | none => simp [formatField] at hc
  | some v =>
    have hv := hvalue v rfl
    cases kind with
    | float type precision width => exact hfloat c (hconv.chars type precision width v c hc)
    | int width =>
      obtain rfl | ⟨d, hd, rfl⟩ := formatInt_chars (by omega) width v.toInt c hc
      · exact hminus
      · exact hdigit d hd
    | char => rw [List.mem_singleton.mp hc]; exact hv
    | string => exact hv.2 c hc

theorem formatField_eq_nil {kind : FieldKind} {value : Option kind.Value}
    (hvalue : ∀ v, value = some v → kind.Sendable v) :
    formatField conv kind value = [] ↔ value = none := by
  cases value with
  | none => simp [formatField]
  | some v =>
    have hv := hvalue v rfl
    cases kind with
    | float type precision width =>
      exact iff_of_false (hconv.nonempty type precision width v) (Option.some_ne_none v)
    | int width => exact iff_of_false (formatInt_ne_nil 10 width v.toInt) (Option.some_ne_none v)
    | char => exact iff_of_false (List.cons_ne_nil _ _) (Option.some_ne_none v)
    | string => exact iff_of_false hv.1 (Option.some_ne_none v)

theorem formatField_restored {kind : FieldKind} {value : Option kind.Value}
    (hvalue : ∀ v, value = some v → kind.Sendable v) :
    Restored conv value (formatField conv kind value) := by
  refine ⟨rfl, ?_, ?_⟩
  · rw [fieldValue_none_iff, formatField_eq_nil hconv hvalue]
  · intro hkind
    cases value with
    | none => simp [formatField, fieldValue]
    | some v =>
      cases kind with
      | float type precision width => exact absurd trivial hkind
      | int width => exact fieldValue_int conv width v
      | char => rfl
      | string =>
        obtain ⟨c, rest, htext⟩ := List.exists_cons_of_ne_nil (hvalue v rfl).1
        subst htext
        rfl

end

/-! ## The sentence -/

/-- Every payload type has an id of three characters, a member, and room for all of them in a
view. -/
theorem payloads_fit : ∀ p ∈ Payloads.all,
    p.messageId.length = 3 ∧ FieldChars p.messageId ∧ 0 < p.fields.length ∧
      p.fields.length ≤ maxFields := by
  decide

section
variable {conv : FloatConv} (hconv : conv.Conforming) {p : Payload} (hp : p ∈ Payloads.all)
  {talkerId : List UInt8} (htalker : IsTalkerId talkerId) {msg : p.Message}
  (hmsg : Sendable msg)
include hconv hp htalker hmsg

theorem parts_chars :
    ∀ text ∈ (talkerId ++ p.messageId) :: fieldTexts conv p msg, FieldChars text := by
  obtain ⟨-, hid, -, -⟩ := payloads_fit p hp
  intro text htext c hc
  obtain rfl | htext := List.mem_cons.mp htext
  · obtain hc | hc := List.mem_append.mp hc
    · have hletter := htalker.2 c hc
      refine ⟨by omega, by omega, ?_, ?_⟩ <;>
        · rintro rfl
          revert hletter
          decide
    · exact hid c hc
  · obtain ⟨i, rfl⟩ := List.mem_ofFn.mp htext
    exact formatField_chars hconv (hmsg i) c hc

theorem bodyOf_chars : ∀ c ∈ bodyOf conv talkerId p msg, IsFieldChar c ∨ c = ascii ',' := by
  intro c hc
  rw [bodyOf] at hc
  obtain hcomma | ⟨text, htext, hc⟩ := mem_intercalate hc
  · exact Or.inr hcomma
  · exact Or.inl (parts_chars hconv hp htalker hmsg text htext c hc)

theorem bodyOf_ascii : ∀ c ∈ bodyOf conv talkerId p msg, IsAscii c := by
  intro c hc
  obtain hchar | rfl := bodyOf_chars hconv hp htalker hmsg c hc
  · have h := hchar.2.1
    show c.toNat < 128
    omega
  · show (ascii ',').toNat < 128
    decide

theorem bodyOf_bodyText : BodyText (bodyOf conv talkerId p msg) := by
  intro c hc
  obtain ⟨hlow, -, -, hstar⟩ | rfl := bodyOf_chars hconv hp htalker hmsg c hc
  · refine ⟨hstar, ?_⟩
    rintro rfl
    revert hlow
    decide
  · decide

theorem tokens_bodyOf :
    tokens (bodyOf conv talkerId p msg) = (talkerId ++ p.messageId) :: fieldTexts conv p msg := by
  have hchars := parts_chars hconv hp htalker hmsg
  rw [tokens, bodyOf, List.splitOn_intercalate]
  · intro text htext hmem
    exact (hchars text htext _ hmem).2.2.1 rfl
  · exact List.cons_ne_nil _ _

theorem sentenceOf_view :
    (sentenceOf conv talkerId p msg).view =
      { talkerId := talkerId
        messageType := p.messageId
        fields := fieldTexts conv p msg
        fieldCount := p.fields.length } := by
  obtain ⟨hid, -, -, hroom⟩ := payloads_fit p hp
  have htwo := htalker.1
  have hlen := fieldTexts_length conv p msg
  have haddress : 5 ≤ (talkerId ++ p.messageId).length := by
    rw [List.length_append]
    omega
  have htalkerId : (talkerId ++ p.messageId).take 2 = talkerId := by
    rw [← htwo, List.take_left]
  have htype : ((talkerId ++ p.messageId).drop 2).take 3 = p.messageId := by
    rw [← htwo, List.drop_left, List.take_of_length_le (by omega)]
  have hfields : (fieldTexts conv p msg).take maxFields = fieldTexts conv p msg :=
    List.take_of_length_le (by omega)
  rw [Sentence.view]
  show viewOf (tokens (bodyOf conv talkerId p msg)) = _
  rw [tokens_bodyOf hconv hp htalker hmsg]
  simp only [viewOf, if_pos haddress, htalkerId, htype, hfields, hlen, Nat.min_eq_left hroom]

theorem sentenceOf_valid {N : ℕ} (hN : (bodyOf conv talkerId p msg).length ≤ N) :
    (sentenceOf conv talkerId p msg).Valid N :=
  Sentence.ofBody_valid (bodyOf_bodyText hconv hp htalker hmsg) hN

end

/-! ## The view -/

theorem received_of_text {conv : FloatConv} (hconv : conv.Conforming) {p : Payload}
    {msg : p.Message} (hmsg : Sendable msg) {contents : Region UInt8} {view : MessageView}
    (htype : (view.text contents).messageType = p.messageId)
    (hfields : (view.text contents).fields = fieldTexts conv p msg)
    (hcount : (view.text contents).fieldCount = p.fields.length) :
    Received conv msg contents view := by
  have hlen := fieldTexts_length conv p msg
  obtain ⟨lazy, hbind, htext⟩ := bind_text p hfields (by rw [hcount, hlen])
  refine ⟨lazy, fun ρ visitor earlier later r hearlier => ?_, fun i => ?_⟩
  · rw [← hbind]
    exact dispatch_first contents view visitor earlier later ⟨p.messageId, p⟩ r hearlier htype
  · rw [htext, List.getD_eq_getElem?_getD, fieldTexts, List.getElem?_ofFn, dif_pos i.isLt,
      Option.getD_some]
    exact formatField_restored hconv (hmsg i)

/-- **The round trip of a message.** -/
theorem message_received (conv : FloatConv) (hconv : conv.Conforming) (p : Payload)
    (hp : p ∈ Payloads.all) (talkerId : List UInt8) (htalker : IsTalkerId talkerId)
    (msg : p.Message) (hmsg : Sendable msg) (out : Region UInt8)
    (hout : (sentenceOf conv talkerId p msg).bytes.length ≤ out.size) (buffer : Region UInt8)
    (u : List UInt8) (hsearch : (framerAfter buffer u).locals.site = .search)
    (hfits : (bodyOf conv talkerId p msg).length ≤ buffer.size) :
    ∃ n out', serialize conv talkerId p msg out = some (n, out') ∧
      resultsAfter buffer u (out'.read 0 n) =
        List.replicate (n - 1) none ++
          [some (.ok ⟨talkerId, p.messageId, fieldTexts conv p msg, p.fields.length⟩)] ∧
      ∃ w view, out'.read 0 n = w ++ [ascii '\n'] ∧
        yieldedAfter buffer (u ++ w) (ascii '\n') = some (.ok view) ∧
        Received conv msg (framerAfter buffer (u ++ out'.read 0 n)).locals.buffer view := by
  obtain ⟨-, -, hmember, -⟩ := payloads_fit p hp
  have hne : p.fields ≠ [] := List.ne_nil_of_length_pos hmember
  have hview := sentenceOf_view hconv hp htalker hmsg
  have hvalid := sentenceOf_valid hconv hp htalker hmsg hfits
  obtain ⟨out', hserialize, hread⟩ :=
    serialize_sentence conv talkerId p msg hne (bodyOf_ascii hconv hp htalker hmsg) out hout
  obtain ⟨-, hresults⟩ := sentence_delivered buffer.size (sentenceOf conv talkerId p msg) hvalid
  rw [hview] at hresults
  have hphase : phaseAfter buffer.size u = .searching :=
    phaseAfter_of_search buffer u hsearch
  refine ⟨_, out', hserialize, ?_, ?_⟩
  · rw [hread, resultsAfter_eq, hphase, hresults, Sentence.bytes, List.length_append,
      List.length_singleton, Nat.add_sub_cancel]
  · obtain ⟨view, hyield, htext⟩ := sentence_yielded hphase hvalid
    rw [hview] at htext
    refine ⟨_, view, hread, hyield, ?_⟩
    rw [hread]
    exact received_of_text hconv hmsg (congrArg TextView.messageType htext)
      (congrArg TextView.fields htext) (congrArg TextView.fieldCount htext)

/-- The text of zero, as `std::format` gives it for a precision of at least one. -/
def zeroConv : FloatConv where
  format _ precision width _ :=
    formatInt 10 (width - (precision + 1)) 0 ++ asciiText "." ++ List.replicate precision (ascii '0')
  fromChars _ _ := (.ok, 0)

theorem zeroConv_conforming : zeroConv.Conforming := by
  have hzero : ∀ d < 10, digitChar d ∈ floatChars := by decide
  constructor
  · intro type precision width v
    simp [zeroConv, asciiText]
  · intro type precision width v c hc
    obtain hc | hc := List.mem_append.mp hc
    · obtain hc | hc := List.mem_append.mp hc
      · obtain rfl | ⟨d, hd, rfl⟩ := formatInt_chars (by omega) _ 0 c hc
        · decide
        · exact hzero d hd
      · rw [List.mem_singleton.mp hc]
        decide
    · rw [List.eq_of_mem_replicate hc]
      decide

/-- A date without a day, with a padded negative year and a month wider than its two digits. -/
def sampleDate : Payloads.zda.Message
  | ⟨0, _⟩ => some (0#64 : BitVec 64)
  | ⟨1, _⟩ => none
  | ⟨2, _⟩ => some (123 : Int32)
  | ⟨3, _⟩ => some (-5 : Int32)
  | ⟨4, _⟩ => some (-11 : Int32)
  | ⟨5, _⟩ => none

theorem sampleDate_sendable : Sendable sampleDate := by
  intro i v _
  match i with
  | ⟨0, _⟩ | ⟨1, _⟩ | ⟨2, _⟩ | ⟨3, _⟩ | ⟨4, _⟩ | ⟨5, _⟩ => exact trivial

theorem sampleDate_received :
    ∃ n out', serialize zeroConv (asciiText "GP") Payloads.zda sampleDate
        (Region.ofList 0 (List.replicate 40 0)) = some (n, out') ∧
      resultsAfter (Region.ofList 0 (List.replicate 30 0)) (asciiText "$*00\n") (out'.read 0 n) =
        List.replicate (n - 1) none ++
          [some (.ok ⟨asciiText "GP", asciiText "ZDA",
            fieldTexts zeroConv Payloads.zda sampleDate, 6⟩)] ∧
      ∃ w view, out'.read 0 n = w ++ [ascii '\n'] ∧
        yieldedAfter (Region.ofList 0 (List.replicate 30 0)) (asciiText "$*00\n" ++ w) (ascii '\n') =
          some (.ok view) ∧
        Received zeroConv sampleDate (framerAfter (Region.ofList 0 (List.replicate 30 0))
          (asciiText "$*00\n" ++ out'.read 0 n)).locals.buffer view := by
  apply message_received zeroConv zeroConv_conforming Payloads.zda (by simp [Payloads.all])
    (asciiText "GP") (by decide) sampleDate sampleDate_sendable
  · decide
  · exact (framerAfter_tracks _ (asciiText "$*00\n")).2.2
  · decide

end Avionicpp.Nmea0183
