import Avionicpp.Mavlink.Deserializer
import Avionicpp.Mavlink.SerializerFrame

/-! # Payloads of any length

A payload may end anywhere, in front of, inside or behind the fields. The message that is read from it
has, as its bytes, the payload continued with zeros (`deserialize_bytes`), so serializing it again
gives the payload cut to the size of the message and behind its last byte that is not zero.
-/
namespace Avionicpp.Mavlink
open Foundations
set_option autoImplicit false

/-! ## Reading -/

/-- The ranges that the loop over the fields copies from, as a position and a length. -/
def copiedRanges (buffer : Region UInt8) (endPos : ℕ) : ℕ → List Field → List (ℕ × ℕ)
  | _, [] => []
  | currentPos, f :: fs =>
    let remaining := endPos - currentPos
    let rest := copiedRanges buffer endPos (readField buffer endPos currentPos f.type).2 fs
    if 0 < remaining then (currentPos, min remaining f.type.size) :: rest else rest

theorem copiedRanges_inside (buffer : Region UInt8) {endPos pos : ℕ} (hpos : pos ≤ endPos)
    (fields : List Field) :
    ∀ r ∈ copiedRanges buffer endPos pos fields, pos ≤ r.1 ∧ r.1 + r.2 ≤ endPos := by
  induction fields generalizing pos with
  | nil => exact fun r hr => absurd hr List.not_mem_nil
  | cons f fs ih =>
    obtain ⟨-, hnext⟩ := readField_bytes buffer endPos pos f.type
    have hle := readField_le buffer hpos f.type
    have hrest : ∀ r ∈ copiedRanges buffer endPos (readField buffer endPos pos f.type).2 fs,
        pos ≤ r.1 ∧ r.1 + r.2 ≤ endPos := by
      intro r hr
      obtain ⟨hfrom, hto⟩ := ih hle r hr
      exact ⟨by omega, hto⟩
    intro r hr
    rw [copiedRanges] at hr
    split at hr
    · obtain rfl | hr := List.mem_cons.mp hr
      · exact ⟨Nat.le_refl _, by dsimp only; omega⟩
      · exact hrest r hr
    · exact hrest r hr

/-- Values from the bytes that are copied into them, each into zeros; where the bytes end, zeros stay. -/
def valuesOf : (fields : List Field) → List (List UInt8) → Values fields
  | [], _ => ()
  | f :: fs, [] => (f.type.zero, valuesOf fs [])
  | f :: fs, src :: srcs => (f.type.ofRep (copyInto (f.type.bytes f.type.zero) src), valuesOf fs srcs)

/-- **The loop reads these ranges** and nothing else. -/
theorem readFields_copied (buffer : Region UInt8) (endPos pos : ℕ) (fields : List Field) :
    readFields buffer endPos pos fields =
      valuesOf fields ((copiedRanges buffer endPos pos fields).map fun r => buffer.read r.1 r.2) := by
  induction fields generalizing pos with
  | nil => rfl
  | cons f fs ih =>
    by_cases hrem : 0 < endPos - pos
    · have hvalue : (readField buffer endPos pos f.type).1 = f.type.ofRep (copyInto
          (f.type.bytes f.type.zero) (buffer.read pos (min (endPos - pos) f.type.size))) := by
        simp only [readField, if_pos hrem]
      rw [copiedRanges, if_pos hrem, List.map_cons, valuesOf, ← hvalue, ← ih]
      rfl
    · -- behind the payload the position stays where it is, and no range follows
      have hfield : readField buffer endPos pos f.type = (f.type.zero, pos) := by
        simp only [readField, if_neg hrem]
      have hnone : ∀ fs : List Field, copiedRanges buffer endPos pos fs = [] := by
        intro fs
        induction fs with
        | nil => rfl
        | cons g gs ihg =>
          have hnext : readField buffer endPos pos g.type = (g.type.zero, pos) := by
            simp only [readField, if_neg hrem]
          rw [copiedRanges, if_neg hrem, hnext]
          exact ihg
      have hrest := ih pos
      rw [hnone fs] at hrest
      rw [readFields, hfield, hnone (f :: fs), hrest]
      rfl

/-- The two payloads differ in zeros at their ends, or behind the bytes of the message. -/
def SameFront (size : ℕ) (p q : List UInt8) : Prop :=
  (∃ j k, p ++ List.replicate j 0 = q ++ List.replicate k 0) ∨ p.take size = q.take size

theorem SameFront.zeroExtend {size : ℕ} {p q : List UInt8} (h : SameFront size p q) :
    zeroExtend size p = zeroExtend size q := by
  obtain ⟨j, k, hjk⟩ | htake := h
  · rw [← zeroExtend_zeros size j p, hjk, zeroExtend_zeros]
  · rw [← zeroExtend_take size p, htake, zeroExtend_take]

theorem deserialize_congr (m : MessageT) {buffer buffer' : Region UInt8} {view view' : MessageView}
    (hid : view.msgid = m.messageId) (hid' : view'.msgid = m.messageId)
    (h : SameFront (fieldsSize m.fields) (payloadBytes buffer view) (payloadBytes buffer' view')) :
    deserialize m buffer' view' = deserialize m buffer view := by
  obtain ⟨message, hread, hbytes⟩ := deserialize_bytes m buffer view hid
  obtain ⟨message', hread', hbytes'⟩ := deserialize_bytes m buffer' view' hid'
  have hsame : fieldsBytes m.fields message' = fieldsBytes m.fields message := by
    rw [hbytes', hbytes, h.zeroExtend]
  rw [hread', hread, fieldsBytes_injective m.fields message' message hsame]

/-! ## Writing again -/

/-- `payload` is `bytes` without the zeros at its end, but for one byte that stays. -/
structure Trimmed (bytes payload : List UInt8) : Prop where
  zeros : ∃ k, bytes = payload ++ List.replicate k 0
  kept : bytes ≠ [] → payload ≠ []
  last : 1 < payload.length → payload.getLast? ≠ some 0

theorem payloadOf_trimmed (m : MessageT) (message : m.Message) :
    Trimmed (fieldsBytes m.fields message) (payloadOf m message) := by
  have hlen := fieldsBytes_length m.fields message
  have hpayload := payloadOf_length m message
  have hle := truncatedLength_le m message
  refine ⟨⟨_, payloadOf_zeros m message⟩, fun hne => ?_, fun hlong => ?_⟩
  · have hpos := trimmedLength_pos (fun i => (fieldsBytes m.fields message).getD i 0)
      (List.length_pos_of_ne_nil hne)
    rw [hlen] at hpos
    apply List.ne_nil_of_length_pos
    rw [hpayload]
    exact hpos
  · rw [hpayload] at hlong
    have hlast := trimmedLength_last (fun i => (fieldsBytes m.fields message).getD i 0)
      (fieldsSize m.fields) hlong
    rw [List.getLast?_eq_getElem?, hpayload, payloadOf, List.getElem?_take_of_lt (by omega)]
    intro hzero
    exact hlast (by rw [List.getD_eq_getElem?_getD]; exact congrArg (·.getD 0) hzero)

theorem serialize_payload (m : MessageT) (message : m.Message) (sysid compid seq : UInt8)
    {buffer : Region UInt8} (hsize : 280 ≤ buffer.size) :
    (serialize m message sysid compid seq buffer).1 = .ok (12 + truncatedLength m message) ∧
      (serialize m message sysid compid seq buffer).2.read 10 (truncatedLength m message) =
        payloadOf m message := by
  obtain ⟨hresult, hread⟩ := serialize_frame m message sysid compid seq buffer hsize
  rw [frameOf_length] at hresult hread
  have hslice := Region.read_slice (serialize m message sysid compid seq buffer).2 (i := 0) (j := 10)
    (k := truncatedLength m message) (n := 12 + truncatedLength m message) (by omega)
  rw [hread] at hslice
  refine ⟨hresult, ?_⟩
  show (serialize m message sysid compid seq buffer).2.read (0 + 10) _ = _
  rw [hslice]
  show ((payloadOf m message ++ _).take _) = _
  rw [← payloadOf_length, List.take_left']
  rfl

/-- **Reading a payload of any length**: every view of the message's type is read, from ranges of its
payload alone; the message is the payload continued with zeros, and is written back as that, trimmed. A
view of another type is refused. -/
theorem deserialize_total (m : MessageT) (buffer : Region UInt8) (view : MessageView) :
    (view.msgid ≠ m.messageId → deserialize m buffer view = .error .parseError) ∧
    (view.msgid = m.messageId → ∃ message, deserialize m buffer view = .ok message ∧
      (∀ r ∈ copiedRanges buffer (view.payload.start + view.payload.length) view.payload.start
        m.fields, view.payload.start ≤ r.1 ∧ r.1 + r.2 ≤ view.payload.start + view.payload.length) ∧
      message = valuesOf m.fields ((copiedRanges buffer (view.payload.start + view.payload.length)
        view.payload.start m.fields).map fun r => buffer.read r.1 r.2) ∧
      fieldsBytes m.fields message = (payloadBytes buffer view).take (fieldsSize m.fields) ++
        List.replicate (fieldsSize m.fields - view.payload.length) 0 ∧
      (∀ (buffer' : Region UInt8) (view' : MessageView), view'.msgid = m.messageId →
        SameFront (fieldsSize m.fields) (payloadBytes buffer view) (payloadBytes buffer' view') →
        deserialize m buffer' view' = .ok message) ∧
      ∀ (sysid compid seq : UInt8) (out : Region UInt8), 280 ≤ out.size →
        ∃ length, (serialize m message sysid compid seq out).1 = .ok (12 + length) ∧
          Trimmed (fieldsBytes m.fields message)
            ((serialize m message sysid compid seq out).2.read 10 length)) := by
  refine ⟨deserialize_other m buffer view, fun hid => ?_⟩
  obtain ⟨message, hread, hbytes⟩ := deserialize_bytes m buffer view hid
  refine ⟨message, hread, copiedRanges_inside buffer (Nat.le_add_right _ _) m.fields, ?_, ?_, ?_, ?_⟩
  · rw [deserialize, if_neg (not_not.mpr hid)] at hread
    rw [← Except.ok.inj hread]
    exact readFields_copied buffer _ _ m.fields
  · rw [hbytes, zeroExtend, payloadBytes, Region.read_length]
  · intro buffer' view' hid' hfront
    rw [deserialize_congr m hid hid' hfront, hread]
  · intro sysid compid seq out hsize
    obtain ⟨hresult, hpayload⟩ := serialize_payload m message sysid compid seq hsize
    refine ⟨truncatedLength m message, hresult, ?_⟩
    rw [hpayload]
    exact payloadOf_trimmed m message

end Avionicpp.Mavlink
