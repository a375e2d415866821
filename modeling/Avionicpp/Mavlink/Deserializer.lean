import Avionicpp.Mavlink.Serializer

/-! # The MAVLink deserializer (`mavlink/deserializer.hpp`)

Every field starts as zero and is overwritten with as many of its bytes as the payload still has. So
the bytes of the message are the payload continued with zeros (`deserialize_bytes`), and a payload that
was cut behind its last byte that is not zero gives the message it was written from
(`deserialize_payload`), wherever in a field the cut fell.
-/
namespace Avionicpp.Mavlink
open Foundations
set_option autoImplicit false

def copyInto (dest src : List UInt8) : List UInt8 := src ++ dest.drop src.length

/-- One turn of the loop over the fields: the value read, and `current_pos` afterwards. The payload
that is left lies between `currentPos` and `endPos`. -/
def readField (buffer : Region UInt8) (endPos currentPos : ℕ) (type : FieldType) : type.Value × ℕ :=
  let remaining := endPos - currentPos
  if 0 < remaining then
    let bytesToCopy := min remaining type.size
    let valBytes := copyInto (type.bytes type.zero) (buffer.read currentPos bytesToCopy)
    (type.ofRep valBytes, currentPos + bytesToCopy)
  else (type.zero, currentPos)

def readFields (buffer : Region UInt8) (endPos : ℕ) : ℕ → (fields : List Field) → Values fields
  | _, [] => ()
  | currentPos, f :: fs =>
    let r := readField buffer endPos currentPos f.type
    (r.1, readFields buffer endPos r.2 fs)

/-- `deserialize`, of a view into the given buffer. -/
def deserialize (m : MessageT) (buffer : Region UInt8) (view : MessageView) :
    Except MavlinkError m.Message :=
  if view.msgid ≠ m.messageId then .error .parseError
  else .ok (readFields buffer (view.payload.start + view.payload.length) view.payload.start m.fields)

theorem deserialize_other (m : MessageT) (buffer : Region UInt8) (view : MessageView)
    (h : view.msgid ≠ m.messageId) : deserialize m buffer view = .error .parseError := if_pos h

theorem fieldsBytes_injective (fields : List Field) (v w : Values fields)
    (h : fieldsBytes fields v = fieldsBytes fields w) : v = w := by
  induction fields with
  | nil => rfl
  | cons f fs ih =>
    obtain ⟨x, xs⟩ := v
    obtain ⟨y, ys⟩ := w
    obtain ⟨hfirst, hrest⟩ := List.append_inj h
      (by rw [FieldType.bytes_length, FieldType.bytes_length])
    have hxy : x = y := by
      rw [← FieldType.ofRep_bytes f.type x, hfirst, FieldType.ofRep_bytes]
    rw [hxy, ih xs ys hrest]

theorem copyInto_zero (t : FieldType) {src : List UInt8} (h : src.length ≤ t.size) :
    copyInto (t.bytes t.zero) src = zeroExtend t.size src := by
  rw [copyInto, FieldType.bytes_zero, List.drop_replicate, zeroExtend_of_ge h]

/-- **One field**: its bytes are the next bytes of the payload, continued with zeros. -/
theorem readField_bytes (buffer : Region UInt8) (endPos pos : ℕ) (t : FieldType) :
    t.bytes (readField buffer endPos pos t).1 =
        zeroExtend t.size (buffer.read pos (endPos - pos)) ∧
      (readField buffer endPos pos t).2 = pos + min (endPos - pos) t.size := by
  have hread := buffer.read_length pos (endPos - pos)
  by_cases hrem : 0 < endPos - pos
  · have hfield : readField buffer endPos pos t =
        (t.ofRep (copyInto (t.bytes t.zero) (buffer.read pos (min (endPos - pos) t.size))),
          pos + min (endPos - pos) t.size) := by
      simp only [readField, if_pos hrem]
    have htake := Region.read_take buffer (i := pos) (Nat.min_le_left (endPos - pos) t.size)
    have hsrc : copyInto (t.bytes t.zero) (buffer.read pos (min (endPos - pos) t.size)) =
        zeroExtend t.size (buffer.read pos (endPos - pos)) := by
      rw [copyInto_zero t (by rw [Region.read_length]; exact Nat.min_le_right _ _), htake]
      by_cases hwhole : t.size ≤ endPos - pos
      · rw [Nat.min_eq_right hwhole, zeroExtend_take]
      · rw [Nat.min_eq_left (by omega), List.take_of_length_le (by omega)]
    rw [hfield, hsrc]
    exact ⟨t.bytes_ofRep (zeroExtend_length _ _), rfl⟩
  · have hfield : readField buffer endPos pos t = (t.zero, pos) := by
      simp only [readField, if_neg hrem]
    have hnone : endPos - pos = 0 := by omega
    rw [hfield, hnone, Region.read_zero, Nat.zero_min, FieldType.bytes_zero]
    exact ⟨by rw [zeroExtend_of_ge (Nat.zero_le _)]; rfl, rfl⟩

/-- The loop never passes the end of the payload, so what is left is not negative. -/
theorem readField_le (buffer : Region UInt8) {endPos pos : ℕ} (hpos : pos ≤ endPos) (t : FieldType) :
    (readField buffer endPos pos t).2 ≤ endPos := by
  rw [(readField_bytes buffer endPos pos t).2]
  omega

theorem readFields_bytes (buffer : Region UInt8) {endPos pos : ℕ} (hpos : pos ≤ endPos)
    (fields : List Field) :
    fieldsBytes fields (readFields buffer endPos pos fields) =
      zeroExtend (fieldsSize fields) (buffer.read pos (endPos - pos)) := by
  induction fields generalizing pos with
  | nil =>
    have hnone := zeroExtend_length 0 (buffer.read pos (endPos - pos))
    exact (List.eq_nil_of_length_eq_zero hnone).symm
  | cons f fs ih =>
    obtain ⟨hbytes, hnext⟩ := readField_bytes buffer endPos pos f.type
    have hle := readField_le buffer hpos f.type
    have hdrop : buffer.read (readField buffer endPos pos f.type).2
        (endPos - (readField buffer endPos pos f.type).2) =
        (buffer.read pos (endPos - pos)).drop f.type.size := by
      rw [hnext, Nat.sub_add_eq]
      by_cases hwhole : f.type.size ≤ endPos - pos
      · rw [Nat.min_eq_right hwhole, Region.read_drop buffer hwhole]
      · rw [Nat.min_eq_left (by omega), Nat.sub_self, Region.read_zero,
          List.drop_of_length_le (by rw [Region.read_length]; omega)]
    have hsize : fieldsSize (f :: fs) = f.type.size + fieldsSize fs := rfl
    rw [hsize, zeroExtend_add, ← hdrop, ← ih hle, ← hbytes]
    rfl

/-- The payload of a view into a buffer. -/
def payloadBytes (buffer : Region UInt8) (view : MessageView) : List UInt8 :=
  buffer.read view.payload.start view.payload.length

theorem deserialize_bytes (m : MessageT) (buffer : Region UInt8) (view : MessageView)
    (hid : view.msgid = m.messageId) :
    ∃ message, deserialize m buffer view = .ok message ∧
      fieldsBytes m.fields message =
        zeroExtend (fieldsSize m.fields) (payloadBytes buffer view) := by
  refine ⟨_, if_neg (not_not.mpr hid), ?_⟩
  rw [readFields_bytes buffer (Nat.le_add_right _ _), Nat.add_sub_cancel_left]
  rfl

/-- **What was serialized is read back**, from any place that holds the payload. -/
theorem deserialize_payload (m : MessageT) (message : m.Message) (buffer : Region UInt8)
    (view : MessageView) (hid : view.msgid = m.messageId)
    (hpayload : buffer.read view.payload.start view.payload.length = payloadOf m message) :
    deserialize m buffer view = .ok message := by
  obtain ⟨message', hread, hbytes⟩ := deserialize_bytes m buffer view hid
  have hlen := payloadOf_length m message
  have hle := truncatedLength_le m message
  rw [payloadBytes, hpayload, zeroExtend_of_ge (by omega), hlen, ← payloadOf_zeros] at hbytes
  rw [hread, fieldsBytes_injective m.fields message' message hbytes]

end Avionicpp.Mavlink
