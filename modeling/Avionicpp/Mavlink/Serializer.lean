import Avionicpp.Foundations.Region
import Avionicpp.Mavlink.Checksum
import Avionicpp.Mavlink.Types
import Mathlib.Data.List.GetD

/-! # The MAVLink serializer (`mavlink/serializer.hpp`)

`serialize` writes a version 2 frame into a buffer. `frameOf` says what the frame is, as a list of
bytes, and `serialize_frame` that this is what a buffer of 280 bytes holds afterwards.
-/
namespace Avionicpp.Mavlink
open Foundations
set_option autoImplicit false

/-- The loop over the fields: their object representations one behind the other, from `currentPos`
on. The second component is `current_pos` behind the last field. -/
def writeFields (buffer : Region UInt8) (currentPos : ℕ) :
    (fields : List Field) → Values fields → Region UInt8 × ℕ
  | [], _ => (buffer, currentPos)
  | f :: fs, (value, values) =>
    writeFields (buffer.storeList currentPos (f.type.bytes value)) (currentPos + f.type.size) fs values

/-- The stores in front of the payload; LEN follows later. -/
def writeHeader (m : MessageT) (sysid compid seq : UInt8) (buffer : Region UInt8) : Region UInt8 :=
  let buffer := buffer.store 0 0xFD
  let buffer := buffer.store 2 0
  let buffer := buffer.store 3 0
  let buffer := buffer.store 4 seq
  let buffer := buffer.store 5 sysid
  let buffer := buffer.store 6 compid
  let msgid := m.messageId
  let buffer := buffer.store 7 (msgid &&& 0xFF).toUInt8
  let buffer := buffer.store 8 ((msgid >>> 8) &&& 0xFF).toUInt8
  buffer.store 9 ((msgid >>> 16) &&& 0xFF).toUInt8

/-- `serialize`: the number of bytes written or an error, and the buffer afterwards. -/
def serialize (m : MessageT) (message : m.Message) (sysid compid seq : UInt8)
    (buffer : Region UInt8) : Except MavlinkError ℕ × Region UInt8 :=
  if buffer.size < 280 then (.error .bufferOverrun, buffer)
  else
    let buffer := writeHeader m sysid compid seq buffer
    let (buffer, currentPos) := writeFields buffer 10 m.fields message
    let fullPayloadLen := currentPos - 10
    -- zero truncation
    let payloadLen := trimmedLength (fun i => buffer.cell (10 + i)) fullPayloadLen
    let buffer := buffer.store 1 (UInt8.ofNat payloadLen)
    let crc := crcAccumulateBuffer 0xFFFF (buffer.read 1 9)
    let crc := crcAccumulateBuffer crc (buffer.read 10 payloadLen)
    let crc := crcAccumulate (calculateCrcExtra m) crc
    let buffer := buffer.store (10 + payloadLen) (crc &&& 0xFF).toUInt8
    let buffer := buffer.store (10 + payloadLen + 1) ((crc >>> 8) &&& 0xFF).toUInt8
    (.ok (10 + payloadLen + 2), buffer)

/-! ## The frame -/

def fieldsSize (fields : List Field) : ℕ := (fields.map fun f => f.type.size).sum

def fieldsBytes : (fields : List Field) → Values fields → List UInt8
  | [], _ => []
  | f :: fs, (value, values) => f.type.bytes value ++ fieldsBytes fs values

def truncatedLength (m : MessageT) (message : m.Message) : ℕ :=
  trimmedLength (fun i => (fieldsBytes m.fields message).getD i 0) (fieldsSize m.fields)

def payloadOf (m : MessageT) (message : m.Message) : List UInt8 :=
  (fieldsBytes m.fields message).take (truncatedLength m message)

def headerOf (m : MessageT) (message : m.Message) (sysid compid seq : UInt8) : List UInt8 :=
  [UInt8.ofNat (truncatedLength m message), 0, 0, seq, sysid, compid,
    (m.messageId &&& 0xFF).toUInt8, ((m.messageId >>> 8) &&& 0xFF).toUInt8,
    ((m.messageId >>> 16) &&& 0xFF).toUInt8]

def crcOf (m : MessageT) (message : m.Message) (sysid compid seq : UInt8) : UInt16 :=
  crcAccumulate (calculateCrcExtra m)
    (crcAccumulateBuffer 0xFFFF (headerOf m message sysid compid seq ++ payloadOf m message))

def frameOf (m : MessageT) (message : m.Message) (sysid compid seq : UInt8) : List UInt8 :=
  let crc := crcOf m message sysid compid seq
  0xFD :: (headerOf m message sysid compid seq ++ payloadOf m message ++
    [(crc &&& 0xFF).toUInt8, ((crc >>> 8) &&& 0xFF).toUInt8])

theorem fieldsBytes_length (fields : List Field) (values : Values fields) :
    (fieldsBytes fields values).length = fieldsSize fields := by
  induction fields with
  | nil => rfl
  | cons f fs ih =>
    obtain ⟨value, values⟩ := values
    rw [fieldsBytes, List.length_append, FieldType.bytes_length, ih]
    rfl

theorem truncatedLength_le (m : MessageT) (message : m.Message) :
    truncatedLength m message ≤ fieldsSize m.fields := trimmedLength_le _ _

theorem payloadOf_length (m : MessageT) (message : m.Message) :
    (payloadOf m message).length = truncatedLength m message := by
  have hle := truncatedLength_le m message
  rw [payloadOf, List.length_take, fieldsBytes_length]
  omega

theorem frameOf_length (m : MessageT) (message : m.Message) (sysid compid seq : UInt8) :
    (frameOf m message sysid compid seq).length = 12 + truncatedLength m message := by
  simp only [frameOf, headerOf, List.length_cons, List.length_append, payloadOf_length,
    List.length_nil]
  omega

theorem payloadOf_zeros (m : MessageT) (message : m.Message) :
    fieldsBytes m.fields message =
      payloadOf m message ++
        List.replicate (fieldsSize m.fields - truncatedLength m message) 0 := by
  have hle := truncatedLength_le m message
  have hlen := fieldsBytes_length m.fields message
  have htail : (fieldsBytes m.fields message).drop (truncatedLength m message) =
      List.replicate (fieldsSize m.fields - truncatedLength m message) 0 := by
    apply List.eq_replicate_iff.mpr
    refine ⟨by rw [List.length_drop, hlen], ?_⟩
    intro b hb
    obtain ⟨i, hi, rfl⟩ := List.mem_iff_getElem.mp hb
    rw [List.length_drop, hlen] at hi
    have hzero := trimmedLength_zero (fun i => (fieldsBytes m.fields message).getD i 0)
      (n := fieldsSize m.fields) (i := truncatedLength m message + i)
      (Nat.le_add_right _ _) (by omega)
    rw [List.getElem_drop]
    rw [List.getD_eq_getElem _ _ (by omega)] at hzero
    exact hzero
  rw [payloadOf, ← htail, List.take_append_drop]

theorem low_byte (x : UInt32) : (x &&& 0xFF).toUInt8 = UInt8.ofNat x.toNat := by
  apply UInt8.toNat_inj.mp
  rw [UInt32.toNat_toUInt8, UInt32.toNat_and, UInt8.toNat_ofNat']
  show (x.toNat &&& (2 ^ 8 - 1)) % 2 ^ 8 = x.toNat % 2 ^ 8
  rw [Nat.and_two_pow_sub_one_eq_mod, Nat.mod_mod]

theorem messageId_bytes (x : UInt32) :
    [(x &&& 0xFF).toUInt8, ((x >>> 8) &&& 0xFF).toUInt8, ((x >>> 16) &&& 0xFF).toUInt8] =
      toBytes 3 x.toNat := by
  have h8 : (x >>> 8).toNat = x.toNat / 256 := by
    rw [UInt32.toNat_shiftRight]
    exact Nat.shiftRight_eq_div_pow _ _
  have h16 : (x >>> 16).toNat = x.toNat / 256 / 256 := by
    rw [UInt32.toNat_shiftRight, Nat.div_div_eq_div_mul]
    exact Nat.shiftRight_eq_div_pow _ _
  rw [low_byte, low_byte, low_byte, h8, h16]
  rfl

/-! ## What the code writes -/

theorem writeFields_eq (buffer : Region UInt8) (pos : ℕ) (fields : List Field)
    (values : Values fields) :
    writeFields buffer pos fields values =
      (buffer.storeList pos (fieldsBytes fields values), pos + fieldsSize fields) := by
  induction fields generalizing buffer pos with
  | nil => rfl
  | cons f fs ih =>
    obtain ⟨value, values⟩ := values
    rw [writeFields, ih, fieldsBytes, Region.storeList_append, FieldType.bytes_length, Nat.add_assoc]
    rfl

theorem serialize_small (m : MessageT) (message : m.Message) (sysid compid seq : UInt8)
    (buffer : Region UInt8) (h : buffer.size < 280) :
    serialize m message sysid compid seq buffer = (.error .bufferOverrun, buffer) := if_pos h

section
variable (m : MessageT) (message : m.Message) (sysid compid seq : UInt8) (buffer : Region UInt8)

def written : Region UInt8 :=
  (writeHeader m sysid compid seq buffer).storeList 10 (fieldsBytes m.fields message)

def writtenLen : Region UInt8 :=
  (written m message sysid compid seq buffer).store 1 (UInt8.ofNat (truncatedLength m message))

theorem written_payload {i : ℕ} (hi : i < fieldsSize m.fields) :
    (written m message sysid compid seq buffer).cell (10 + i) =
      (fieldsBytes m.fields message).getD i 0 := by
  have hlen := fieldsBytes_length m.fields message
  rw [written, Region.storeList_cell, if_pos (by omega), Nat.add_sub_cancel_left,
    List.getElem?_eq_getElem (by omega), Option.getD_some, List.getD_eq_getElem _ _ (by omega)]

theorem written_truncation :
    trimmedLength (fun i => (written m message sysid compid seq buffer).cell (10 + i))
      (fieldsSize m.fields) = truncatedLength m message :=
  trimmedLength_congr fun _ hi => written_payload m message sysid compid seq buffer hi

theorem writtenLen_header :
    (writtenLen m message sysid compid seq buffer).read 0 10 =
      0xFD :: headerOf m message sysid compid seq := by
  have hrange : List.range 10 = [0, 1, 2, 3, 4, 5, 6, 7, 8, 9] := rfl
  simp [Region.read, hrange, writtenLen, written, Region.store, Region.storeList_cell, writeHeader,
    headerOf]

theorem writtenLen_payload :
    (writtenLen m message sysid compid seq buffer).read 10 (truncatedLength m message) =
      payloadOf m message := by
  have hle := truncatedLength_le m message
  have hlen := fieldsBytes_length m.fields message
  rw [writtenLen, Region.read_store_of_not_mem _ _ (Or.inl (by omega)), Region.read_take _ hle,
    written, payloadOf, ← hlen, Region.read_storeList_self]

theorem writtenLen_crc :
    crcAccumulate (calculateCrcExtra m)
      (crcAccumulateBuffer
        (crcAccumulateBuffer 0xFFFF ((writtenLen m message sysid compid seq buffer).read 1 9))
        ((writtenLen m message sysid compid seq buffer).read 10 (truncatedLength m message))) =
      crcOf m message sysid compid seq := by
  have hheader : (writtenLen m message sysid compid seq buffer).read 1 9 =
      headerOf m message sysid compid seq := by
    have h := Region.read_drop (writtenLen m message sysid compid seq buffer) (i := 0) (n := 10)
      (k := 1) (by omega)
    rw [writtenLen_header] at h
    exact h
  rw [hheader, writtenLen_payload, crcOf, crcAccumulateBuffer, crcAccumulateBuffer,
    crcAccumulateBuffer, List.foldl_append]

theorem serialize_eq (hsize : 280 ≤ buffer.size) :
    serialize m message sysid compid seq buffer =
      (.ok (10 + truncatedLength m message + 2),
        ((writtenLen m message sysid compid seq buffer).store (10 + truncatedLength m message)
          (crcOf m message sysid compid seq &&& 0xFF).toUInt8).store
          (10 + truncatedLength m message + 1)
          ((crcOf m message sysid compid seq >>> 8) &&& 0xFF).toUInt8) := by
  have htrunc := written_truncation m message sysid compid seq buffer
  have hcrc := writtenLen_crc m message sysid compid seq buffer
  unfold serialize
  rw [if_neg (Nat.not_lt.mpr hsize)]
  dsimp only
  rw [writeFields_eq]
  dsimp only
  rw [Nat.add_sub_cancel_left]
  unfold written at htrunc
  unfold writtenLen written at hcrc ⊢
  rw [htrunc, hcrc]

/-- **What a buffer of 280 bytes holds after `serialize`.** -/
theorem serialize_frame (hsize : 280 ≤ buffer.size) :
    (serialize m message sysid compid seq buffer).1 =
        .ok (frameOf m message sysid compid seq).length ∧
      (serialize m message sysid compid seq buffer).2.read 0
        (frameOf m message sysid compid seq).length = frameOf m message sysid compid seq := by
  have hlen : (frameOf m message sysid compid seq).length = 10 + truncatedLength m message + 2 := by
    rw [frameOf_length]
    omega
  have hfront : (writtenLen m message sysid compid seq buffer).read 0
      (10 + truncatedLength m message) =
      0xFD :: headerOf m message sysid compid seq ++ payloadOf m message := by
    rw [Region.read_add, writtenLen_header, Nat.zero_add, writtenLen_payload]
  rw [serialize_eq m message sysid compid seq buffer hsize, hlen]
  refine ⟨rfl, ?_⟩
  have hlo := Region.read_store_end (writtenLen m message sysid compid seq buffer) 0
    (10 + truncatedLength m message) (crcOf m message sysid compid seq &&& 0xFF).toUInt8
  have hhi := Region.read_store_end
    ((writtenLen m message sysid compid seq buffer).store (10 + truncatedLength m message)
      (crcOf m message sysid compid seq &&& 0xFF).toUInt8) 0
    (10 + truncatedLength m message + 1) ((crcOf m message sysid compid seq >>> 8) &&& 0xFF).toUInt8
  rw [Nat.zero_add] at hlo hhi
  rw [hlo, hfront] at hhi
  rw [hhi, frameOf]
  simp

end

end Avionicpp.Mavlink
