import Avionicpp.Foundations.CharConv
import Avionicpp.Foundations.LittleEndian

/-! # Field types and the checksum (`mavlink/checksum.hpp`)

A value is the bits of its C++ object: of an integer, of a float, of a character or of an array of
them. Its object representation on a little-endian host is what the serializer copies and what the
deserializer overwrites.
-/
namespace Avionicpp.Mavlink
open Foundations
set_option autoImplicit false

/-! ## Field types -/

inductive Prim where
  | uint8
  | int8
  | uint16
  | int16
  | uint32
  | int32
  | uint64
  | int64
  | float
  | double
  | char
  deriving DecidableEq, Repr

def Prim.size : Prim → ℕ
  | .uint8 | .int8 | .char => 1
  | .uint16 | .int16 => 2
  | .uint32 | .int32 | .float => 4
  | .uint64 | .int64 | .double => 8

/-- A primitive type or a `std::array` of one. -/
inductive FieldType where
  | scalar (t : Prim)
  | array (t : Prim) (n : ℕ)
  deriving DecidableEq, Repr

namespace FieldType

def size : FieldType → ℕ
  | scalar t => t.size
  | array t n => n * t.size

/-- The bits of a value. -/
def Value : FieldType → Type
  | scalar t => BitVec (8 * t.size)
  | array t n => Vector (BitVec (8 * t.size)) n

def zero : (t : FieldType) → t.Value
  | scalar _ => 0#_
  | array _ n => Vector.replicate n 0#_

def bytes : (t : FieldType) → t.Value → List UInt8
  | scalar t, (x : BitVec _) => toBytes t.size x.toNat
  | array t _, (xs : Vector _ _) => xs.toList.flatMap fun x => toBytes t.size x.toNat

def ofRep : (t : FieldType) → List UInt8 → t.Value
  | scalar t, rep => BitVec.ofNat (8 * t.size) (ofBytes rep)
  | array t n, rep =>
    Vector.ofFn fun i : Fin n => BitVec.ofNat _ (ofBytes ((rep.drop (i * t.size)).take t.size))

end FieldType

structure Field where
  type : FieldType
  name : String

/-- What a payload struct declares: its constants, and its fields in declaration order. -/
structure MessageT where
  messageId : UInt32
  messageName : String
  fields : List Field

def Values : List Field → Type
  | [] => Unit
  | f :: fs => f.type.Value × Values fs

abbrev MessageT.Message (m : MessageT) : Type := Values m.fields

/-! ## The checksum -/

def crcAccumulate (data : UInt8) (crcAccum : UInt16) : UInt16 :=
  let tmp := data ^^^ (crcAccum &&& 0xff).toUInt8
  let tmp := tmp ^^^ (tmp <<< 4)
  (crcAccum >>> 8) ^^^ (tmp.toUInt16 <<< 8) ^^^ (tmp.toUInt16 <<< 3) ^^^ (tmp.toUInt16 >>> 4)

def crcAccumulateBuffer (crcAccum : UInt16) (buffer : List UInt8) : UInt16 :=
  buffer.foldl (fun crc data => crcAccumulate data crc) crcAccum

def crcAccumulateString (crcAccum : UInt16) (str : String) : UInt16 :=
  crcAccumulateBuffer crcAccum (asciiText str)

/-- `type_string`: arrays are not known to it. -/
def typeString : FieldType → String
  | .scalar .uint8 => "uint8_t"
  | .scalar .int8 => "int8_t"
  | .scalar .uint16 => "uint16_t"
  | .scalar .int16 => "int16_t"
  | .scalar .uint32 => "uint32_t"
  | .scalar .int32 => "int32_t"
  | .scalar .uint64 => "uint64_t"
  | .scalar .int64 => "int64_t"
  | .scalar .float => "float"
  | .scalar .double => "double"
  | .scalar .char => "char"
  | .array _ _ => "unknown"

def calculateCrcExtra (m : MessageT) : UInt8 :=
  let crc := crcAccumulate (ascii ' ') (crcAccumulateString 0xFFFF m.messageName)
  let crc : UInt16 := m.fields.foldl (fun crc field =>
    let crc := crcAccumulate (ascii ' ') (crcAccumulateString crc (typeString field.type))
    crcAccumulate (ascii ' ') (crcAccumulateString crc field.name)) crc
  (crc &&& 0xFF).toUInt8 ^^^ (crc >>> 8).toUInt8

/-! ## Object representations -/

namespace FieldType

theorem flatMap_length {α : Type} (g : α → List UInt8) (k : ℕ) (hg : ∀ x, (g x).length = k)
    (xs : List α) : (xs.flatMap g).length = xs.length * k := by
  induction xs with
  | nil => simp
  | cons x xs ih =>
    rw [List.flatMap_cons, List.length_append, hg, ih, List.length_cons]
    ring

theorem flatMap_slice {α : Type} (g : α → List UInt8) (k : ℕ) (hg : ∀ x, (g x).length = k)
    (xs : List α) (i : ℕ) (hi : i < xs.length) :
    ((xs.flatMap g).drop (i * k)).take k = g xs[i] := by
  induction xs generalizing i with
  | nil => exact absurd hi (Nat.not_lt_zero i)
  | cons x xs ih =>
    rw [List.flatMap_cons]
    cases i with
    | zero =>
      rw [Nat.zero_mul, List.drop_zero, List.take_append_of_le_length (Nat.le_of_eq (hg x).symm),
        List.take_of_length_le (Nat.le_of_eq (hg x))]
      rfl
    | succ i =>
      have hmul : (i + 1) * k = (g x).length + i * k := by
        rw [hg]
        ring
      rw [hmul, List.drop_append, List.drop_of_length_le (by omega), List.nil_append,
        Nat.add_sub_cancel_left]
      exact ih i (Nat.lt_of_succ_lt_succ hi)

theorem bytes_length (t : FieldType) (x : t.Value) : (t.bytes x).length = t.size := by
  cases t with
  | scalar t => exact toBytes_length _ _
  | array t n =>
    change Vector (BitVec (8 * t.size)) n at x
    have h := flatMap_length (fun y : BitVec (8 * t.size) => toBytes t.size y.toNat) t.size
      (fun y => toBytes_length _ _) (Vector.toList x)
    rw [Vector.length_toList] at h
    exact h

theorem ofNat_ofBytes_toBytes (k : ℕ) (x : BitVec (8 * k)) :
    BitVec.ofNat (8 * k) (ofBytes (toBytes k x.toNat)) = x := by
  have hpow : 256 ^ k = 2 ^ (8 * k) := by
    rw [Nat.pow_mul]
  apply BitVec.eq_of_toNat_eq
  rw [BitVec.toNat_ofNat, ofBytes_toBytes, hpow, Nat.mod_mod, Nat.mod_eq_of_lt x.isLt]

/-- A value is recovered from its object representation, bit for bit. -/
theorem ofRep_bytes (t : FieldType) (x : t.Value) : t.ofRep (t.bytes x) = x := by
  cases t with
  | scalar t => exact ofNat_ofBytes_toBytes t.size x
  | array t n =>
    change Vector (BitVec (8 * t.size)) n at x
    apply Vector.ext
    intro i hi
    have hslice := flatMap_slice (fun y : BitVec (8 * t.size) => toBytes t.size y.toNat) t.size
      (fun y => toBytes_length _ _) (Vector.toList x) i (by rw [Vector.length_toList]; exact hi)
    simp only [ofRep, bytes, Vector.getElem_ofFn]
    rw [hslice, ofNat_ofBytes_toBytes, Vector.getElem_toList]

theorem toBytes_ofNat {k : ℕ} {rep : List UInt8} (h : rep.length = k) :
    toBytes k (BitVec.ofNat (8 * k) (ofBytes rep)).toNat = rep := by
  have hlt := ofBytes_lt rep
  have hpow : 256 ^ rep.length = 2 ^ (8 * rep.length) := by
    rw [Nat.pow_mul]
  rw [← h, BitVec.toNat_ofNat, Nat.mod_eq_of_lt (by omega), toBytes_ofBytes]

theorem flatMap_slices (k n : ℕ) (rep : List UInt8) (h : rep.length = n * k) :
    (List.ofFn fun i : Fin n => (rep.drop (i * k)).take k).flatten = rep := by
  induction n generalizing rep with
  | zero =>
    rw [Nat.zero_mul] at h
    rw [List.eq_nil_of_length_eq_zero h]
    rfl
  | succ n ih =>
    have hsize : (n + 1) * k = k + n * k := by ring
    have htail := ih (rep.drop k) (by rw [List.length_drop]; omega)
    have hslices : (List.ofFn fun i : Fin n => (rep.drop (i.succ * k)).take k) =
        List.ofFn fun i : Fin n => ((rep.drop k).drop (i * k)).take k := by
      congr 1
      funext i
      have hmul : k + (i : ℕ) * k = (i.succ : ℕ) * k := by
        rw [Fin.val_succ]
        ring
      rw [List.drop_drop, hmul]
    rw [List.ofFn_succ, List.flatten_cons, hslices, htail, Fin.val_zero, Nat.zero_mul, List.drop_zero,
      List.take_append_drop]

/-- A string of the right length is the object representation of its value. -/
theorem bytes_ofRep (t : FieldType) {rep : List UInt8} (h : rep.length = t.size) :
    t.bytes (t.ofRep rep) = rep := by
  cases t with
  | scalar t => exact toBytes_ofNat h
  | array t n =>
    have hslice : ∀ i : Fin n, ((rep.drop (i * t.size)).take t.size).length = t.size := by
      intro i
      have hle : (i + 1) * t.size ≤ n * t.size := Nat.mul_le_mul_right _ i.isLt
      have hmul : ((i : ℕ) + 1) * t.size = i * t.size + t.size := by ring
      have hlen : rep.length = n * t.size := h
      rw [List.length_take, List.length_drop]
      omega
    have hflat := flatMap_slices t.size n rep h
    simp only [bytes, ofRep, Vector.toList_ofFn, List.flatMap_def, List.map_ofFn]
    refine Eq.trans ?_ hflat
    congr 2
    funext i
    exact toBytes_ofNat (hslice i)

theorem bytes_zero (t : FieldType) : t.bytes t.zero = List.replicate t.size 0 := by
  cases t with
  | scalar t => simp [bytes, zero, toBytes_zero, size]
  | array t n => simp [bytes, zero, toBytes_zero, size, List.flatMap_replicate]

end FieldType
end Avionicpp.Mavlink
