import Avionicpp.Foundations.BitSerial
import Avionicpp.Mavlink.SerializerFrame

/-! # What the checksum detects

The checksum is the bit-serial one of X.25. A frame followed by its own checksum, low byte first, leaves
zero and no other two bytes do; and errors within sixteen consecutive bits change the checksum, also
when more bytes follow.
-/
namespace Avionicpp.Mavlink
open Foundations
set_option autoImplicit false

/-- `crc_accumulate_string`: a `char` is signed. -/
def crcAccumulateStringView (crcAccum : UInt16) (str : List Int8) : UInt16 :=
  str.foldl (fun crc c => crcAccumulate c.toUInt8 crc) crcAccum

theorem crcAccumulateStringView_eq (crc : UInt16) (str : List Int8) :
    crcAccumulateStringView crc str = crcAccumulateBuffer crc (str.map Int8.toUInt8) := by
  rw [crcAccumulateStringView, crcAccumulateBuffer, List.foldl_map]

/-! ## The definition -/

theorem x25_top : x25.getLsbD (16 - 1) = true := by decide

theorem crcAccumulateBuffer_serial (crc : UInt16) (bytes : List UInt8) :
    (crcAccumulateBuffer crc bytes).toBitVec =
      Crc.serial x25 crc.toBitVec (Crc.transmitted bytes) := by
  rw [crcAccumulateBuffer_x25, Crc.remainder_serial x25 (by omega)]

theorem crcAccumulateBuffer_append (crc : UInt16) (u v : List UInt8) :
    crcAccumulateBuffer crc (u ++ v) = crcAccumulateBuffer (crcAccumulateBuffer crc u) v :=
  List.foldl_append

/-- The two bytes that the serializer appends have the bits of the checksum. -/
theorem crc_transmitted (crc : UInt16) :
    Crc.low 16 (Crc.transmitted [(crc &&& 0xFF).toUInt8, ((crc >>> 8) &&& 0xFF).toUInt8]) =
      crc.toBitVec := by
  rw [toUInt8_mask, toUInt8_mask]
  have hsplit : Crc.transmitted [crc.toUInt8, (crc >>> 8).toUInt8] =
      Crc.byteBits crc.toUInt8 ++ Crc.byteBits (crc >>> 8).toUInt8 := by
    simp [Crc.transmitted]
  have hbyte : ∀ (data : UInt8) (i : ℕ), i < 8 →
      (Crc.byteBits data).getD i false = data.toBitVec.getLsbD i := by
    intro data i hi
    simp [Crc.byteBits, hi]
  apply BitVec.eq_of_getLsbD_eq
  intro i hi
  have hlen := Crc.byteBits_length crc.toUInt8
  rw [Crc.getLsbD_low, hsplit, decide_eq_true hi, Bool.true_and]
  by_cases hlow : i < 8
  · rw [List.getD_append _ _ _ _ (by omega), hbyte _ i hlow]
    show (crc.toBitVec.setWidth 8).getLsbD i = _
    rw [BitVec.getLsbD_setWidth, decide_eq_true hlow, Bool.true_and]
  · have hback : 8 + (i - 8) = i := by omega
    rw [List.getD_append_right _ _ _ _ (by omega), hlen, hbyte _ (i - 8) (by omega)]
    show ((crc.toBitVec >>> 8).setWidth 8).getLsbD (i - 8) = _
    rw [BitVec.getLsbD_setWidth, decide_eq_true (by omega : i - 8 < 8), Bool.true_and,
      BitVec.getLsbD_ushiftRight, hback]

theorem crc_residue (crc : UInt16) (d : List UInt8) (t1 t2 : UInt8) :
    crcAccumulateBuffer crc (d ++ [t1, t2]) = 0 ↔
      t1 = (crcAccumulateBuffer crc d &&& 0xFF).toUInt8 ∧
        t2 = ((crcAccumulateBuffer crc d >>> 8) &&& 0xFF).toUInt8 := by
  have hlen : (Crc.transmitted [t1, t2]).length = 16 := Crc.transmitted_length [t1, t2]
  have hown := crc_transmitted (crcAccumulateBuffer crc d)
  rw [crcAccumulateBuffer_append, ← UInt16.toBitVec_inj, crcAccumulateBuffer_serial]
  show Crc.serial x25 _ _ = 0#16 ↔ _
  rw [Crc.serial_eq_zero_iff x25 (by omega) x25_top _ (Nat.le_of_eq hlen), ← hown]
  constructor
  · intro h
    have hbits := Crc.low_injective (by rw [Crc.transmitted_length]; rfl)
      (by rw [Crc.transmitted_length, Crc.transmitted_length]; rfl) h
    have hbytes := Crc.transmitted_injective hbits
    rw [List.cons.injEq, List.cons.injEq] at hbytes
    exact ⟨hbytes.1.symm, hbytes.2.1.symm⟩
  · rintro ⟨hlow, hhigh⟩
    rw [← hlow, ← hhigh]

/-- **The checksum is the bit-serial one, from every starting value, and its own bytes alone take it to
zero.** -/
theorem crc_bitSerial (crc : UInt16) :
    (∀ bytes : List UInt8, (crcAccumulateBuffer crc bytes).toBitVec =
      Crc.serial x25 crc.toBitVec (Crc.transmitted bytes)) ∧
    (∀ str : List Int8, (crcAccumulateStringView crc str).toBitVec =
      Crc.serial x25 crc.toBitVec (Crc.transmitted (str.map Int8.toUInt8))) ∧
    ∀ (d : List UInt8) (t1 t2 : UInt8), crcAccumulateBuffer crc (d ++ [t1, t2]) = 0 ↔
      t1 = (crcAccumulateBuffer crc d &&& 0xFF).toUInt8 ∧
        t2 = ((crcAccumulateBuffer crc d >>> 8) &&& 0xFF).toUInt8 := by
  refine ⟨crcAccumulateBuffer_serial crc, fun str => ?_, crc_residue crc⟩
  rw [crcAccumulateStringView_eq, crcAccumulateBuffer_serial]

/-! ## Bursts -/

theorem crcAccumulateBuffer_injective {crc crc' : UInt16} (bytes : List UInt8)
    (h : crcAccumulateBuffer crc bytes = crcAccumulateBuffer crc' bytes) : crc = crc' := by
  rw [← UInt16.toBitVec_inj, crcAccumulateBuffer_serial, crcAccumulateBuffer_serial] at h
  exact UInt16.toBitVec_inj.mp (Crc.serial_injective x25 (by omega) x25_top _ h)

/-- **Every burst of at most sixteen bits is detected**, also behind a common suffix. -/
theorem crc_burst (crc : UInt16) (u v : List UInt8) (hlen : u.length = v.length) (hne : u ≠ v)
    (start : ℕ) (hburst : ∀ k, (Crc.transmitted u)[k]? ≠ (Crc.transmitted v)[k]? →
      start ≤ k ∧ k < start + 16) :
    crcAccumulateBuffer crc u ≠ crcAccumulateBuffer crc v ∧
      ∀ suffix, crcAccumulateBuffer (crcAccumulateBuffer crc u) suffix ≠
        crcAccumulateBuffer (crcAccumulateBuffer crc v) suffix := by
  have hdiffer : crcAccumulateBuffer crc u ≠ crcAccumulateBuffer crc v := by
    intro h
    rw [← UInt16.toBitVec_inj, crcAccumulateBuffer_serial, crcAccumulateBuffer_serial] at h
    refine Crc.serial_burst x25 (by omega) x25_top crc.toBitVec ?_ ?_ hburst h
    · rw [Crc.transmitted_length, Crc.transmitted_length, hlen]
    · exact fun hbits => hne (Crc.transmitted_injective hbits)
  exact ⟨hdiffer, fun suffix h => hdiffer (crcAccumulateBuffer_injective suffix h)⟩

/-- The last bit of the first byte and the first of the third are wrong. -/
theorem sampleBurst :
    crcAccumulateBuffer 0xFFFF [0x12, 0x34, 0x56, 0x78] ≠
        crcAccumulateBuffer 0xFFFF [0x92, 0x34, 0x57, 0x78] ∧
      ∀ suffix, crcAccumulateBuffer (crcAccumulateBuffer 0xFFFF [0x12, 0x34, 0x56, 0x78]) suffix ≠
        crcAccumulateBuffer (crcAccumulateBuffer 0xFFFF [0x92, 0x34, 0x57, 0x78]) suffix := by
  apply crc_burst 0xFFFF [0x12, 0x34, 0x56, 0x78] [0x92, 0x34, 0x57, 0x78] rfl (by decide) 7
  intro k hk
  by_cases hin : k < 32
  · have hall : ∀ j < 32, (Crc.transmitted [0x12, 0x34, 0x56, 0x78])[j]? ≠
        (Crc.transmitted [0x92, 0x34, 0x57, 0x78])[j]? → 7 ≤ j ∧ j < 7 + 16 := by decide
    exact hall k hin hk
  · rw [List.getElem?_eq_none (by rw [Crc.transmitted_length]; simp; omega),
      List.getElem?_eq_none (by rw [Crc.transmitted_length]; simp; omega)] at hk
    exact absurd rfl hk

end Avionicpp.Mavlink
