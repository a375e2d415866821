import Avionicpp.Foundations.Crc
import Mathlib.Data.List.GetD

/-! # The remainder a bit at a time

The definition of a reflected cyclic redundancy check: every bit of data meets the bit shifted out.
The bytewise remainder is this one over the bits in the order of transmission (`remainder_serial`). Of
at most as many bits as the remainder has, it only shifts them in (`serial_low`); so it vanishes on its
own value alone, and no two strings whose differences lie within that many consecutive bits have the
same remainder (`serial_burst`).
-/
namespace Avionicpp.Foundations.Crc
set_option autoImplicit false

variable {w : ℕ} (poly : BitVec w)

/-- One bit of data. -/
def shiftIn (c : BitVec w) (bit : Bool) : BitVec w :=
  if (c.getLsbD 0 ^^ bit) = true then (c >>> 1) ^^^ poly else c >>> 1

def serial (c : BitVec w) (bits : List Bool) : BitVec w := bits.foldl (shiftIn poly) c

/-- The bits of a byte, the least significant first. -/
def byteBits (data : UInt8) : List Bool := (List.range 8).map data.toBitVec.getLsbD

/-- The bits of a string in the order of transmission. -/
def transmitted (bytes : List UInt8) : List Bool := bytes.flatMap byteBits

/-- The word whose lowest bits are given. -/
def low (w : ℕ) (bits : List Bool) : BitVec w := (BitVec.ofBoolListLE bits).setWidth w

theorem getLsbD_low (bits : List Bool) (i : ℕ) :
    (low w bits).getLsbD i = (decide (i < w) && bits.getD i false) := by
  rw [low, BitVec.getLsbD_setWidth, BitVec.getLsbD_ofBoolListLE]

theorem low_injective {u v : List Bool} (hu : u.length ≤ w) (hlen : u.length = v.length)
    (h : low w u = low w v) : u = v := by
  apply List.ext_getElem hlen
  intro i hi hi'
  have hbit : (low w u).getLsbD i = (low w v).getLsbD i := by rw [h]
  have hw : i < w := by omega
  rwa [getLsbD_low, getLsbD_low, decide_eq_true hw, Bool.true_and, Bool.true_and,
    List.getD_eq_getElem u false hi, List.getD_eq_getElem v false hi'] at hbit

/-! ## Up to the width -/

theorem shiftIn_low (c : BitVec w) (bit : Bool) (bits : List Bool) (h : bits.length < w) :
    shift poly (c ^^^ low w (bit :: bits)) = shiftIn poly c bit ^^^ low w bits := by
  have hw : 0 < w := by omega
  have hbit : (c ^^^ low w (bit :: bits)).getLsbD 0 = (c.getLsbD 0 ^^ bit) := by
    rw [BitVec.getLsbD_xor, getLsbD_low, decide_eq_true hw, Bool.true_and]
    rfl
  have hmoved : (c ^^^ low w (bit :: bits)) >>> 1 = (c >>> 1) ^^^ low w bits := by
    apply BitVec.eq_of_getLsbD_eq
    intro i hi
    rw [BitVec.getLsbD_ushiftRight, BitVec.getLsbD_xor, BitVec.getLsbD_xor,
      BitVec.getLsbD_ushiftRight, getLsbD_low, getLsbD_low, Nat.add_comm 1 i, List.getD_cons_succ]
    by_cases hlast : i + 1 < w
    · simp [hi, hlast]
    · rw [List.getD_eq_default bits false (by omega), Bool.and_false, Bool.and_false]
  rw [shift, shiftIn, hbit, hmoved]
  cases (c.getLsbD 0 ^^ bit)
  · rfl
  · rw [if_pos rfl, if_pos rfl, BitVec.xor_assoc, BitVec.xor_assoc, BitVec.xor_comm poly]

/-- **Bits that fit the remainder are only shifted in.** -/
theorem serial_low (c : BitVec w) (bits : List Bool) (h : bits.length ≤ w) :
    serial poly c bits = (shift poly)^[bits.length] (c ^^^ low w bits) := by
  induction bits generalizing c with
  | nil =>
    have hzero : low w [] = 0#w := by
      apply BitVec.eq_of_getLsbD_eq
      intro i _
      simp [getLsbD_low]
    rw [hzero, BitVec.xor_zero]
    rfl
  | cons bit bits ih =>
    rw [List.length_cons] at h
    rw [List.length_cons, Function.iterate_succ_apply, shiftIn_low poly c bit bits (by omega)]
    exact ih _ (by omega)

theorem serial_append (c : BitVec w) (u v : List Bool) :
    serial poly c (u ++ v) = serial poly (serial poly c u) v := List.foldl_append

/-! ## Bytes -/

theorem low_byteBits (data : UInt8) : low w (byteBits data) = data.toBitVec.setWidth w := by
  apply BitVec.eq_of_getLsbD_eq
  intro i hi
  rw [getLsbD_low, BitVec.getLsbD_setWidth]
  by_cases hbyte : i < 8
  · simp [byteBits, hi, hbyte]
  · have hnone : (byteBits data).getD i false = false := by simp [byteBits, hbyte]
    rw [hnone, BitVec.getLsbD_of_ge _ _ (by omega)]

theorem byteBits_length (data : UInt8) : (byteBits data).length = 8 := by simp [byteBits]

/-- **The bytewise remainder is the remainder of the bits.** -/
theorem remainder_serial (hw : 8 ≤ w) (c : BitVec w) (bytes : List UInt8) :
    remainder poly c bytes = serial poly c (transmitted bytes) := by
  induction bytes generalizing c with
  | nil => rfl
  | cons data bytes ih =>
    have hbyte : update poly c data = serial poly c (byteBits data) := by
      have hlen := byteBits_length data
      rw [serial_low poly c _ (by omega), hlen, low_byteBits, update]
    have hsplit : transmitted (data :: bytes) = byteBits data ++ transmitted bytes := rfl
    rw [hsplit, serial_append, ← hbyte, ← ih]
    rfl

theorem transmitted_length (bytes : List UInt8) : (transmitted bytes).length = 8 * bytes.length := by
  induction bytes with
  | nil => rfl
  | cons data bytes ih =>
    have hsplit : transmitted (data :: bytes) = byteBits data ++ transmitted bytes := rfl
    rw [hsplit, List.length_append, byteBits_length, ih, List.length_cons]
    omega

theorem transmitted_injective {u v : List UInt8} (h : transmitted u = transmitted v) : u = v := by
  have hlen : u.length = v.length := by
    have hbits := congrArg List.length h
    rw [transmitted_length, transmitted_length] at hbits
    omega
  induction u generalizing v with
  | nil => exact (List.eq_nil_of_length_eq_zero hlen.symm).symm
  | cons a u ih =>
    cases v with
    | nil => cases hlen
    | cons b v =>
      obtain ⟨hbyte, hrest⟩ := List.append_inj (h : byteBits a ++ transmitted u =
        byteBits b ++ transmitted v) (by rw [byteBits_length, byteBits_length])
      have hab : a = b := by
        apply UInt8.toBitVec_inj.mp
        have hlow := congrArg (low 8) hbyte
        rwa [low_byteBits, low_byteBits, BitVec.setWidth_eq, BitVec.setWidth_eq] at hlow
      rw [hab, ih hrest (Nat.succ.inj hlen)]

/-! ## Detection -/

theorem shifts_zero (n : ℕ) : (shift poly)^[n] 0#w = 0#w := by
  rw [shifts_high poly 0#w n fun _ _ => BitVec.getLsbD_zero]
  exact BitVec.zero_ushiftRight

section
variable (hw : 0 < w) (hpoly : poly.getLsbD (w - 1) = true)
include hw hpoly

theorem shifts_injective (n : ℕ) {c d : BitVec w} (h : (shift poly)^[n] c = (shift poly)^[n] d) :
    c = d := by
  rw [← BitVec.xor_eq_zero_iff]
  apply shifts_eq_zero poly hw hpoly n
  rw [shifts_xor, h, BitVec.xor_self]

theorem serial_injective {c d : BitVec w} (bits : List Bool)
    (h : serial poly c bits = serial poly d bits) : c = d := by
  induction bits generalizing c d with
  | nil => exact h
  | cons bit bits ih =>
    have hbit : serial poly c [bit] = serial poly d [bit] := ih h
    rw [serial_low poly c [bit] hw, serial_low poly d [bit] hw] at hbit
    exact (BitVec.xor_left_inj _).mp (shifts_injective poly hw hpoly _ hbit)

/-- **The residue**: only a remainder's own bits take it to zero. -/
theorem serial_eq_zero_iff (c : BitVec w) {bits : List Bool} (h : bits.length ≤ w) :
    serial poly c bits = 0#w ↔ c = low w bits := by
  rw [serial_low poly c bits h, ← BitVec.xor_eq_zero_iff (x := c)]
  constructor
  · exact shifts_eq_zero poly hw hpoly _
  · intro hzero
    rw [hzero, shifts_zero]

/-- **Bursts are detected**, wherever they start. -/
theorem serial_burst (c : BitVec w) {u v : List Bool} (hlen : u.length = v.length) (hne : u ≠ v)
    {start : ℕ} (hburst : ∀ k, u[k]? ≠ v[k]? → start ≤ k ∧ k < start + w) :
    serial poly c u ≠ serial poly c v := by
  have hbefore : u.take start = v.take start := by
    apply List.ext_getElem?
    intro k
    rw [List.getElem?_take, List.getElem?_take]
    by_cases hk : k < start
    · rw [if_pos hk, if_pos hk]
      by_contra hdiff
      have := hburst k hdiff
      omega
    · rw [if_neg hk, if_neg hk]
  have hbehind : (u.drop start).drop w = (v.drop start).drop w := by
    apply List.ext_getElem?
    intro k
    rw [List.getElem?_drop, List.getElem?_drop, List.getElem?_drop, List.getElem?_drop]
    by_contra hdiff
    have := hburst _ hdiff
    omega
  have hsplit : ∀ x : List Bool, x = x.take start ++ ((x.drop start).take w ++
      (x.drop start).drop w) := by
    intro x
    rw [List.take_append_drop, List.take_append_drop]
  intro heq
  apply hne
  rw [hsplit u, hsplit v, hbefore, hbehind]
  -- the windows reach one remainder from one remainder
  rw [hsplit u, hsplit v, hbefore, hbehind, serial_append, serial_append, serial_append,
    serial_append] at heq
  have hwindow := serial_injective poly hw hpoly _ heq
  have hwidth : ((u.drop start).take w).length ≤ w := List.length_take_le ..
  have hwidth' : ((u.drop start).take w).length = ((v.drop start).take w).length := by
    rw [List.length_take, List.length_take, List.length_drop, List.length_drop, hlen]
  rw [serial_low poly _ ((u.drop start).take w) hwidth,
    serial_low poly _ ((v.drop start).take w) (by omega), ← hwidth'] at hwindow
  have hlow := (BitVec.xor_right_inj _).mp (shifts_injective poly hw hpoly _ hwindow)
  rw [low_injective hwidth hwidth' hlow]

end

end Avionicpp.Foundations.Crc
