import Mathlib.Data.Nat.Notation
import Mathlib.Logic.Function.Iterate

/-! # Cyclic redundancy checks

The reflected remainder of any width and polynomial, a bit at a time. The shift is linear in exclusive
or, and injective if the polynomial has its highest bit; so is a whole run over a byte string, and two
runs over strings of one length differ by a run from zero.
-/
namespace Avionicpp.Foundations.Crc
set_option autoImplicit false

variable {w : ℕ} (poly : BitVec w)

def shift (c : BitVec w) : BitVec w := if c.getLsbD 0 then (c >>> 1) ^^^ poly else c >>> 1

def update (c : BitVec w) (data : UInt8) : BitVec w :=
  (shift poly)^[8] (c ^^^ data.toBitVec.setWidth w)

def remainder (c : BitVec w) (bytes : List UInt8) : BitVec w := bytes.foldl (update poly) c

/-- The bytewise exclusive or of two strings. -/
def xorBytes : List UInt8 → List UInt8 → List UInt8 := List.zipWith (· ^^^ ·)

theorem xor_cancel (a b p : BitVec w) : a ^^^ p ^^^ (b ^^^ p) = a ^^^ b := by
  rw [BitVec.xor_assoc a p, ← BitVec.xor_assoc p b p, BitVec.xor_comm p b, BitVec.xor_assoc b p p,
    BitVec.xor_self, BitVec.xor_zero]

theorem xor_xor_xor_comm (a b c d : BitVec w) : a ^^^ b ^^^ (c ^^^ d) = a ^^^ c ^^^ (b ^^^ d) := by
  rw [BitVec.xor_assoc a b, ← BitVec.xor_assoc b c, BitVec.xor_comm b c, BitVec.xor_assoc c b,
    ← BitVec.xor_assoc a c]

/-! ## Linearity -/

theorem shift_xor (c d : BitVec w) : shift poly (c ^^^ d) = shift poly c ^^^ shift poly d := by
  unfold shift
  rw [BitVec.getLsbD_xor, BitVec.ushiftRight_xor_distrib]
  cases c.getLsbD 0 <;> cases d.getLsbD 0
  · rfl
  · exact BitVec.xor_assoc _ _ _
  · show c >>> 1 ^^^ d >>> 1 ^^^ poly = c >>> 1 ^^^ poly ^^^ d >>> 1
    rw [BitVec.xor_assoc, BitVec.xor_assoc, BitVec.xor_comm (d >>> 1)]
  · exact (xor_cancel _ _ _).symm

theorem shifts_xor (n : ℕ) (c d : BitVec w) :
    (shift poly)^[n] (c ^^^ d) = (shift poly)^[n] c ^^^ (shift poly)^[n] d := by
  induction n generalizing c d with
  | zero => rfl
  | succ n ih => rw [Function.iterate_succ_apply, shift_xor, ih]; rfl

theorem update_xor (c d : BitVec w) (a b : UInt8) :
    update poly (c ^^^ d) (a ^^^ b) = update poly c a ^^^ update poly d b := by
  unfold update
  rw [← shifts_xor, UInt8.toBitVec_xor, BitVec.setWidth_xor, xor_xor_xor_comm]

theorem remainder_append (c : BitVec w) (u v : List UInt8) :
    remainder poly c (u ++ v) = remainder poly (remainder poly c u) v := List.foldl_append

/-- **Linearity** of a run over strings of one length. -/
theorem remainder_xor (c d : BitVec w) (u v : List UInt8) (h : u.length = v.length) :
    remainder poly (c ^^^ d) (xorBytes u v) = remainder poly c u ^^^ remainder poly d v := by
  induction u generalizing c d v with
  | nil =>
    rw [List.length_nil] at h
    rw [List.eq_nil_of_length_eq_zero h.symm]
    rfl
  | cons a u ih =>
    cases v with
    | nil => cases h
    | cons b v =>
      show remainder poly (update poly (c ^^^ d) (a ^^^ b)) (xorBytes u v) = _
      rw [update_xor]
      exact ih _ _ _ (Nat.succ.inj h)

theorem xorBytes_self (u : List UInt8) : xorBytes u u = List.replicate u.length 0 := by
  induction u with
  | nil => rfl
  | cons a u ih =>
    show (a ^^^ a) :: xorBytes u u = 0 :: List.replicate u.length 0
    rw [ih, UInt8.xor_self]

theorem remainder_zeros (n : ℕ) (c : BitVec w) :
    remainder poly c (List.replicate n 0) = (shift poly)^[8 * n] c := by
  induction n generalizing c with
  | zero => rfl
  | succ n ih =>
    have hzero : update poly c 0 = (shift poly)^[8] c := by
      rw [update, UInt8.toBitVec_zero, BitVec.setWidth_zero, BitVec.xor_zero]
    show remainder poly (update poly c 0) (List.replicate n 0) = _
    rw [ih, hzero, ← Function.iterate_add_apply]
    rfl

/-- Runs over one string from two remainders differ by shifts of their difference. -/
theorem remainder_difference (c d : BitVec w) (u : List UInt8) :
    remainder poly c u ^^^ remainder poly d u = (shift poly)^[8 * u.length] (c ^^^ d) := by
  rw [← remainder_xor poly c d u u rfl, xorBytes_self, remainder_zeros]

/-! ## Injectivity -/

/-- The highest bit of the result is the bit that was shifted out. -/
theorem getLsbD_shift_last (hw : 0 < w) (hpoly : poly.getLsbD (w - 1) = true) (c : BitVec w) :
    (shift poly c).getLsbD (w - 1) = c.getLsbD 0 := by
  have htop : (c >>> 1).getLsbD (w - 1) = false := by
    rw [BitVec.getLsbD_ushiftRight]
    exact BitVec.getLsbD_of_ge c _ (by omega)
  unfold shift
  cases hbit : c.getLsbD 0
  · exact htop
  · rw [if_pos rfl, BitVec.getLsbD_xor, htop, hpoly]
    rfl

theorem shift_eq_zero (hw : 0 < w) (hpoly : poly.getLsbD (w - 1) = true) {c : BitVec w}
    (h : shift poly c = 0#w) : c = 0#w := by
  have hbit : c.getLsbD 0 = false := by
    rw [← getLsbD_shift_last poly hw hpoly c, h]
    exact BitVec.getLsbD_zero
  have hmoved : c >>> 1 = 0#w := by
    rwa [shift, hbit, if_neg Bool.false_ne_true] at h
  apply BitVec.eq_of_getLsbD_eq
  intro i _
  rw [BitVec.getLsbD_zero]
  cases i with
  | zero => exact hbit
  | succ i =>
    have hi := congrArg (fun d => d.getLsbD i) hmoved
    rw [BitVec.getLsbD_ushiftRight, BitVec.getLsbD_zero, Nat.add_comm] at hi
    exact hi

theorem shifts_eq_zero (hw : 0 < w) (hpoly : poly.getLsbD (w - 1) = true) (n : ℕ) {c : BitVec w}
    (h : (shift poly)^[n] c = 0#w) : c = 0#w := by
  induction n with
  | zero => exact h
  | succ n ih =>
    rw [Function.iterate_succ_apply'] at h
    exact ih (shift_eq_zero poly hw hpoly h)

/-! ## A byte at a time -/

/-- While its low bits are clear, a remainder only moves down. -/
theorem shifts_high (c : BitVec w) (n : ℕ) (h : ∀ i < n, c.getLsbD i = false) :
    (shift poly)^[n] c = c >>> n := by
  induction n with
  | zero => simp
  | succ n ih =>
    have hbit : (c >>> n).getLsbD 0 = false := by
      rw [BitVec.getLsbD_ushiftRight]
      exact h n (Nat.lt_succ_self n)
    rw [Function.iterate_succ_apply', ih fun i hi => h i (Nat.lt_succ_of_lt hi), shift, hbit,
      if_neg Bool.false_ne_true, ← BitVec.shiftRight_add]

end Avionicpp.Foundations.Crc
