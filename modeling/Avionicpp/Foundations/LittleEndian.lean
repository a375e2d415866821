import Mathlib.Data.List.Basic
import Mathlib.Data.Nat.Notation
import Mathlib.Tactic.Ring

/-! # Little-endian byte strings

The bytes of a number, lowest first, and back. Zero bytes at the end of a string stand for nothing:
a string may be cut behind its last byte that is not zero and filled up again.
-/
namespace Avionicpp.Foundations
set_option autoImplicit false

def toBytes : ℕ → ℕ → List UInt8
  | 0, _ => []
  | k + 1, n => UInt8.ofNat n :: toBytes k (n / 256)

def ofBytes : List UInt8 → ℕ
  | [] => 0
  | b :: bs => b.toNat + 256 * ofBytes bs

@[simp] theorem toBytes_length (k n : ℕ) : (toBytes k n).length = k := by
  induction k generalizing n with
  | zero => rfl
  | succ k ih => simp [toBytes, ih]

theorem toBytes_zero (k : ℕ) : toBytes k 0 = List.replicate k 0 := by
  induction k with
  | zero => rfl
  | succ k ih => simp [toBytes, ih, List.replicate_succ]

theorem ofBytes_toBytes (k n : ℕ) : ofBytes (toBytes k n) = n % 256 ^ k := by
  induction k generalizing n with
  | zero => simp [toBytes, ofBytes, Nat.mod_one]
  | succ k ih =>
    have hpow : 256 ^ (k + 1) = 256 * 256 ^ k := by ring
    rw [toBytes, ofBytes, ih, UInt8.toNat_ofNat', hpow, Nat.mod_mul]

theorem ofBytes_lt (bs : List UInt8) : ofBytes bs < 256 ^ bs.length := by
  induction bs with
  | nil => exact Nat.one_pos
  | cons b bs ih =>
    have hb := b.toNat_lt
    have hpow : 256 ^ (bs.length + 1) = 256 * 256 ^ bs.length := by ring
    rw [ofBytes, List.length_cons, hpow]
    omega

theorem ofBytes_append (bs cs : List UInt8) :
    ofBytes (bs ++ cs) = ofBytes bs + 256 ^ bs.length * ofBytes cs := by
  induction bs with
  | nil => simp [ofBytes]
  | cons b bs ih =>
    have hpow : 256 ^ (bs.length + 1) = 256 * 256 ^ bs.length := by ring
    rw [List.cons_append, ofBytes, ofBytes, ih, List.length_cons, hpow]
    ring

theorem toBytes_ofBytes (bs : List UInt8) : toBytes bs.length (ofBytes bs) = bs := by
  induction bs with
  | nil => rfl
  | cons b bs ih =>
    have hb := b.toNat_lt
    have hlow : UInt8.ofNat (b.toNat + 256 * ofBytes bs) = b := by
      apply UInt8.toNat_inj.mp
      rw [UInt8.toNat_ofNat']
      omega
    have hhigh : (b.toNat + 256 * ofBytes bs) / 256 = ofBytes bs := by omega
    rw [ofBytes, List.length_cons, toBytes, hlow, hhigh, ih]

/-! ## Zero extension -/

/-- The first `n` bytes of a string that goes on with zeros. -/
def zeroExtend (n : ℕ) (bs : List UInt8) : List UInt8 := bs.take n ++ List.replicate (n - bs.length) 0

theorem zeroExtend_length (n : ℕ) (bs : List UInt8) : (zeroExtend n bs).length = n := by
  rw [zeroExtend, List.length_append, List.length_take, List.length_replicate]
  omega

theorem zeroExtend_of_le {n : ℕ} {bs : List UInt8} (h : n ≤ bs.length) :
    zeroExtend n bs = bs.take n := by
  rw [zeroExtend, Nat.sub_eq_zero_of_le h, List.replicate_zero, List.append_nil]

theorem zeroExtend_of_ge {n : ℕ} {bs : List UInt8} (h : bs.length ≤ n) :
    zeroExtend n bs = bs ++ List.replicate (n - bs.length) 0 := by
  rw [zeroExtend, List.take_of_length_le h]

theorem zeroExtend_add (m n : ℕ) (bs : List UInt8) :
    zeroExtend (m + n) bs = zeroExtend m bs ++ zeroExtend n (bs.drop m) := by
  by_cases h : m ≤ bs.length
  · have hrest : m + n - bs.length = n - (bs.length - m) := by omega
    rw [zeroExtend_of_le h, zeroExtend, zeroExtend, List.take_add, List.append_assoc,
      List.length_drop, hrest]
  · have hzeros : m + n - bs.length = (m - bs.length) + n := by omega
    rw [zeroExtend_of_ge (by omega), zeroExtend_of_ge (by omega : bs.length ≤ m),
      List.drop_of_length_le (by omega), zeroExtend, hzeros, List.replicate_add, List.append_assoc,
      List.take_nil, List.nil_append, List.length_nil, Nat.sub_zero]

theorem zeroExtend_zeros (n k : ℕ) (bs : List UInt8) :
    zeroExtend n (bs ++ List.replicate k 0) = zeroExtend n bs := by
  by_cases h : n ≤ bs.length
  · rw [zeroExtend_of_le h, zeroExtend_of_le (by rw [List.length_append]; omega),
      List.take_append_of_le_length h]
  · have hmin : min (n - bs.length) k + (n - (bs.length + k)) = n - bs.length := by omega
    rw [zeroExtend, List.take_append, List.take_of_length_le (by omega), List.take_replicate,
      List.length_append, List.length_replicate, List.append_assoc, ← List.replicate_add, hmin,
      zeroExtend_of_ge (by omega)]

theorem zeroExtend_take (n : ℕ) (bs : List UInt8) : zeroExtend n (bs.take n) = zeroExtend n bs := by
  by_cases h : n ≤ bs.length
  · rw [zeroExtend_of_le h, zeroExtend_of_le (by rw [List.length_take]; omega), List.take_take,
      Nat.min_self]
  · rw [List.take_of_length_le (by omega)]

theorem toBytes_eq_zeros {k n : ℕ} (hn : n < 256 ^ k) (h : toBytes k n = List.replicate k 0) :
    n = 0 := by
  have hvalue := congrArg ofBytes h
  rwa [← toBytes_zero, ofBytes_toBytes, ofBytes_toBytes, Nat.zero_mod, Nat.mod_eq_of_lt hn] at hvalue

/-- A string that is its own continuation behind zeros consists of zeros. -/
theorem eq_zeros_of_shift {k : ℕ} (hk : 0 < k) {xs rest rest' : List UInt8}
    (h : xs ++ rest = List.replicate k 0 ++ (xs ++ rest')) : xs = List.replicate xs.length 0 := by
  have hzero : ∀ i (hi : i < xs.length), xs[i] = 0 := by
    intro i
    induction i using Nat.strong_induction_on with
    | _ i ih =>
      intro hi
      have hat : (xs ++ rest)[i]? = (List.replicate k 0 ++ (xs ++ rest'))[i]? := by rw [h]
      rw [List.getElem?_append_left hi, List.getElem?_eq_getElem hi] at hat
      by_cases hik : i < k
      · rw [List.getElem?_append_left (by simpa using hik), List.getElem?_replicate,
          if_pos hik] at hat
        exact Option.some.inj hat
      · -- the same byte, `k` places earlier
        have hlen : (List.replicate k (0 : UInt8)).length = k := List.length_replicate
        rw [List.getElem?_append_right (by omega), hlen, List.getElem?_append_left (by omega),
          List.getElem?_eq_getElem (by omega)] at hat
        rw [Option.some.inj hat]
        exact ih (i - k) (by omega) (by omega)
  apply List.eq_replicate_iff.mpr
  refine ⟨rfl, fun x hx => ?_⟩
  obtain ⟨i, hi, rfl⟩ := List.mem_iff_getElem.mp hx
  exact hzero i hi

/-! ## Cutting trailing zeros -/

/-- The length that is left when zero bytes are taken off the end, as long as more than one byte is
left: the loop `while (n > 1 && p[n - 1] == 0) n--`. -/
def trimmedLength (cell : ℕ → UInt8) : ℕ → ℕ
  | 0 => 0
  | 1 => 1
  | n + 2 => if cell (n + 1) = 0 then trimmedLength cell (n + 1) else n + 2

theorem trimmedLength_le (cell : ℕ → UInt8) (n : ℕ) : trimmedLength cell n ≤ n := by
  induction n with
  | zero => exact Nat.le_refl _
  | succ n ih =>
    cases n with
    | zero => exact Nat.le_refl _
    | succ n =>
      rw [trimmedLength]
      split
      · omega
      · exact Nat.le_refl _

theorem trimmedLength_congr {cell cell' : ℕ → UInt8} {n : ℕ} (h : ∀ i < n, cell i = cell' i) :
    trimmedLength cell n = trimmedLength cell' n := by
  induction n with
  | zero => rfl
  | succ n ih =>
    cases n with
    | zero => rfl
    | succ n =>
      rw [trimmedLength, trimmedLength, h (n + 1) (Nat.lt_succ_self _),
        ih fun i hi => h i (Nat.lt_succ_of_lt hi)]

theorem trimmedLength_pos (cell : ℕ → UInt8) {n : ℕ} (hn : 0 < n) : 0 < trimmedLength cell n := by
  induction n with
  | zero => omega
  | succ n ih =>
    cases n with
    | zero => exact Nat.one_pos
    | succ n =>
      rw [trimmedLength]
      split
      · exact ih (Nat.succ_pos n)
      · omega

/-- What is left ends in a byte that is not zero, if it is more than one byte. -/
theorem trimmedLength_last (cell : ℕ → UInt8) (n : ℕ) (h : 1 < trimmedLength cell n) :
    cell (trimmedLength cell n - 1) ≠ 0 := by
  induction n with
  | zero => exact absurd h (by simp [trimmedLength])
  | succ n ih =>
    cases n with
    | zero => exact absurd h (by simp [trimmedLength])
    | succ n =>
      rw [trimmedLength] at h ⊢
      by_cases hz : cell (n + 1) = 0
      · rw [if_pos hz] at h ⊢
        exact ih h
      · rw [if_neg hz]
        exact hz

theorem trimmedLength_zero (cell : ℕ → UInt8) {n i : ℕ} (hi : trimmedLength cell n ≤ i)
    (hn : i < n) : cell i = 0 := by
  induction n with
  | zero => omega
  | succ n ih =>
    cases n with
    | zero =>
      simp only [trimmedLength] at hi
      omega
    | succ n =>
      rw [trimmedLength] at hi
      by_cases hz : cell (n + 1) = 0
      · rw [if_pos hz] at hi
        by_cases hlast : i = n + 1
        · rw [hlast, hz]
        · exact ih hi (by omega)
      · rw [if_neg hz] at hi
        omega

end Avionicpp.Foundations
