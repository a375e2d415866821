import Avionicpp.Foundations.BitSerial

/-! # Scattered errors

What a bit-serial remainder tells apart when the differences do not lie together. The run over the
differences decides (`serial_eq_iff`). If the polynomial has an odd number of bits, the parity of the
remainder is that of the data, so no odd number of errors goes unnoticed (`serial_odd`); and two errors
do only if the shift brings `1` back to `1` over the distance between them (`serial_two`).
-/
namespace Avionicpp.Foundations.Crc
set_option autoImplicit false

variable {w : ℕ} (poly : BitVec w)

/-- The bits in which two strings differ. -/
def differences (u v : List Bool) : List Bool := List.zipWith xor u v

/-- In how many bits two byte strings of one length differ. -/
def bitErrors (u v : List UInt8) : ℕ := (differences (transmitted u) (transmitted v)).count true

/-! ## Linearity -/

theorem shiftIn_xor (c d : BitVec w) (a b : Bool) :
    shiftIn poly (c ^^^ d) (a ^^ b) = shiftIn poly c a ^^^ shiftIn poly d b := by
  have hbit : ((c ^^^ d).getLsbD 0 ^^ (a ^^ b)) = ((c.getLsbD 0 ^^ a) ^^ (d.getLsbD 0 ^^ b)) := by
    rw [BitVec.getLsbD_xor, Bool.xor_assoc, Bool.xor_assoc, Bool.xor_left_comm (d.getLsbD 0)]
  unfold shiftIn
  rw [hbit, BitVec.ushiftRight_xor_distrib]
  cases (c.getLsbD 0 ^^ a) <;> cases (d.getLsbD 0 ^^ b)
  · rfl
  · exact BitVec.xor_assoc _ _ _
  · show c >>> 1 ^^^ d >>> 1 ^^^ poly = c >>> 1 ^^^ poly ^^^ d >>> 1
    rw [BitVec.xor_assoc, BitVec.xor_assoc, BitVec.xor_comm (d >>> 1)]
  · exact (xor_cancel _ _ _).symm

theorem serial_xor (c d : BitVec w) (u v : List Bool) (h : u.length = v.length) :
    serial poly (c ^^^ d) (differences u v) = serial poly c u ^^^ serial poly d v := by
  induction u generalizing c d v with
  | nil =>
    obtain rfl := List.eq_nil_of_length_eq_zero h.symm
    rfl
  | cons a u ih =>
    cases v with
    | nil => cases h
    | cons b v =>
      show serial poly (shiftIn poly (c ^^^ d) (a ^^ b)) (differences u v) = _
      rw [shiftIn_xor, ih _ _ v (Nat.succ.inj h)]
      rfl

/-- **The differences alone decide.** -/
theorem serial_eq_iff (c : BitVec w) (u v : List Bool) (h : u.length = v.length) :
    serial poly c u = serial poly c v ↔ serial poly 0#w (differences u v) = 0#w := by
  have hdiff := serial_xor poly c c u v h
  rw [BitVec.xor_self] at hdiff
  rw [hdiff, BitVec.xor_eq_zero_iff]

/-! ## Parity -/

/-- Whether an odd number of bits is set. -/
def odd (bits : List Bool) : Bool := bits.foldr xor false

@[simp] theorem odd_cons (b : Bool) (bits : List Bool) : odd (b :: bits) = (b ^^ odd bits) := rfl

theorem odd_append (u v : List Bool) : odd (u ++ v) = (odd u ^^ odd v) := by
  induction u with
  | nil => exact (Bool.false_xor _).symm
  | cons b u ih => rw [List.cons_append, odd_cons, odd_cons, ih, Bool.xor_assoc]

theorem odd_count (bits : List Bool) : odd bits = decide (bits.count true % 2 = 1) := by
  induction bits with
  | nil => rfl
  | cons b bits ih =>
    rw [odd_cons, ih]
    cases b
    · rw [List.count_cons_of_ne (by decide), Bool.false_xor]
    · rw [List.count_cons_self, Bool.true_xor, ← decide_not, decide_eq_decide]
      omega

theorem odd_map_xor (l : List ℕ) (f g : ℕ → Bool) :
    odd (l.map fun i => f i ^^ g i) = (odd (l.map f) ^^ odd (l.map g)) := by
  induction l with
  | nil => rfl
  | cons i l ih =>
    rw [List.map_cons, List.map_cons, List.map_cons, odd_cons, odd_cons, odd_cons, ih,
      Bool.xor_assoc, Bool.xor_assoc, Bool.xor_left_comm (g i)]

def parity (c : BitVec w) : Bool := odd ((List.range w).map c.getLsbD)

theorem parity_xor (c d : BitVec w) : parity (c ^^^ d) = (parity c ^^ parity d) := by
  have hbits : (c ^^^ d).getLsbD = fun i => c.getLsbD i ^^ d.getLsbD i := by
    funext i
    exact BitVec.getLsbD_xor
  rw [parity, hbits, odd_map_xor]
  rfl

theorem parity_zero : parity 0#w = false := by
  have hself := parity_xor (0#w) 0#w
  rwa [BitVec.xor_self, Bool.xor_self] at hself

/-- The bit that is shifted out leaves the parity. -/
theorem parity_ushiftRight (c : BitVec w) : parity (c >>> 1) = (parity c ^^ c.getLsbD 0) := by
  have hmoved : (c >>> 1).getLsbD = fun i => c.getLsbD (i + 1) := by
    funext i
    rw [BitVec.getLsbD_ushiftRight, Nat.add_comm]
  have hends : odd ((List.range (w + 1)).map c.getLsbD) = parity c := by
    rw [List.range_succ, List.map_append, odd_append, List.map_singleton,
      BitVec.getLsbD_of_ge c w (Nat.le_refl w)]
    exact Bool.xor_false _
  rw [List.range_succ_eq_map, List.map_cons, List.map_map, odd_cons] at hends
  rw [parity, hmoved, ← hends]
  show odd ((List.range w).map (c.getLsbD ∘ Nat.succ)) = _
  cases c.getLsbD 0 <;> simp

theorem parity_shiftIn (hpoly : parity poly = true) (c : BitVec w) (bit : Bool) :
    parity (shiftIn poly c bit) = (parity c ^^ bit) := by
  unfold shiftIn
  cases hout : c.getLsbD 0 ^^ bit
  · have hbit : c.getLsbD 0 = bit := by simpa using hout
    rw [if_neg Bool.false_ne_true, parity_ushiftRight, hbit]
  · have hbit : bit = !c.getLsbD 0 := by
      cases hc : c.getLsbD 0 <;> cases bit <;> simp_all
    rw [if_pos rfl, parity_xor, parity_ushiftRight, hpoly, hbit, Bool.xor_true, Bool.xor_not]

theorem parity_serial (hpoly : parity poly = true) (c : BitVec w) (bits : List Bool) :
    parity (serial poly c bits) = (parity c ^^ odd bits) := by
  induction bits generalizing c with
  | nil => exact (Bool.xor_false _).symm
  | cons b bits ih =>
    show parity (serial poly (shiftIn poly c b) bits) = _
    rw [ih, parity_shiftIn poly hpoly, odd_cons, Bool.xor_assoc]

/-- **An odd number of errors is detected**, in strings of any length. -/
theorem serial_odd (hpoly : parity poly = true) (c : BitVec w) {u v : List Bool}
    (h : u.length = v.length) (hodd : (differences u v).count true % 2 = 1) :
    serial poly c u ≠ serial poly c v := by
  intro heq
  have hzero := (serial_eq_iff poly c u v h).mp heq
  have hparity := parity_serial poly hpoly 0#w (differences u v)
  rw [hzero, parity_zero, Bool.false_xor, odd_count, hodd] at hparity
  exact absurd hparity (by decide)

/-! ## Two errors -/

theorem serial_false (c : BitVec w) (n : ℕ) :
    serial poly c (List.replicate n false) = (shift poly)^[n] c := by
  induction n generalizing c with
  | zero => rfl
  | succ n ih =>
    have hstep : shiftIn poly c false = shift poly c := by rw [shiftIn, shift, Bool.xor_false]
    show serial poly (shiftIn poly c false) (List.replicate n false) = _
    rw [ih, hstep, Function.iterate_succ_apply]

theorem serial_true (hw : 0 < w) (c : BitVec w) : serial poly c [true] = shift poly (c ^^^ 1#w) := by
  have hone : low w [true] = 1#w := by
    apply BitVec.eq_of_getLsbD_eq
    intro i hi
    rw [getLsbD_low, BitVec.getLsbD_one]
    cases i with
    | zero => rfl
    | succ i => simp
  rw [serial_low poly c [true] hw, hone]
  rfl

/-- What the strings are up to the first error. -/
theorem split_true {bits : List Bool} {n : ℕ} (h : bits.count true = n + 1) :
    ∃ k rest, bits = List.replicate k false ++ true :: rest ∧ rest.count true = n := by
  induction bits with
  | nil => cases h
  | cons b bits ih =>
    cases b
    · rw [List.count_cons_of_ne (by decide)] at h
      obtain ⟨k, rest, rfl, hrest⟩ := ih h
      exact ⟨k + 1, rest, rfl, hrest⟩
    · rw [List.count_cons_self] at h
      exact ⟨0, bits, rfl, Nat.succ.inj h⟩

theorem all_false {bits : List Bool} (h : bits.count true = 0) :
    bits = List.replicate bits.length false := by
  rw [List.eq_replicate_iff]
  refine ⟨rfl, fun b hb => ?_⟩
  cases b
  · rfl
  · exact absurd hb (List.count_eq_zero.mp h)

/-- **Two errors are detected** unless the shift comes back to `1` over the distance between them. -/
theorem serial_two (hw : 0 < w) (hpoly : poly.getLsbD (w - 1) = true) (c : BitVec w) {u v : List Bool}
    (h : u.length = v.length) (htwo : (differences u v).count true = 2)
    (hperiod : ∀ n, 0 < n → n < u.length → (shift poly)^[n] 1#w ≠ 1#w) :
    serial poly c u ≠ serial poly c v := by
  obtain ⟨k, rest, hfirst, hrest⟩ := split_true htwo
  obtain ⟨n, behind, rfl, hnone⟩ := split_true hrest
  have hlen : (differences u v).length = u.length := by
    rw [differences, List.length_zipWith, ← h, Nat.min_self]
  have hn : n + 1 < u.length := by
    rw [← hlen, hfirst]
    simp only [List.length_append, List.length_cons, List.length_replicate]
    omega
  intro heq
  have hzero := (serial_eq_iff poly c u v h).mp heq
  -- from the first error on the remainder is `1`, shifted; the second one adds another `1`
  have hsplit : List.replicate k false ++ true :: (List.replicate n false ++ true :: behind) =
      List.replicate k false ++ ([true] ++ (List.replicate n false ++ ([true] ++ behind))) := rfl
  rw [hfirst, hsplit, all_false hnone, serial_append, serial_append, serial_append, serial_append,
    serial_false, serial_false, serial_false, shifts_zero, serial_true poly hw, serial_true poly hw,
    BitVec.zero_xor] at hzero
  have hsecond := shift_eq_zero poly hw hpoly (shifts_eq_zero poly hw hpoly _ hzero)
  exact hperiod (n + 1) (Nat.succ_pos n) hn (BitVec.xor_eq_zero_iff.mp hsecond)

/-- The shift comes to `1` within the given number of steps. -/
def returns : ℕ → BitVec w → Bool
  | 0, _ => false
  | n + 1, c => if shift poly c = 1#w then true else returns n (shift poly c)

theorem returns_mono {m n : ℕ} {c : BitVec w} (h : returns poly n c = false) (hle : m ≤ n) :
    returns poly m c = false := by
  induction n generalizing c m with
  | zero =>
    obtain rfl := Nat.le_zero.mp hle
    rfl
  | succ n ih =>
    cases m with
    | zero => rfl
    | succ m =>
      rw [returns] at h ⊢
      by_cases hone : shift poly c = 1#w
      · rw [if_pos hone] at h
        cases h
      · rw [if_neg hone] at h ⊢
        exact ih h (Nat.le_of_succ_le_succ hle)

theorem returns_false {n : ℕ} {c : BitVec w} (h : returns poly n c = false) {k : ℕ} (hpos : 0 < k)
    (hk : k ≤ n) : (shift poly)^[k] c ≠ 1#w := by
  induction n generalizing c k with
  | zero => omega
  | succ n ih =>
    rw [returns] at h
    by_cases hone : shift poly c = 1#w
    · rw [if_pos hone] at h
      cases h
    · rw [if_neg hone] at h
      cases k with
      | zero => omega
      | succ k =>
        rw [Function.iterate_succ_apply]
        by_cases hlast : k = 0
        · subst hlast
          exact hone
        · exact ih h (by omega) (by omega)

/-! ## Bytes -/

theorem differences_append {u u' : List Bool} (v v' : List Bool) (h : u.length = u'.length) :
    differences (u ++ v) (u' ++ v') = differences u u' ++ differences v v' :=
  List.zipWith_append h

theorem bitErrors_append {u u' : List UInt8} (v v' : List UInt8) (h : u.length = u'.length) :
    bitErrors (u ++ v) (u' ++ v') = bitErrors u u' + bitErrors v v' := by
  have hbits : (transmitted u).length = (transmitted u').length := by
    rw [transmitted_length, transmitted_length, h]
  have hsplit : ∀ x y : List UInt8, transmitted (x ++ y) = transmitted x ++ transmitted y :=
    fun x y => List.flatMap_append
  rw [bitErrors, hsplit, hsplit, differences_append _ _ hbits, List.count_append]
  rfl

theorem differences_none {u v : List Bool} (h : u.length = v.length)
    (hnone : (differences u v).count true = 0) : u = v := by
  induction u generalizing v with
  | nil => exact (List.eq_nil_of_length_eq_zero h.symm).symm
  | cons a u ih =>
    cases v with
    | nil => cases h
    | cons b v =>
      have hcons : differences (a :: u) (b :: v) = (a ^^ b) :: differences u v := rfl
      rw [hcons] at hnone
      cases hab : a ^^ b
      · rw [hab, List.count_cons_of_ne (by decide)] at hnone
        have hbit : a = b := by simpa using hab
        rw [hbit, ih (Nat.succ.inj h) hnone]
      · rw [hab, List.count_cons_self] at hnone
        cases hnone

theorem bitErrors_self (u : List UInt8) : bitErrors u u = 0 := by
  have hall : ∀ bits : List Bool, (differences bits bits).count true = 0 := by
    intro bits
    induction bits with
    | nil => rfl
    | cons b bits ih =>
      show ((b ^^ b) :: differences bits bits).count true = 0
      rw [Bool.xor_self, List.count_cons_of_ne (by decide), ih]
  exact hall _

/-- **Up to three errors are detected** by an odd polynomial whose shift does not come back to `1`
within the string. -/
theorem serial_few (hw : 0 < w) (htop : poly.getLsbD (w - 1) = true) (hodd : parity poly = true)
    (c : BitVec w) {u v : List UInt8} (h : u.length = v.length) (hne : u ≠ v)
    (hfew : bitErrors u v < 4) (hperiod : returns poly (8 * u.length) 1#w = false) :
    serial poly c (transmitted u) ≠ serial poly c (transmitted v) := by
  have hbits : (transmitted u).length = (transmitted v).length := by
    rw [transmitted_length, transmitted_length, h]
  have hsome : bitErrors u v ≠ 0 := fun hnone =>
    hne (transmitted_injective (differences_none hbits hnone))
  by_cases htwo : bitErrors u v = 2
  · apply serial_two poly hw htop c hbits htwo
    intro n hpos hn
    rw [transmitted_length] at hn
    exact returns_false poly hperiod hpos (by omega)
  · apply serial_odd poly hodd c hbits
    show bitErrors u v % 2 = 1
    omega

end Avionicpp.Foundations.Crc
