import Avionicpp.Foundations.Numeral
import Mathlib.Data.Nat.Digits.Lemmas
import Mathlib.Data.Rat.Floor
import Mathlib.Tactic.FieldSimp
import Mathlib.Tactic.Linarith
import Mathlib.Tactic.NormNum
import Mathlib.Tactic.Ring

/-! # Decimal fractions as text

`std::format` and `std::from_chars` for floating-point values, read as exact rationals: a value is
rounded to its decimals, a tie to the even last digit, and a decimal fraction is read as what it says.
What was written is read back as the rounded value (`fromCharsDecimal_formatFixed`).
-/
namespace Avionicpp.Foundations
set_option autoImplicit false

/-! ## Rounding -/

/-- To the nearest integer, of two to the even one. -/
def roundHalfEven (x : ℚ) : ℤ :=
  if x - ⌊x⌋ < 1 / 2 ∨ x - ⌊x⌋ = 1 / 2 ∧ ⌊x⌋ % 2 = 0 then ⌊x⌋ else ⌊x⌋ + 1

theorem roundHalfEven_near (x : ℚ) :
    x - 1 / 2 ≤ roundHalfEven x ∧ (roundHalfEven x : ℚ) ≤ x + 1 / 2 := by
  have hlow := Int.floor_le x
  have hhigh := Int.lt_floor_add_one x
  unfold roundHalfEven
  split
  · next h =>
    have hhalf : x - ⌊x⌋ ≤ 1 / 2 := by
      obtain h | ⟨h, -⟩ := h
      · exact h.le
      · exact h.le
    constructor <;> linarith
  · next h =>
    have hhalf : 1 / 2 ≤ x - ⌊x⌋ := not_lt.mp fun hlt => h (Or.inl hlt)
    push_cast
    constructor <;> linarith

theorem le_roundHalfEven {x : ℚ} {N : ℤ} (h : (N : ℚ) ≤ x) : N ≤ roundHalfEven x := by
  have hnear := (roundHalfEven_near x).1
  by_contra hlt
  have hstep : roundHalfEven x + 1 ≤ N := by omega
  have hstep' : (roundHalfEven x : ℚ) + 1 ≤ N := by exact_mod_cast hstep
  linarith

/-- A tie in front of an even number is rounded to it. -/
theorem roundHalfEven_lt_iff {x : ℚ} {N : ℤ} (hN : N % 2 = 0) :
    roundHalfEven x < N ↔ x < N - 1 / 2 := by
  have hlow := Int.floor_le x
  have hhigh := Int.lt_floor_add_one x
  constructor
  · intro h
    by_contra hge
    have hge' : (N : ℚ) - 1 / 2 ≤ x := not_lt.mp hge
    by_cases hx : (N : ℚ) ≤ x
    · have hround := le_roundHalfEven hx
      omega
    · have hfloor : ⌊x⌋ = N - 1 := by
        rw [Int.floor_eq_iff]
        push_cast
        constructor <;> linarith
      have hcast : ((N - 1 : ℤ) : ℚ) = N - 1 := by push_cast; rfl
      have hround : roundHalfEven x = N := by
        unfold roundHalfEven
        rw [hfloor, hcast, if_neg, sub_add_cancel]
        rintro (hless | ⟨-, heven⟩)
        · linarith
        · omega
      omega
  · intro h
    have hnear := (roundHalfEven_near x).2
    have hlt : (roundHalfEven x : ℚ) < N := by linarith
    exact_mod_cast hlt

theorem roundHalfEven_natCast (n : ℕ) : roundHalfEven (n : ℚ) = n := by
  simp [roundHalfEven]

/-! ## Text -/

/-- `{:0{width}.{precision}f}` -/
def formatFixed (precision width : ℕ) (x : ℚ) : List UInt8 :=
  let n := (roundHalfEven (|x| * 10 ^ precision)).toNat
  let sign := if x < 0 then [ascii '-'] else []
  let whole := (digitsOf 10 (n / 10 ^ precision)).map digitChar
  let fraction :=
    if precision = 0 then [] else ascii '.' :: formatInt 10 precision (n % 10 ^ precision : ℕ)
  sign ++ List.replicate (width - (sign.length + whole.length + fraction.length)) (ascii '0') ++
    whole ++ fraction

/-- The exponent at the front of a text, or zero. -/
def scanExponent : List UInt8 → ℤ
  | [] => 0
  | c :: rest =>
    if c = ascii 'e' ∨ c = ascii 'E' then
      let negative := decide (rest.head? = some (ascii '-'))
      let signed := negative ∨ rest.head? = some (ascii '+')
      let ds := scanDigits 10 (if signed then rest.tail else rest)
      if negative then -(ofDigits 10 ds : ℤ) else ofDigits 10 ds
    else 0

def scale (exponent : ℤ) : ℚ :=
  if 0 ≤ exponent then 10 ^ exponent.toNat else 1 / 10 ^ (-exponent).toNat

/-- `std::from_chars` of a floating-point value: the code and the value. -/
def fromCharsDecimal (text : List UInt8) : Errc × ℚ :=
  let minus := decide (text.head? = some (ascii '-'))
  let rest := if minus then text.tail else text
  let whole := scanDigits 10 rest
  let behind := rest.drop whole.length
  let point := decide (behind.head? = some (ascii '.'))
  let fraction := if point then scanDigits 10 behind.tail else []
  let exponent := scanExponent (if point then behind.tail.drop fraction.length else behind)
  if whole = [] ∧ fraction = [] then (.invalidArgument, 0)
  else
    let v := ofDigits 10 (whole ++ fraction) * scale (exponent - fraction.length)
    (.ok, if minus then -v else v)

/-! ## Digits -/

theorem ofDigits_append (base : ℕ) (ds es : List ℕ) :
    ofDigits base (ds ++ es) = ofDigits base ds * base ^ es.length + ofDigits base es := by
  unfold ofDigits
  rw [List.reverse_append, Nat.ofDigits_append, List.length_reverse]
  ring

theorem ofDigits_lt (ds : List ℕ) (h : ∀ d ∈ ds, d < 10) : ofDigits 10 ds < 10 ^ ds.length := by
  have hlt := Nat.ofDigits_lt_base_pow_length (b := 10) (l := ds.reverse) (by omega)
    fun d hd => h d (List.mem_reverse.mp hd)
  rwa [List.length_reverse] at hlt

theorem digitsOf_length_le {n w : ℕ} (hw : 0 < w) (h : n < 10 ^ w) : (digitsOf 10 n).length ≤ w := by
  unfold digitsOf
  split
  · exact hw
  · rw [List.length_reverse]
    exact (Nat.digits_length_le_iff (by omega) n).mpr h

theorem ofDigits_paddedDigits (w n : ℕ) : ofDigits 10 (paddedDigits 10 w n) = n := by
  rw [paddedDigits, ofDigits_zeros, ofDigits_digitsOf, Int.natAbs_natCast]

/-- A number that fits a width fills it. -/
theorem paddedDigits_length {n w : ℕ} (hw : 0 < w) (h : n < 10 ^ w) :
    (paddedDigits 10 w n).length = w := by
  have hlen := digitsOf_length_le hw h
  have hpos : ¬ (n : ℤ) < 0 := by omega
  rw [paddedDigits, List.length_append, List.length_replicate, Int.natAbs_natCast, if_neg hpos]
  omega

/-- Digits are those of the number they write. -/
theorem paddedDigits_ofDigits {ds : List ℕ} (hne : ds ≠ []) (hds : ∀ d ∈ ds, d < 10) :
    paddedDigits 10 ds.length (ofDigits 10 ds : ℕ) = ds := by
  have hlen := paddedDigits_length (List.length_pos_iff.mpr hne) (ofDigits_lt ds hds)
  have hsmall := paddedDigits_lt (by omega : 2 ≤ 10) ds.length (ofDigits 10 ds : ℕ)
  have hvalue := ofDigits_paddedDigits ds.length (ofDigits 10 ds)
  apply List.reverse_injective
  apply Nat.ofDigits_inj_of_len_eq (by omega : 1 < 10)
  · rw [List.length_reverse, List.length_reverse, hlen]
  · exact fun d hd => hsmall d (List.mem_reverse.mp hd)
  · exact fun d hd => hds d (List.mem_reverse.mp hd)
  · exact hvalue

/-- The digits of a number that fits its width are those of its two parts. -/
theorem paddedDigits_split {w v high low : ℕ} (hv : 0 < v) (hhigh : high < 10 ^ w)
    (hlow : low < 10 ^ v) :
    ∃ ds es, paddedDigits 10 (w + v) (high * 10 ^ v + low : ℕ) = ds ++ es ∧ ds.length = w ∧
      es.length = v ∧ ofDigits 10 ds = high ∧ ofDigits 10 es = low := by
  have hfit : high * 10 ^ v + low < 10 ^ (w + v) := by
    have hstep : (high + 1) * 10 ^ v ≤ 10 ^ w * 10 ^ v := Nat.mul_le_mul_right _ hhigh
    rw [Nat.succ_mul] at hstep
    rw [Nat.pow_add]
    omega
  have hlen := paddedDigits_length (w := w + v) (by omega) hfit
  have hvalue := ofDigits_paddedDigits (w + v) (high * 10 ^ v + low)
  have hsmall := paddedDigits_lt (by omega : 2 ≤ 10) (w + v) (high * 10 ^ v + low : ℕ)
  generalize paddedDigits 10 (w + v) (high * 10 ^ v + low : ℕ) = digits at *
  have hes : (digits.drop w).length = v := by
    rw [List.length_drop, hlen, Nat.add_sub_cancel_left]
  have hsplit := ofDigits_append 10 (digits.take w) (digits.drop w)
  rw [List.take_append_drop, hvalue, hes] at hsplit
  have hlast := ofDigits_lt (digits.drop w) fun d hd => hsmall d (List.mem_of_mem_drop hd)
  rw [hes] at hlast
  -- both are the quotient and the remainder by the same power
  have hlows : ofDigits 10 (digits.drop w) = low := by
    have hmod := congrArg (· % 10 ^ v) hsplit
    simp only [Nat.mul_add_mod_of_lt hlow, Nat.mul_add_mod_of_lt hlast] at hmod
    exact hmod.symm
  have hpos : 0 < 10 ^ v := Nat.pow_pos (by omega)
  refine ⟨digits.take w, digits.drop w, (List.take_append_drop w digits).symm, ?_, hes, ?_, hlows⟩
  · rw [List.length_take, hlen]
    omega
  · rw [hlows] at hsplit
    exact (Nat.eq_of_mul_eq_mul_right hpos (Nat.add_right_cancel hsplit)).symm

/-- A number without a sign, and digits behind the point. -/
theorem formatFixed_eq {precision : ℕ} (hprecision : 0 < precision) (width : ℕ) {x : ℚ}
    (hx : 0 ≤ x) {n : ℕ} (hn : roundHalfEven (x * 10 ^ precision) = n) :
    formatFixed precision width x =
      (paddedDigits 10 (width - (precision + 1)) (n / 10 ^ precision : ℕ)).map digitChar ++
        ascii '.' :: (paddedDigits 10 precision (n % 10 ^ precision : ℕ)).map digitChar := by
  have hzero : ascii '0' = digitChar 0 := by decide
  have hmod : n % 10 ^ precision < 10 ^ precision := Nat.mod_lt _ (Nat.pow_pos (by omega))
  have hfraction : formatInt 10 precision (n % 10 ^ precision : ℕ) =
      (paddedDigits 10 precision (n % 10 ^ precision : ℕ)).map digitChar := by
    rw [formatInt_eq, if_neg (Int.not_lt.mpr (Int.natCast_nonneg _)), List.nil_append]
  have hlen := paddedDigits_length hprecision hmod
  have hpad : width - ((digitsOf 10 (n / 10 ^ precision)).length + (precision + 1)) =
      width - (precision + 1) - (digitsOf 10 (n / 10 ^ precision)).length := by omega
  have hwhole : paddedDigits 10 (width - (precision + 1)) (n / 10 ^ precision : ℕ) =
      List.replicate (width - (precision + 1) - (digitsOf 10 (n / 10 ^ precision)).length) 0 ++
        digitsOf 10 (n / 10 ^ precision) := by
    rw [paddedDigits, if_neg (Int.not_lt.mpr (Int.natCast_nonneg _)), Nat.zero_add,
      Int.natAbs_natCast]
  unfold formatFixed
  rw [abs_of_nonneg hx, hn, Int.toNat_natCast, if_neg (not_lt.mpr hx)]
  dsimp only
  rw [if_neg (Nat.pos_iff_ne_zero.mp hprecision), hfraction, hwhole, hzero]
  simp only [List.length_nil, List.length_map, List.length_cons, hlen, Nat.zero_add, hpad,
    List.nil_append, List.map_append, List.map_replicate]

/-- Digits with a point among them are written for their number, at their own width. -/
theorem formatFixed_digits {ds fs : List ℕ} (hne : ds ≠ []) (hfne : fs ≠ []) (hds : ∀ d ∈ ds, d < 10)
    (hfs : ∀ d ∈ fs, d < 10) :
    formatFixed fs.length (ds.length + (fs.length + 1))
        ((ofDigits 10 ds : ℚ) + ofDigits 10 fs / 10 ^ fs.length) =
      ds.map digitChar ++ ascii '.' :: fs.map digitChar := by
  have hlt := ofDigits_lt fs hfs
  have hpos : 0 < 10 ^ fs.length := Nat.pow_pos (by omega)
  have hscaled : ((ofDigits 10 ds : ℚ) + ofDigits 10 fs / 10 ^ fs.length) * 10 ^ fs.length =
      (ofDigits 10 ds * 10 ^ fs.length + ofDigits 10 fs : ℕ) := by
    push_cast
    field_simp
  have hround : roundHalfEven (((ofDigits 10 ds : ℚ) + ofDigits 10 fs / 10 ^ fs.length) *
      10 ^ fs.length) = (ofDigits 10 ds * 10 ^ fs.length + ofDigits 10 fs : ℕ) := by
    rw [hscaled, roundHalfEven_natCast]
  have hquotient : (ofDigits 10 ds * 10 ^ fs.length + ofDigits 10 fs) / 10 ^ fs.length =
      ofDigits 10 ds := by
    rw [Nat.add_comm, Nat.add_mul_div_right _ _ hpos, Nat.div_eq_of_lt hlt, Nat.zero_add]
  have hremainder : (ofDigits 10 ds * 10 ^ fs.length + ofDigits 10 fs) % 10 ^ fs.length =
      ofDigits 10 fs := by
    rw [Nat.mul_add_mod_of_lt hlt]
  rw [formatFixed_eq (List.length_pos_iff.mpr hfne) _ (by positivity) hround, hquotient, hremainder,
    Nat.add_sub_cancel, paddedDigits_ofDigits hne hds, paddedDigits_ofDigits hfne hfs]

theorem scale_neg (k : ℕ) : scale (-(k : ℤ)) = 1 / 10 ^ k := by
  unfold scale
  by_cases hk : k = 0
  · subst hk
    norm_num
  · rw [if_neg (by omega), neg_neg, Int.toNat_natCast]

/-- Digits with a point among them are read as the number they write. -/
theorem fromCharsDecimal_digits {ds fs : List ℕ} (hne : ds ≠ []) (hds : ∀ d ∈ ds, d < 10)
    (hfs : ∀ d ∈ fs, d < 10) :
    fromCharsDecimal (ds.map digitChar ++ ascii '.' :: fs.map digitChar) =
      (Errc.ok, (ofDigits 10 ds : ℚ) + ofDigits 10 fs / 10 ^ fs.length) := by
  have hstops : Stops (ascii '.' :: fs.map digitChar) := by
    intro c hc
    rw [← Option.some.inj hc]
    decide
  have hhead : (ds.map digitChar ++ ascii '.' :: fs.map digitChar).head? ≠ some (ascii '-') := by
    obtain ⟨d, rest, rfl⟩ := List.exists_cons_of_ne_nil hne
    have hd : d < 36 := by
      have := hds d (List.mem_cons_self ..)
      omega
    intro h
    exact digitChar_ne_minus d hd (Option.some.inj h)
  have hwhole := scanDigits_append hstops ds hds
  have hfraction : scanDigits 10 (fs.map digitChar) = fs :=
    scanDigits_digitChars (by omega) fs hfs
  have hbehind : (ds.map digitChar ++ ascii '.' :: fs.map digitChar).drop ds.length =
      ascii '.' :: fs.map digitChar := by
    rw [List.drop_append_of_le_length (by simp), List.drop_of_length_le (by simp), List.nil_append]
  have hend : (fs.map digitChar).drop fs.length = [] := List.drop_of_length_le (by simp)
  have hexponent : (0 : ℤ) - (fs.length : ℤ) = -(fs.length : ℤ) := by omega
  unfold fromCharsDecimal
  simp only [hhead, decide_false, Bool.false_eq_true, if_false, hwhole, hbehind, List.head?_cons,
    decide_true, if_true, List.tail_cons, hfraction, hend, hne, false_and, scanExponent, hexponent,
    scale_neg, ofDigits_append]
  congr 1
  push_cast
  field_simp

/-- **What was written is read back as the rounded value**, whatever the width. -/
theorem fromCharsDecimal_formatFixed {precision : ℕ} (hprecision : 0 < precision) (width : ℕ) {x : ℚ}
    (hx : 0 ≤ x) :
    fromCharsDecimal (formatFixed precision width x) =
      (Errc.ok, (roundHalfEven (x * 10 ^ precision) : ℚ) / 10 ^ precision) := by
  have hscaled : ((0 : ℤ) : ℚ) ≤ x * 10 ^ precision := by
    push_cast
    positivity
  obtain ⟨n, hn⟩ := Int.eq_ofNat_of_zero_le (le_roundHalfEven hscaled)
  have hmod : n % 10 ^ precision < 10 ^ precision := Nat.mod_lt _ (Nat.pow_pos (by omega))
  rw [formatFixed_eq hprecision width hx hn,
    fromCharsDecimal_digits (paddedDigits_ne_nil _ _ _) (paddedDigits_lt (by omega) _ _)
      (paddedDigits_lt (by omega) _ _), ofDigits_paddedDigits, ofDigits_paddedDigits,
    paddedDigits_length hprecision hmod, hn]
  congr 1
  have hsplit : ((10 ^ precision * (n / 10 ^ precision) + n % 10 ^ precision : ℕ) : ℚ) = n := by
    rw [Nat.div_add_mod]
  push_cast at hsplit ⊢
  rw [← hsplit]
  field_simp

end Avionicpp.Foundations
