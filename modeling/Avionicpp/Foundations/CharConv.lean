import Mathlib.Data.Nat.Digits.Defs
import Mathlib.Data.List.Basic

/-! # Integers as text

`std::from_chars` for integers and the integer part of `std::format`, after the language's standard:
`fromChars` reads an optional minus sign (signed types only) and the longest run of digits of the
base, and leaves the value alone on an error; `formatInt` writes the sign, zeros up to the width,
and the digits. Reading back what was written gives the number (`fromChars_formatInt`).
-/
namespace Avionicpp.Foundations
set_option autoImplicit false

def ascii (c : Char) : UInt8 := c.toUInt8

def asciiText (s : String) : List UInt8 := s.toList.map ascii

/-! ## Digits -/

def digitValue (c : UInt8) : Option ℕ :=
  if 48 ≤ c.toNat ∧ c.toNat ≤ 57 then some (c.toNat - 48)
  else if 97 ≤ c.toNat ∧ c.toNat ≤ 122 then some (c.toNat - 87)
  else if 65 ≤ c.toNat ∧ c.toNat ≤ 90 then some (c.toNat - 55)
  else none

def digitIn (base : ℕ) (c : UInt8) : Option ℕ :=
  match digitValue c with
  | some d => if d < base then some d else none
  | none => none

/-- The digits at the front of a text, up to the first character that is none. -/
def scanDigits (base : ℕ) : List UInt8 → List ℕ
  | [] => []
  | c :: text =>
    match digitIn base c with
    | some d => d :: scanDigits base text
    | none => []

def digitChar (d : ℕ) : UInt8 := if d < 10 then UInt8.ofNat (48 + d) else UInt8.ofNat (55 + d)

/-- The digits of a number, most significant first, at least one. -/
def digitsOf (base n : ℕ) : List ℕ := if n = 0 then [0] else (Nat.digits base n).reverse

def ofDigits (base : ℕ) (ds : List ℕ) : ℕ := Nat.ofDigits base ds.reverse

theorem digitValue_digitChar : ∀ d < 36, digitValue (digitChar d) = some d := by decide

theorem digitIn_digitChar {base d : ℕ} (hbase : base ≤ 36) (hd : d < base) :
    digitIn base (digitChar d) = some d := by
  simp only [digitIn, digitValue_digitChar d (by omega), hd, if_true]

theorem digitsOf_ne_nil (base n : ℕ) : digitsOf base n ≠ [] := by
  unfold digitsOf
  by_cases hn : n = 0
  · simp [hn]
  · rw [if_neg hn]
    exact mt List.reverse_eq_nil_iff.mp (Nat.digits_ne_nil_iff_ne_zero.mpr hn)

theorem digitsOf_lt {base : ℕ} (hbase : 2 ≤ base) (n : ℕ) : ∀ d ∈ digitsOf base n, d < base := by
  unfold digitsOf
  by_cases hn : n = 0
  · rw [if_pos hn]
    intro d hd
    rw [List.mem_singleton] at hd
    omega
  · rw [if_neg hn]
    intro d hd
    exact Nat.digits_lt_base (by omega) (List.mem_reverse.mp hd)

theorem ofDigits_digitsOf (base n : ℕ) : ofDigits base (digitsOf base n) = n := by
  unfold ofDigits digitsOf
  by_cases hn : n = 0
  · subst hn
    simp
  · rw [if_neg hn, List.reverse_reverse, Nat.ofDigits_digits]

theorem ofDigits_zeros (base k : ℕ) (ds : List ℕ) :
    ofDigits base (List.replicate k 0 ++ ds) = ofDigits base ds := by
  unfold ofDigits
  rw [List.reverse_append, List.reverse_replicate, Nat.ofDigits_append]
  have hz : Nat.ofDigits base (List.replicate k 0) = 0 := by
    induction k with
    | zero => rfl
    | succ k ih => rw [List.replicate_succ, Nat.ofDigits_cons, ih]; simp
  rw [hz, Nat.mul_zero, Nat.add_zero]

theorem scanDigits_digitChars {base : ℕ} (hbase : base ≤ 36) (ds : List ℕ)
    (hds : ∀ d ∈ ds, d < base) : scanDigits base (ds.map digitChar) = ds := by
  induction ds with
  | nil => rfl
  | cons d ds ih =>
    have hd := hds d (List.mem_cons_self ..)
    have ih' := ih fun e he => hds e (List.mem_cons_of_mem d he)
    rw [List.map_cons, scanDigits, digitIn_digitChar hbase hd]
    simp only [ih']

/-! ## `std::from_chars` -/

/-- `std::errc`, as far as `std::from_chars` uses it; `ok` is the value-initialized code. -/
inductive Errc where
  | ok
  | invalidArgument
  | resultOutOfRange
  deriving DecidableEq, Repr

/-- `std::from_chars_result` with the referenced value; `ptr` counts the characters matched. -/
structure FromCharsResult where
  ptr : ℕ
  ec : Errc
  value : ℤ
  deriving DecidableEq, Repr

/-- `std::from_chars(text.begin, text.end, value, base)` for an integer type with the range
`lo .. hi`, where `value` holds `init` before the call. -/
def fromChars (base : ℕ) (lo hi init : ℤ) (text : List UInt8) : FromCharsResult :=
  let minus := decide (lo < 0 ∧ text.head? = some (ascii '-'))
  let ds := scanDigits base (if minus then text.tail else text)
  let v : ℤ := if minus then -(ofDigits base ds : ℤ) else ofDigits base ds
  let ptr := ds.length + if minus then 1 else 0
  if ds = [] then ⟨0, .invalidArgument, init⟩
  else if lo ≤ v ∧ v ≤ hi then ⟨ptr, .ok, v⟩
  else ⟨ptr, .resultOutOfRange, init⟩

/-! ## `std::format` of an integer -/

/-- An integer formatted in a base with `0` padding up to a width: `{:0{}d}`, `{:02X}`, and `{}` at
width 0. -/
def formatInt (base width : ℕ) (v : ℤ) : List UInt8 :=
  let sign := if v < 0 then [ascii '-'] else []
  let ds := digitsOf base v.natAbs
  sign ++ List.replicate (width - (sign.length + ds.length)) (ascii '0') ++ ds.map digitChar

def paddedDigits (base width : ℕ) (v : ℤ) : List ℕ :=
  List.replicate (width - ((if v < 0 then 1 else 0) + (digitsOf base v.natAbs).length)) 0 ++
    digitsOf base v.natAbs

theorem formatInt_eq (base width : ℕ) (v : ℤ) :
    formatInt base width v =
      (if v < 0 then [ascii '-'] else []) ++ (paddedDigits base width v).map digitChar := by
  have hz : ascii '0' = digitChar 0 := by decide
  unfold formatInt paddedDigits
  by_cases hv : v < 0 <;> simp [hv, hz]

theorem paddedDigits_ne_nil (base width : ℕ) (v : ℤ) : paddedDigits base width v ≠ [] := by
  unfold paddedDigits
  intro h
  exact digitsOf_ne_nil base v.natAbs (List.append_eq_nil_iff.mp h).2

theorem paddedDigits_lt {base : ℕ} (hbase : 2 ≤ base) (width : ℕ) (v : ℤ) :
    ∀ d ∈ paddedDigits base width v, d < base := by
  intro d hd
  obtain hz | hd := List.mem_append.mp hd
  · rw [List.eq_of_mem_replicate hz]
    omega
  · exact digitsOf_lt hbase _ d hd

theorem formatInt_ne_nil (base width : ℕ) (v : ℤ) : formatInt base width v ≠ [] := by
  rw [formatInt_eq]
  intro h
  have hmap := (List.append_eq_nil_iff.mp h).2
  exact paddedDigits_ne_nil base width v (List.map_eq_nil_iff.mp hmap)

theorem formatInt_chars {base : ℕ} (hbase : 2 ≤ base) (width : ℕ) (v : ℤ) :
    ∀ c ∈ formatInt base width v, c = ascii '-' ∨ ∃ d < base, c = digitChar d := by
  intro c hc
  rw [formatInt_eq] at hc
  obtain hs | hd := List.mem_append.mp hc
  · by_cases hv : v < 0
    · rw [if_pos hv] at hs
      exact Or.inl (List.mem_singleton.mp hs)
    · rw [if_neg hv] at hs
      cases hs
  · obtain ⟨d, hmem, rfl⟩ := List.mem_map.mp hd
    exact Or.inr ⟨d, paddedDigits_lt hbase width v d hmem, rfl⟩

theorem digitChar_ne_minus : ∀ d < 36, digitChar d ≠ ascii '-' := by decide

/-- **Reading back a formatted integer gives the integer**, whatever the padding. -/
theorem fromChars_formatInt {base : ℕ} (hbase : 2 ≤ base) (hbase' : base ≤ 36) (width : ℕ)
    {lo hi v : ℤ} (init : ℤ) (hlo : lo ≤ v) (hhi : v ≤ hi) :
    fromChars base lo hi init (formatInt base width v) =
      ⟨(formatInt base width v).length, .ok, v⟩ := by
  have hlt := paddedDigits_lt hbase width v
  have hscan := scanDigits_digitChars hbase' _ hlt
  have hval : ofDigits base (paddedDigits base width v) = v.natAbs := by
    unfold paddedDigits
    rw [ofDigits_zeros, ofDigits_digitsOf]
  have hne := paddedDigits_ne_nil base width v
  rw [formatInt_eq]
  by_cases hv : v < 0
  · have hneg : lo < 0 := by omega
    have habs : -(v.natAbs : ℤ) = v := by omega
    simp only [fromChars, hv, hneg, if_true, List.singleton_append, List.head?_cons, true_and,
      decide_true, List.tail_cons, hscan, hval, habs, if_neg hne, hlo, hhi, List.length_cons,
      List.length_map]
  · obtain ⟨d, ds, hcons⟩ := List.exists_cons_of_ne_nil hne
    have hd : d < 36 := by
      have := hlt d (by rw [hcons]; exact List.mem_cons_self ..)
      omega
    have hhead : ¬ (lo < 0 ∧ ((paddedDigits base width v).map digitChar).head? =
        some (ascii '-')) := by
      rintro ⟨_, h⟩
      rw [hcons, List.map_cons, List.head?_cons, Option.some.injEq] at h
      exact digitChar_ne_minus d hd h
    have habs : (v.natAbs : ℤ) = v := by omega
    simp only [fromChars, hv, if_false, List.nil_append, hhead, decide_false, Bool.false_eq_true,
      hscan, hval, habs, if_neg hne, hlo, hhi, and_self, if_true, List.length_map, Nat.add_zero]

end Avionicpp.Foundations
