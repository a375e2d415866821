import Avionicpp.Foundations.CharConv

/-! # Decimal numerals

The texts of the integers. `std::from_chars` reads the longest numeral at the front of a text and does
not look at what comes behind it (`fromChars_numeral`); a text that does not start with one is refused
(`fromChars_split`).
-/
namespace Avionicpp.Foundations
set_option autoImplicit false

/-- An optional minus sign and one or more decimal digits. -/
structure Numeral where
  negative : Bool
  digits : List ℕ
  nonempty : digits ≠ []
  decimal : ∀ d ∈ digits, d < 10

namespace Numeral

def text (n : Numeral) : List UInt8 :=
  (if n.negative then [ascii '-'] else []) ++ n.digits.map digitChar

def value (n : Numeral) : ℤ :=
  if n.negative then -(ofDigits 10 n.digits : ℤ) else ofDigits 10 n.digits

end Numeral

def IsDecimalDigit (c : UInt8) : Prop := 48 ≤ c.toNat ∧ c.toNat ≤ 57

instance (c : UInt8) : Decidable (IsDecimalDigit c) := inferInstanceAs (Decidable (_ ∧ _))

/-- The text does not start with a digit. -/
def Stops (rest : List UInt8) : Prop := ∀ c ∈ rest.head?, ¬ IsDecimalDigit c

theorem stops_nil : Stops [] := by
  intro c hc
  cases hc

theorem digitIn_eq_none {c : UInt8} (h : ¬ IsDecimalDigit c) : digitIn 10 c = none := by
  have h' : ¬ (48 ≤ c.toNat ∧ c.toNat ≤ 57) := h
  unfold digitIn digitValue
  rw [if_neg h']
  split
  · next d hd =>
    rw [if_neg]
    split at hd
    · rw [← Option.some.inj hd]
      omega
    · split at hd
      · rw [← Option.some.inj hd]
        omega
      · cases hd
  · rfl

/-- A decimal digit is the character of its value. -/
theorem digitIn_digit {c : UInt8} (h : IsDecimalDigit c) :
    ∃ d < 10, digitIn 10 c = some d ∧ digitChar d = c := by
  have hlow : c.toNat - 48 < 10 := by
    have := h.2
    omega
  have hchar : digitChar (c.toNat - 48) = c := by
    have hsum : 48 + (c.toNat - 48) = c.toNat := by
      have := h.1
      omega
    rw [digitChar, if_pos hlow, hsum, UInt8.ofNat_toNat]
  refine ⟨c.toNat - 48, hlow, ?_, hchar⟩
  have hin : digitIn 10 (digitChar (c.toNat - 48)) = some (c.toNat - 48) :=
    digitIn_digitChar (by omega) hlow
  rwa [hchar] at hin

theorem scanDigits_stops {rest : List UInt8} (h : Stops rest) : scanDigits 10 rest = [] := by
  cases rest with
  | nil => rfl
  | cons c rest => rw [scanDigits, digitIn_eq_none (h c rfl)]

theorem scanDigits_append {rest : List UInt8} (hrest : Stops rest) (ds : List ℕ)
    (hds : ∀ d ∈ ds, d < 10) : scanDigits 10 (ds.map digitChar ++ rest) = ds := by
  induction ds with
  | nil => exact scanDigits_stops hrest
  | cons d ds ih =>
    have hd := hds d (List.mem_cons_self ..)
    have ih' := ih fun e he => hds e (List.mem_cons_of_mem d he)
    rw [List.map_cons, List.cons_append, scanDigits, digitIn_digitChar (by omega) hd]
    simp only [ih']

/-- Every text is its digits at the front and a rest that does not start with one. -/
theorem scanDigits_split (text : List UInt8) :
    (∀ d ∈ scanDigits 10 text, d < 10) ∧
      ∃ rest, text = (scanDigits 10 text).map digitChar ++ rest ∧ Stops rest := by
  induction text with
  | nil => exact ⟨by simp [scanDigits], [], rfl, stops_nil⟩
  | cons c text ih =>
    by_cases hc : IsDecimalDigit c
    · obtain ⟨d, hd, hin, hchar⟩ := digitIn_digit hc
      obtain ⟨hlow, rest, htext, hrest⟩ := ih
      have hscan : scanDigits 10 (c :: text) = d :: scanDigits 10 text := by
        rw [scanDigits, hin]
      rw [hscan]
      refine ⟨?_, rest, ?_, hrest⟩
      · intro e he
        obtain rfl | he := List.mem_cons.mp he
        · exact hd
        · exact hlow e he
      · rw [List.map_cons, hchar, List.cons_append, ← htext]
    · have hstops : Stops (c :: text) := by
        intro e he
        rwa [← Option.some.inj he]
      rw [scanDigits_stops hstops]
      exact ⟨by simp, c :: text, rfl, hstops⟩

theorem Numeral.text_ne_nil (n : Numeral) : n.text ≠ [] := by
  intro h
  have hmap := (List.append_eq_nil_iff.mp h).2
  exact n.nonempty (List.map_eq_nil_iff.mp hmap)

/-- The sign of a text is the sign of the numeral at its front. -/
theorem Numeral.head_text (n : Numeral) (rest : List UInt8) :
    (n.text ++ rest).head? = some (ascii '-') ↔ n.negative = true := by
  obtain ⟨d, ds, hdigits⟩ := List.exists_cons_of_ne_nil n.nonempty
  have hd : d < 36 := by
    have := n.decimal d (by rw [hdigits]; exact List.mem_cons_self ..)
    omega
  cases hneg : n.negative with
  | true => simp [Numeral.text, hneg]
  | false => simp [Numeral.text, hneg, hdigits, digitChar_ne_minus d hd]

/-- A text starts with one longest numeral only. -/
theorem numeral_unique {n n' : Numeral} {rest rest' : List UInt8} (hrest : Stops rest)
    (hrest' : Stops rest') (h : n.text ++ rest = n'.text ++ rest') : n = n' ∧ rest = rest' := by
  have hneg : n.negative = n'.negative := by
    have hhead := n.head_text rest
    rw [h, n'.head_text] at hhead
    exact (Bool.eq_iff_iff.mpr hhead).symm
  have htail : n.digits.map digitChar ++ rest = n'.digits.map digitChar ++ rest' := by
    unfold Numeral.text at h
    rw [hneg, List.append_assoc, List.append_assoc] at h
    exact List.append_cancel_left h
  have hdigits : n.digits = n'.digits := by
    have hscan := scanDigits_append hrest n.digits n.decimal
    rw [htail, scanDigits_append hrest' n'.digits n'.decimal] at hscan
    exact hscan.symm
  rw [hdigits] at htail
  obtain ⟨negative, digits, hne, hdecimal⟩ := n
  obtain ⟨negative', digits', hne', hdecimal'⟩ := n'
  subst hneg hdigits
  exact ⟨rfl, List.append_cancel_left htail⟩

/-- **What follows a numeral is not looked at**: only `ptr` tells whether there is anything. -/
theorem fromChars_numeral {lo : ℤ} (hlo : lo < 0) (hi init : ℤ) (n : Numeral) {rest : List UInt8}
    (hrest : Stops rest) :
    fromChars 10 lo hi init (n.text ++ rest) =
      if lo ≤ n.value ∧ n.value ≤ hi then ⟨n.text.length, .ok, n.value⟩
      else ⟨n.text.length, .resultOutOfRange, init⟩ := by
  have hhead := n.head_text rest
  have hscan := scanDigits_append hrest n.digits n.decimal
  unfold fromChars
  simp only [hlo, true_and, hhead]
  cases hneg : n.negative with
  | true =>
    have htext : n.text ++ rest = ascii '-' :: (n.digits.map digitChar ++ rest) := by
      simp [Numeral.text, hneg]
    have hlength : n.text.length = n.digits.length + 1 := by simp [Numeral.text, hneg]
    rw [htext]
    simp only [decide_true, if_true, List.tail_cons, hscan, if_neg n.nonempty, Numeral.value, hneg,
      hlength]
  | false =>
    have htext : n.text ++ rest = n.digits.map digitChar ++ rest := by simp [Numeral.text, hneg]
    have hlength : n.text.length = n.digits.length := by simp [Numeral.text, hneg]
    rw [htext]
    simp only [Bool.false_eq_true, decide_false, if_false, hscan, if_neg n.nonempty, Numeral.value,
      hneg, hlength, Nat.add_zero]

/-- Every text starts with a numeral or is refused. -/
theorem fromChars_split {lo : ℤ} (hlo : lo < 0) (text : List UInt8) :
    (∃ (n : Numeral) (rest : List UInt8), text = n.text ++ rest ∧ Stops rest) ∨
      ∀ hi init : ℤ, fromChars 10 lo hi init text = ⟨0, .invalidArgument, init⟩ := by
  by_cases hhead : text.head? = some (ascii '-')
  · obtain ⟨tail, rfl⟩ := List.head?_eq_some_iff.mp hhead
    obtain ⟨hlow, rest, htail, hrest⟩ := scanDigits_split tail
    by_cases hne : scanDigits 10 tail = []
    · right
      intro hi init
      simp [fromChars, hlo, hne]
    · left
      refine ⟨⟨true, scanDigits 10 tail, hne, hlow⟩, rest, ?_, hrest⟩
      exact congrArg (List.cons (ascii '-')) htail
  · obtain ⟨hlow, rest, htext, hrest⟩ := scanDigits_split text
    by_cases hne : scanDigits 10 text = []
    · right
      intro hi init
      simp [fromChars, hhead, hne]
    · left
      exact ⟨⟨false, scanDigits 10 text, hne, hlow⟩, rest, htext, hrest⟩

end Avionicpp.Foundations
