import Avionicpp.Foundations.Numeral
import Avionicpp.Nmea0183.Deserializer

/-! # The grammar of a field

`RxField::value` compares the error code of `std::from_chars`, but not the pointer: a numeral in range
gives its value whatever comes behind it. Of a character field it takes the first character. The tokens
it reads by the grammar are therefore exactly those without such a rest.
-/
namespace Avionicpp.Nmea0183
open Foundations
set_option autoImplicit false

/-! ## What is asked -/

/-- The whole token is a numeral. -/
structure ReadsInt (token : List UInt8) (result : Except NMEAError (Option Int32)) : Prop where
  absent : result = .ok none ↔ token = []
  present : ∀ v : Int32, result = .ok (some v) ↔ ∃ n : Numeral, token = n.text ∧ n.value = v.toInt
  refused : result = .error .parseError ↔
    token ≠ [] ∧ ¬ ∃ (n : Numeral) (v : Int32), token = n.text ∧ n.value = v.toInt

/-- The whole token is a character. -/
structure ReadsChar (token : List UInt8) (result : Except NMEAError (Option UInt8)) : Prop where
  absent : result = .ok none ↔ token = []
  present : ∀ c, result = .ok (some c) ↔ token = [c]
  refused : result = .error .parseError ↔ 1 < token.length

/-- A numeral in the range of `int`, and more behind it that does not continue the numeral. -/
def HasTrailingText (token : List UInt8) : Prop :=
  ∃ (n : Numeral) (v : Int32) (rest : List UInt8),
    token = n.text ++ rest ∧ Stops rest ∧ rest ≠ [] ∧ n.value = v.toInt

/-! ## The readings of a token -/

theorem readsInt_nil : ReadsInt [] (.ok none) where
  absent := iff_of_true rfl rfl
  present := by
    intro v
    refine iff_of_false (by simp) ?_
    rintro ⟨n, htext, -⟩
    exact n.text_ne_nil htext.symm
  refused := iff_of_false (by simp) fun h => h.1 rfl

theorem readsInt_numeral (n : Numeral) {v : Int32} (hv : n.value = v.toInt) :
    ReadsInt n.text (.ok (some v)) where
  absent := iff_of_false (by simp) n.text_ne_nil
  present := by
    intro v'
    constructor
    · intro h
      rw [Except.ok.injEq, Option.some.injEq] at h
      exact ⟨n, rfl, by rw [hv, h]⟩
    · rintro ⟨n', htext, hv'⟩
      have hsame : n.text ++ [] = n'.text ++ [] := by rw [htext]
      rw [← (numeral_unique stops_nil stops_nil hsame).1, hv] at hv'
      rw [Int32.toInt_inj.mp hv']
  refused := iff_of_false (by simp) fun h => h.2 ⟨n, v, rfl, hv⟩

theorem readsInt_other {token : List UInt8} (hne : token ≠ [])
    (h : ¬ ∃ (n : Numeral) (v : Int32), token = n.text ∧ n.value = v.toInt) :
    ReadsInt token (.error .parseError) where
  absent := iff_of_false (by simp) hne
  present := fun v => iff_of_false (by simp) fun ⟨n, htext, hv⟩ => h ⟨n, v, htext, hv⟩
  refused := iff_of_true rfl ⟨hne, h⟩

theorem readsChar_nil : ReadsChar [] (.ok none) where
  absent := iff_of_true rfl rfl
  present := fun c => iff_of_false (by simp) (by simp)
  refused := iff_of_false (by simp) (by simp)

theorem readsChar_single (c : UInt8) : ReadsChar [c] (.ok (some c)) where
  absent := iff_of_false (by simp) (by simp)
  present := by
    intro c'
    rw [Except.ok.injEq, Option.some.injEq, List.cons.injEq, and_iff_left rfl]
  refused := iff_of_false (by simp) (by simp)

/-! ## What the code reads -/

theorem minValue_neg : Int32.minValue.toInt < 0 := by decide

theorem numeral_inRange (n : Numeral) :
    (Int32.minValue.toInt ≤ n.value ∧ n.value ≤ Int32.maxValue.toInt) ↔
      ∃ v : Int32, n.value = v.toInt := by
  constructor
  · rintro ⟨hlo, hhi⟩
    exact ⟨Int32.ofInt n.value, (Int32.toInt_ofInt_of_le hlo (Int.lt_add_one_of_le hhi)).symm⟩
  · rintro ⟨v, hv⟩
    rw [hv]
    exact ⟨v.minValue_le_toInt, v.toInt_le⟩

section
variable (conv : FloatConv) (width : ℕ)

theorem fieldValue_inRange (n : Numeral) {v : Int32} (hv : n.value = v.toInt) {rest : List UInt8}
    (hrest : Stops rest) :
    fieldValue conv (.int width) (n.text ++ rest) = .ok (some v) := by
  have hscan := fromChars_numeral minValue_neg Int32.maxValue.toInt 0 n hrest
  rw [if_pos ((numeral_inRange n).mpr ⟨v, hv⟩)] at hscan
  have hne : n.text ++ rest ≠ [] := fun h => n.text_ne_nil (List.append_eq_nil_iff.mp h).1
  obtain ⟨c, tail, htoken⟩ := List.exists_cons_of_ne_nil hne
  rw [htoken] at hscan ⊢
  simp only [fieldValue, hscan, ne_eq, not_true_eq_false, if_false, hv, Int32.ofInt_toInt]

theorem fieldValue_refused {token : List UInt8} (hne : token ≠ [])
    (h : ¬ ∃ (n : Numeral) (v : Int32) (rest : List UInt8),
      token = n.text ++ rest ∧ Stops rest ∧ n.value = v.toInt) :
    fieldValue conv (.int width) token = .error .parseError := by
  have hcode : (fromChars 10 Int32.minValue.toInt Int32.maxValue.toInt 0 token).ec ≠ .ok := by
    obtain ⟨n, rest, rfl, hrest⟩ | hinvalid := fromChars_split minValue_neg token
    · have hrange : ¬ (Int32.minValue.toInt ≤ n.value ∧ n.value ≤ Int32.maxValue.toInt) := by
        rw [numeral_inRange]
        rintro ⟨v, hv⟩
        exact h ⟨n, v, rest, rfl, hrest, hv⟩
      rw [fromChars_numeral minValue_neg _ 0 n hrest, if_neg hrange]
      exact Errc.noConfusion
    · rw [hinvalid]
      exact Errc.noConfusion
  obtain ⟨c, tail, rfl⟩ := List.exists_cons_of_ne_nil hne
  simp only [fieldValue]
  rw [if_pos hcode]

end

/-! ## The result -/

theorem fieldValue_readsInt_iff (conv : FloatConv) (width : ℕ) (token : List UInt8) :
    ReadsInt token (fieldValue conv (.int width) token) ↔ ¬ HasTrailingText token := by
  constructor
  · rintro h ⟨n, v, rest, rfl, hrest, hne, hv⟩
    obtain ⟨n', htoken, -⟩ := (h.present v).mp (fieldValue_inRange conv width n hv hrest)
    -- the whole token would be its own longest numeral
    have hwhole : n.text ++ rest = n'.text ++ [] := by rw [htoken, List.append_nil]
    exact hne (numeral_unique hrest stops_nil hwhole).2
  · intro h
    by_cases hsome : ∃ (n : Numeral) (v : Int32), token = n.text ∧ n.value = v.toInt
    · obtain ⟨n, v, rfl, hv⟩ := hsome
      have hread := fieldValue_inRange conv width n hv stops_nil
      rw [List.append_nil] at hread
      rw [hread]
      exact readsInt_numeral n hv
    · by_cases hempty : token = []
      · rw [hempty]
        exact readsInt_nil
      · rw [fieldValue_refused conv width hempty]
        · exact readsInt_other hempty hsome
        · rintro ⟨n, v, rest, htoken, hrest, hv⟩
          by_cases hne : rest = []
          · rw [hne, List.append_nil] at htoken
            exact hsome ⟨n, v, htoken, hv⟩
          · exact h ⟨n, v, rest, htoken, hrest, hne, hv⟩

theorem fieldValue_readsChar_iff (conv : FloatConv) (token : List UInt8) :
    ReadsChar token (fieldValue conv .char token) ↔ token.length ≤ 1 := by
  constructor
  · intro h
    cases token with
    | nil => exact Nat.zero_le 1
    | cons c rest =>
      have hone : c :: rest = [c] := (h.present c).mp rfl
      rw [hone]
      exact Nat.le_refl 1
  · intro h
    match token, h with
    | [], _ => exact readsChar_nil
    | [c], _ => exact readsChar_single c

/-- **A field is read by its grammar exactly if nothing follows what is read of it.** -/
theorem fieldValue_grammar_iff (conv : FloatConv) (width : ℕ) (token : List UInt8) :
    (ReadsInt token (fieldValue conv (.int width) token) ↔ ¬ HasTrailingText token) ∧
      (ReadsChar token (fieldValue conv .char token) ↔ token.length ≤ 1) :=
  ⟨fieldValue_readsInt_iff conv width token, fieldValue_readsChar_iff conv token⟩

/-- The letters behind the twelve are lost. -/
theorem fieldValue_garbage :
    ¬ ∀ conv : FloatConv,
      ReadsInt (asciiText "12abc") (fieldValue conv (.int 4) (asciiText "12abc")) := by
  intro h
  have hread := h ⟨fun _ _ _ _ => [], fun _ _ => (.ok, 0)⟩
  rw [fieldValue_readsInt_iff] at hread
  apply hread
  refine ⟨⟨false, [1, 2], by decide, by decide⟩, 12, asciiText "abc", by decide, ?_, by decide,
    by decide⟩
  intro c hc
  rw [← Option.some.inj hc]
  decide

end Avionicpp.Nmea0183
