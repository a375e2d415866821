import Mathlib.Algebra.Ring.Nat
import Mathlib.Data.List.GetD
import Mathlib.Order.Monotone.Basic

/-! # The Gregorian calendar

The calendar is extended over all integers, and its days are counted from 1970-01-01. A date and its
number determine each other (`days_ofDays`, `ofDays_days`).
-/
namespace Avionicpp.Foundations
set_option autoImplicit false

/-! ## Blocks that follow each other -/

/-- The block that an index falls in, and how far it is into it. -/
def locate : List ℕ → ℕ → ℕ × ℕ
  | [], n => (0, n)
  | length :: lengths, n =>
    if n < length then (0, n)
    else ((locate lengths (n - length)).1 + 1, (locate lengths (n - length)).2)

theorem locate_spec (lengths : List ℕ) (n : ℕ) (hn : n < lengths.sum) :
    (locate lengths n).1 < lengths.length ∧
      (locate lengths n).2 < lengths.getD (locate lengths n).1 0 ∧
      (lengths.take (locate lengths n).1).sum + (locate lengths n).2 = n := by
  induction lengths generalizing n with
  | nil => cases hn
  | cons length lengths ih =>
    rw [List.sum_cons] at hn
    rw [locate]
    by_cases h : n < length
    · rw [if_pos h]
      exact ⟨Nat.succ_pos _, h, Nat.zero_add n⟩
    · rw [if_neg h]
      obtain ⟨hblock, hin, hsum⟩ := ih (n - length) (by omega)
      refine ⟨Nat.succ_lt_succ hblock, hin, ?_⟩
      rw [List.take_succ_cons, List.sum_cons, Nat.add_assoc, hsum]
      omega

theorem take_sum_lt (lengths : List ℕ) (i o : ℕ) (ho : o < lengths.getD i 0) :
    (lengths.take i).sum + o < lengths.sum := by
  induction lengths generalizing i with
  | nil => cases ho
  | cons length lengths ih =>
    rw [List.sum_cons]
    cases i with
    | zero =>
      have hin : o < length := ho
      rw [List.take_zero, List.sum_nil]
      omega
    | succ i =>
      have hrest := ih i ho
      rw [List.take_succ_cons, List.sum_cons]
      omega

theorem locate_eq (lengths : List ℕ) (i o : ℕ) (ho : o < lengths.getD i 0) :
    locate lengths ((lengths.take i).sum + o) = (i, o) := by
  induction lengths generalizing i with
  | nil => cases ho
  | cons length lengths ih =>
    cases i with
    | zero =>
      rw [List.take_zero, List.sum_nil, Nat.zero_add, locate]
      exact if_pos ho
    | succ i =>
      have hrest : length + (lengths.take i).sum + o - length = (lengths.take i).sum + o := by omega
      rw [List.take_succ_cons, List.sum_cons, locate, if_neg (by omega), hrest, ih i ho]

/-! ## Years and months -/

def IsLeap (year : ℤ) : Prop := year % 4 = 0 ∧ (year % 100 ≠ 0 ∨ year % 400 = 0)

instance (year : ℤ) : Decidable (IsLeap year) := inferInstanceAs (Decidable (_ ∧ _))

def monthLengths (year : ℤ) : List ℕ :=
  [31, if IsLeap year then 29 else 28, 31, 30, 31, 30, 31, 31, 30, 31, 30, 31]

/-- The number of the first of January. -/
def yearStart (year : ℤ) : ℤ :=
  365 * (year - 1970) + (year - 1) / 4 - (year - 1) / 100 + (year - 1) / 400 - 477

/-- The year of a day: the mean length of a year gives it up to one. -/
def yearOf (n : ℤ) : ℤ :=
  let year := 400 * (n + 719162) / 146097 + 1
  if n < yearStart year then year - 1
  else if n < yearStart (year + 1) then year
  else year + 1

structure Date where
  year : ℤ
  month : ℕ
  day : ℕ
  deriving DecidableEq, Repr

def Date.Valid (date : Date) : Prop :=
  1 ≤ date.month ∧ date.month ≤ 12 ∧ 1 ≤ date.day ∧
    date.day ≤ (monthLengths date.year).getD (date.month - 1) 0

instance (date : Date) : Decidable date.Valid := inferInstanceAs (Decidable (_ ∧ _))

def Date.days (date : Date) : ℤ :=
  yearStart date.year + ((monthLengths date.year).take (date.month - 1)).sum + (date.day - 1)

def Date.ofDays (n : ℤ) : Date :=
  let year := yearOf n
  let place := locate (monthLengths year) (n - yearStart year).toNat
  ⟨year, place.1 + 1, place.2 + 1⟩

theorem monthLengths_le (year : ℤ) (i : ℕ) : (monthLengths year).getD i 0 ≤ 31 := by
  have hall : ∀ length ∈ monthLengths year, length ≤ 31 := by
    by_cases h : IsLeap year <;> simp [monthLengths, h]
  by_cases hi : i < (monthLengths year).length
  · rw [List.getD_eq_getElem _ _ hi]
    exact hall _ (List.getElem_mem hi)
  · rw [List.getD_eq_default _ _ (by omega)]
    omega

theorem yearStart_succ (year : ℤ) :
    yearStart (year + 1) = yearStart year + (monthLengths year).sum := by
  by_cases h : IsLeap year
  · have hsum : (monthLengths year).sum = 366 := by simp [monthLengths, h]
    rw [hsum]
    unfold IsLeap at h
    unfold yearStart
    omega
  · have hsum : (monthLengths year).sum = 365 := by simp [monthLengths, h]
    rw [hsum]
    unfold IsLeap at h
    unfold yearStart
    omega

theorem yearStart_lt_iff {a b : ℤ} : yearStart a < yearStart b ↔ a < b := by
  have hsucc : ∀ year, yearStart year < yearStart (year + 1) := by
    intro year
    have hpos : 0 < (monthLengths year).sum := Nat.succ_pos _
    rw [yearStart_succ]
    omega
  exact (strictMono_int_of_lt_succ hsucc).lt_iff_lt

theorem yearOf_spec (n : ℤ) : yearStart (yearOf n) ≤ n ∧ n < yearStart (yearOf n + 1) := by
  have hlow : yearStart (400 * (n + 719162) / 146097 + 1 - 1) ≤ n := by
    unfold yearStart
    omega
  have hhigh : n < yearStart (400 * (n + 719162) / 146097 + 1 + 1 + 1) := by
    unfold yearStart
    omega
  unfold yearOf
  dsimp only
  split_ifs with h h'
  · exact ⟨hlow, by rwa [Int.sub_add_cancel]⟩
  · exact ⟨by omega, h'⟩
  · exact ⟨by omega, hhigh⟩

theorem yearOf_unique {n year : ℤ} (hlow : yearStart year ≤ n) (hhigh : n < yearStart (year + 1)) :
    yearOf n = year := by
  obtain ⟨hlow', hhigh'⟩ := yearOf_spec n
  have hbefore := yearStart_lt_iff.mp (hlow.trans_lt hhigh')
  have hafter := yearStart_lt_iff.mp (hlow'.trans_lt hhigh)
  omega

/-! ## Dates and numbers of days -/

/-- The place of a day in its year. -/
theorem ofDays_place (n : ℤ) :
    (Date.ofDays n).Valid ∧
      yearStart (yearOf n) + ((monthLengths (yearOf n)).take ((Date.ofDays n).month - 1)).sum +
        ((Date.ofDays n).day - 1) = n := by
  obtain ⟨hlow, hhigh⟩ := yearOf_spec n
  rw [yearStart_succ] at hhigh
  obtain ⟨hmonth, hday, hsum⟩ := locate_spec (monthLengths (yearOf n)) (n - yearStart (yearOf n)).toNat
    (by omega)
  have hlength : (monthLengths (yearOf n)).length = 12 := rfl
  rw [hlength] at hmonth
  simp only [Date.ofDays, Date.Valid, Nat.add_sub_cancel]
  refine ⟨⟨?_, ?_, ?_, ?_⟩, ?_⟩ <;> omega

theorem ofDays_valid (n : ℤ) : (Date.ofDays n).Valid := (ofDays_place n).1

/-- **The date of a number has that number.** -/
theorem days_ofDays (n : ℤ) : (Date.ofDays n).days = n := (ofDays_place n).2

/-- **The number of a date has that date.** -/
theorem ofDays_days {date : Date} (h : date.Valid) : Date.ofDays date.days = date := by
  obtain ⟨hmonth, hmonth', hday, hday'⟩ := h
  have hplace := locate_eq (monthLengths date.year) (date.month - 1) (date.day - 1) (by omega)
  have hlt := take_sum_lt (monthLengths date.year) (date.month - 1) (date.day - 1) (by omega)
  have hyear : yearOf date.days = date.year := by
    apply yearOf_unique
    · unfold Date.days
      omega
    · rw [yearStart_succ]
      unfold Date.days
      omega
  have hindex : (date.days - yearStart date.year).toNat =
      ((monthLengths date.year).take (date.month - 1)).sum + (date.day - 1) := by
    unfold Date.days
    omega
  rw [Date.ofDays, hyear, hindex, hplace]
  dsimp only
  rw [Nat.sub_add_cancel hmonth, Nat.sub_add_cancel hday]

/-- The epoch, the end of a February without its leap day, and the eve of the year zero. -/
example : [0, 47540, -719529].map Date.ofDays =
    [⟨1970, 1, 1⟩, ⟨2100, 2, 28⟩, ⟨-1, 12, 31⟩] := by decide

end Avionicpp.Foundations
