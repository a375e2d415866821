import Mathlib.Data.List.Basic
import Mathlib.Data.List.Range
import Mathlib.Data.Nat.Notation

/-! # Memory behind a span

A region is the memory that starts at a span's first element, together with the span's size. The
memory goes on past the size: a store at or beyond the size changes the memory there, as it does in
a program that does not check, and the list of store indices makes such a store visible.
-/
namespace Avionicpp.Foundations
set_option autoImplicit false

/-- The memory from a span's first element on, the span's size, and every index stored to so far
(latest first). -/
structure Region (α : Type) where
  size : ℕ
  cell : ℕ → α
  stores : List ℕ

namespace Region
variable {α : Type}

/-- A span of the given contents that nothing was stored to; `pad` fills the memory after it. -/
def ofList (pad : α) (xs : List α) : Region α where
  size := xs.length
  cell := fun i => xs.getD i pad
  stores := []

def store (r : Region α) (i : ℕ) (x : α) : Region α where
  size := r.size
  cell := fun j => if j = i then x else r.cell j
  stores := i :: r.stores

def storeList (r : Region α) (i : ℕ) : List α → Region α
  | [] => r
  | x :: xs => storeList (r.store i x) (i + 1) xs

def read (r : Region α) (i n : ℕ) : List α := (List.range n).map fun k => r.cell (i + k)

@[simp] theorem ofList_size (pad : α) (xs : List α) : (ofList pad xs).size = xs.length := rfl

@[simp] theorem store_size (r : Region α) (i : ℕ) (x : α) : (r.store i x).size = r.size := rfl

@[simp] theorem store_stores (r : Region α) (i : ℕ) (x : α) :
    (r.store i x).stores = i :: r.stores := rfl

@[simp] theorem store_cell_self (r : Region α) (i : ℕ) (x : α) : (r.store i x).cell i = x :=
  if_pos rfl

theorem store_cell_ne (r : Region α) {i j : ℕ} (x : α) (h : j ≠ i) :
    (r.store i x).cell j = r.cell j := if_neg h

@[simp] theorem read_length (r : Region α) (i n : ℕ) : (r.read i n).length = n := by
  simp [read]

@[simp] theorem read_zero (r : Region α) (i : ℕ) : r.read i 0 = [] := rfl

theorem read_getElem? (r : Region α) {i n k : ℕ} (h : k < n) :
    (r.read i n)[k]? = some (r.cell (i + k)) := by
  simp [read, h]

theorem read_getElem (r : Region α) {i n k : ℕ} (h : k < (r.read i n).length) :
    (r.read i n)[k] = r.cell (i + k) := by
  simp [read]

theorem read_add (r : Region α) (i m n : ℕ) :
    r.read i (m + n) = r.read i m ++ r.read (i + m) n := by
  simp only [read, List.range_add, List.map_append, List.map_map, List.append_cancel_left_eq]
  apply List.map_congr_left
  intro k _
  simp only [Function.comp_apply, Nat.add_assoc]

theorem read_succ (r : Region α) (i n : ℕ) : r.read i (n + 1) = r.read i n ++ [r.cell (i + n)] := by
  rw [read_add]; rfl

theorem read_drop (r : Region α) {i n k : ℕ} (h : k ≤ n) :
    r.read (i + k) (n - k) = (r.read i n).drop k := by
  obtain ⟨m, rfl⟩ := Nat.exists_eq_add_of_le h
  rw [read_add, Nat.add_sub_cancel_left, List.drop_append_of_le_length (by simp),
    List.drop_of_length_le (by simp), List.nil_append]

theorem read_take (r : Region α) {i n k : ℕ} (h : k ≤ n) : r.read i k = (r.read i n).take k := by
  obtain ⟨m, rfl⟩ := Nat.exists_eq_add_of_le h
  rw [read_add, List.take_append_of_le_length (by simp), List.take_of_length_le (by simp)]

theorem read_slice (r : Region α) {i n j k : ℕ} (h : j + k ≤ n) :
    r.read (i + j) k = ((r.read i n).drop j).take k := by
  rw [← read_drop r (by omega : j ≤ n)]
  exact read_take r (by omega)

theorem read_store_of_not_mem (r : Region α) {i n j : ℕ} (x : α) (h : j < i ∨ i + n ≤ j) :
    (r.store j x).read i n = r.read i n := by
  simp only [read]
  apply List.map_congr_left
  intro k hk
  have hk' := List.mem_range.mp hk
  exact store_cell_ne r x (by omega)

theorem read_store_end (r : Region α) (i n : ℕ) (x : α) :
    (r.store (i + n) x).read i (n + 1) = r.read i n ++ [x] := by
  rw [read_succ, read_store_of_not_mem r x (Or.inr (Nat.le_refl _)), store_cell_self]

@[simp] theorem storeList_size (r : Region α) (i : ℕ) (xs : List α) :
    (r.storeList i xs).size = r.size := by
  induction xs generalizing r i with
  | nil => rfl
  | cons x xs ih => exact ih _ _

/-- A list is stored to one index after the other. -/
theorem storeList_stores (r : Region α) (i : ℕ) (xs : List α) :
    (r.storeList i xs).stores = (List.range' i xs.length).reverse ++ r.stores := by
  induction xs generalizing r i with
  | nil => rfl
  | cons x xs ih =>
    rw [storeList, ih, store_stores, List.length_cons, List.range'_succ, List.reverse_cons,
      List.append_assoc, List.singleton_append]

theorem storeList_append (r : Region α) (i : ℕ) (xs ys : List α) :
    r.storeList i (xs ++ ys) = (r.storeList i xs).storeList (i + xs.length) ys := by
  induction xs generalizing r i with
  | nil => rfl
  | cons x xs ih =>
    rw [List.cons_append, storeList, storeList, ih, List.length_cons]
    congr 1
    omega

theorem storeList_cell (r : Region α) (i : ℕ) (xs : List α) (j : ℕ) :
    (r.storeList i xs).cell j = if i ≤ j then (xs[j - i]?).getD (r.cell j) else r.cell j := by
  induction xs generalizing r i with
  | nil => simp [storeList]
  | cons x xs ih =>
    rw [storeList, ih]
    by_cases hj : j = i
    · subst hj
      rw [if_neg (by omega), if_pos (Nat.le_refl j)]
      simp
    · by_cases hin : i + 1 ≤ j
      · have e : j - i = j - (i + 1) + 1 := by omega
        rw [if_pos hin, if_pos (by omega), e, List.getElem?_cons_succ, store_cell_ne r x hj]
      · rw [if_neg hin, if_neg (by omega), store_cell_ne r x hj]

theorem read_storeList_of_not_mem (r : Region α) {i n j : ℕ} (xs : List α)
    (h : j + xs.length ≤ i ∨ i + n ≤ j) : (r.storeList j xs).read i n = r.read i n := by
  simp only [read]
  apply List.map_congr_left
  intro k hk
  have hk' := List.mem_range.mp hk
  rw [storeList_cell]
  by_cases hle : j ≤ i + k
  · rw [if_pos hle, List.getElem?_eq_none (by omega), Option.getD_none]
  · exact if_neg hle

theorem read_storeList_self (r : Region α) (i : ℕ) (xs : List α) :
    (r.storeList i xs).read i xs.length = xs := by
  apply List.ext_getElem
  · simp
  · intro k hk hk'
    rw [read_getElem, storeList_cell, if_pos (Nat.le_add_right i k), Nat.add_sub_cancel_left,
      List.getElem?_eq_getElem hk', Option.getD_some]

/-- Storing a list right after what is read extends it by that list. -/
theorem read_storeList_end (r : Region α) (i n : ℕ) (xs : List α) :
    (r.storeList (i + n) xs).read i (n + xs.length) = r.read i n ++ xs := by
  rw [read_add, read_storeList_self, read_storeList_of_not_mem r xs (Or.inr (Nat.le_refl _))]

theorem read_congr {r r' : Region α} {i n : ℕ} (h : ∀ j, i ≤ j → j < i + n → r'.cell j = r.cell j) :
    r'.read i n = r.read i n := by
  simp only [read]
  apply List.map_congr_left
  intro k hk
  have hk' := List.mem_range.mp hk
  exact h (i + k) (by omega) (by omega)

/-- Memory whose front has been overwritten: what is read is the overwritten part that lies in the
range, and the rest as it was. -/
theorem read_overwritten {r r' : Region α} {xs : List α} (hfront : r'.read 0 xs.length = xs)
    (hbehind : ∀ i, xs.length ≤ i → r'.cell i = r.cell i) (i n : ℕ) :
    r'.read i n = (xs.drop i).take n ++ (r.read i n).drop (xs.length - i) := by
  by_cases hall : i + n ≤ xs.length
  · have hslice := r'.read_slice (i := 0) hall
    rw [hfront, Nat.zero_add] at hslice
    have hnone : (r.read i n).drop (xs.length - i) = [] :=
      List.drop_of_length_le (by rw [read_length]; omega)
    rw [hslice, hnone, List.append_nil]
  · obtain ⟨k, hk⟩ : ∃ k, k = xs.length - i := ⟨_, rfl⟩
    have hpart : r'.read i k = xs.drop i := by
      by_cases hi : i ≤ xs.length
      · have hdrop := r'.read_drop (i := 0) hi
        rw [hfront, Nat.zero_add, ← hk] at hdrop
        exact hdrop
      · rw [hk, Nat.sub_eq_zero_of_le (by omega), List.drop_of_length_le (by omega)]
        rfl
    have hrest : r'.read (i + k) (n - k) = r.read (i + k) (n - k) :=
      read_congr fun j hj _ => hbehind j (by omega)
    have hsum : k + (n - k) = n := by omega
    rw [← hk, List.take_of_length_le (by rw [List.length_drop]; omega), ← hpart,
      ← read_drop r (by omega : k ≤ n), ← hrest, ← read_add, hsum]

end Region
end Avionicpp.Foundations
