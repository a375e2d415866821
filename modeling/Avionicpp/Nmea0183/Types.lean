import Avionicpp.Foundations.CharConv
import Avionicpp.Foundations.Region
import Mathlib.Data.List.GetD

/-! # The message view (`nmea0183/types.hpp`)

A view is zero-copy: its `std::string_view`s point into the framer's working buffer. `StringView`
keeps the position and the length; `text` reads the characters, as a caller does before the next
push. `TextView` is what the caller then sees.
-/
namespace Avionicpp.Nmea0183
open Foundations
set_option autoImplicit false

/-- `std::string_view` into the working buffer: the index of `data()` and the length. The value-
initialized view is empty. -/
structure StringView where
  start : ℕ
  length : ℕ
  deriving DecidableEq, Repr

def StringView.empty : StringView := ⟨0, 0⟩

def StringView.substr (v : StringView) (pos count : ℕ) : StringView :=
  ⟨v.start + pos, min count (v.length - pos)⟩

def StringView.text (buffer : Region UInt8) (v : StringView) : List UInt8 :=
  buffer.read v.start v.length

def maxFields : ℕ := 32

/-- The array of fields keeps the indices that it was assigned at. -/
structure MessageView where
  talkerId : StringView
  messageType : StringView
  fields : Region StringView
  fieldCount : ℕ

def MessageView.empty : MessageView :=
  ⟨.empty, .empty, Region.ofList .empty (List.replicate maxFields .empty), 0⟩

/-- The tokens of a view as text: the fields are the first `field_count` entries of the array. -/
structure TextView where
  talkerId : List UInt8
  messageType : List UInt8
  fields : List (List UInt8)
  fieldCount : ℕ
  deriving DecidableEq, Repr

def MessageView.text (buffer : Region UInt8) (view : MessageView) : TextView where
  talkerId := view.talkerId.text buffer
  messageType := view.messageType.text buffer
  fields := (view.fields.read 0 view.fieldCount).map (·.text buffer)
  fieldCount := view.fieldCount

/-- Unsigned subtraction of two `size_t` values. -/
def sizeSub (a b : ℕ) : ℕ := if b ≤ a then a - b else a + 2 ^ 64 - b

/-- Every string view of the message view ends at or before an index of the buffer. -/
structure MessageView.Within (view : MessageView) (n : ℕ) : Prop where
  talkerId : view.talkerId.start + view.talkerId.length ≤ n
  messageType : view.messageType.start + view.messageType.length ≤ n
  fields : ∀ i, (view.fields.cell i).start + (view.fields.cell i).length ≤ n

theorem MessageView.empty_within (n : ℕ) : MessageView.empty.Within n := by
  refine ⟨Nat.zero_le n, Nat.zero_le n, fun i => ?_⟩
  have hcell : MessageView.empty.fields.cell i = .empty := by
    show (List.replicate maxFields StringView.empty).getD i .empty = .empty
    rw [List.getD_eq_getElem?_getD, List.getElem?_getD_replicate_default_eq]
  rw [hcell]
  exact Nat.zero_le n

theorem MessageView.Within.mono {view : MessageView} {m n : ℕ} (h : view.Within m) (hmn : m ≤ n) :
    view.Within n :=
  ⟨h.talkerId.trans hmn, h.messageType.trans hmn, fun i => (h.fields i).trans hmn⟩

theorem StringView.text_store {v : StringView} (buffer : Region UInt8) {n : ℕ} (x : UInt8)
    (h : v.start + v.length ≤ n) : v.text (buffer.store n x) = v.text buffer :=
  Region.read_store_of_not_mem buffer x (Or.inr h)

theorem MessageView.text_store {view : MessageView} (buffer : Region UInt8) {n : ℕ} (x : UInt8)
    (h : view.Within n) : view.text (buffer.store n x) = view.text buffer := by
  have hfields : (view.fields.read 0 view.fieldCount).map (·.text (buffer.store n x)) =
      (view.fields.read 0 view.fieldCount).map (·.text buffer) := by
    simp only [Region.read, List.map_map]
    apply List.map_congr_left
    intro i _
    exact StringView.text_store buffer x (h.fields (0 + i))
  simp only [MessageView.text, StringView.text_store buffer x h.talkerId,
    StringView.text_store buffer x h.messageType, hfields]

theorem StringView.substr_text (buffer : Region UInt8) (v : StringView) (pos count : ℕ)
    (h : pos ≤ v.length) :
    (v.substr pos count).text buffer = ((v.text buffer).drop pos).take count := by
  unfold StringView.text StringView.substr
  rw [Region.read_slice buffer (by omega : pos + min count (v.length - pos) ≤ v.length),
    ← Region.read_drop buffer h]
  by_cases hc : count ≤ v.length - pos
  · rw [Nat.min_eq_left hc]
  · rw [Nat.min_eq_right (by omega), List.take_of_length_le (by simp),
      List.take_of_length_le (by simp; omega)]

end Avionicpp.Nmea0183
