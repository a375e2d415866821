import Avionicpp.Foundations.CharConv
import Avionicpp.Foundations.Region

/-! # `std::format`

Format strings whose replacement fields are all `{}`, `std::format_to_n` into a span, and the text of
a floating-point value, which is a parameter.
-/
namespace Avionicpp.Foundations
set_option autoImplicit false

/-- `std::format`, the arguments given as their texts. The language checks at compile time that there
is an argument for every `{}`. -/
def stdFormat : List UInt8 → List (List UInt8) → List UInt8
  | [], _ => []
  | [c], _ => [c]
  | c :: d :: fmt, args =>
    if c = ascii '{' ∧ d = ascii '}' then args.headD [] ++ stdFormat fmt args.tail
    else c :: stdFormat (d :: fmt) args

/-- `std::format_to_n` from an index on, with the rest of the span as the limit: the index behind
the last character written, and the span afterwards. -/
def formatToN (buffer : Region UInt8) (ptr : ℕ) (text : List UInt8) : ℕ × Region UInt8 :=
  let written := text.take (buffer.size - ptr)
  (ptr + written.length, buffer.storeList ptr written)

inductive FloatType where
  | float
  | double
  deriving DecidableEq, Repr

def FloatType.bits : FloatType → ℕ
  | .float => 32
  | .double => 64

/-- The conversions of floating-point values, given as bit patterns, to text and back. -/
structure FloatConv where
  /-- `{:0{}.{}f}`, and `{:.{}f}` for the width 0 -/
  format : (type : FloatType) → (precision width : ℕ) → BitVec type.bits → List UInt8
  /-- `std::from_chars`: the code and the value -/
  fromChars : (type : FloatType) → List UInt8 → Errc × BitVec type.bits

/-- Digits, point and minus, the letters of `inf` and `nan` and the blanks they are padded with. -/
def floatChars : List UInt8 := asciiText "0123456789.-infa "

structure FloatConv.Conforming (conv : FloatConv) : Prop where
  nonempty : ∀ type precision width v, conv.format type precision width v ≠ []
  chars : ∀ type precision width v, ∀ c ∈ conv.format type precision width v, c ∈ floatChars

theorem stdFormat_char {c : UInt8} (hc : c ≠ ascii '{') (fmt : List UInt8)
    (args : List (List UInt8)) : stdFormat (c :: fmt) args = c :: stdFormat fmt args := by
  cases fmt with
  | nil => rfl
  | cons d fmt => rw [stdFormat, if_neg (fun h => hc h.1)]

theorem stdFormat_arg (fmt arg : List UInt8) (args : List (List UInt8)) :
    stdFormat (asciiText "{}" ++ fmt) (arg :: args) = arg ++ stdFormat fmt args := rfl

theorem formatToN_length (buffer : Region UInt8) (ptr : ℕ) (text : List UInt8) :
    (formatToN buffer ptr text).1 = ptr + min (buffer.size - ptr) text.length := by
  rw [formatToN, List.length_take]

/-- **Two calls in a row write what one call writes**, also when the span ends inside one of them. -/
theorem formatToN_append (buffer : Region UInt8) (ptr : ℕ) (first second : List UInt8) :
    formatToN (formatToN buffer ptr first).2 (formatToN buffer ptr first).1 second =
      formatToN buffer ptr (first ++ second) := by
  have hlen : (first.take (buffer.size - ptr)).length = min (buffer.size - ptr) first.length :=
    List.length_take
  have hrest : buffer.size - (ptr + (first.take (buffer.size - ptr)).length) =
      buffer.size - ptr - first.length := by omega
  have htake : (first ++ second).take (buffer.size - ptr) =
      first.take (buffer.size - ptr) ++ second.take (buffer.size - ptr - first.length) :=
    List.take_append
  simp only [formatToN, Region.storeList_size, hrest, htake, List.length_append,
    Region.storeList_append, Nat.add_assoc]

/-- At the end of the span nothing is written, whatever the text. -/
theorem formatToN_full {buffer : Region UInt8} {ptr : ℕ} (h : buffer.size ≤ ptr)
    (text : List UInt8) : formatToN buffer ptr text = (ptr, buffer) := by
  rw [formatToN, Nat.sub_eq_zero_of_le h]
  rfl

theorem formatToN_room {buffer : Region UInt8} {ptr : ℕ} {text : List UInt8}
    (h : ptr + text.length ≤ buffer.size) :
    formatToN buffer ptr text = (ptr + text.length, buffer.storeList ptr text) := by
  have htake : text.take (buffer.size - ptr) = text := List.take_of_length_le (by omega)
  rw [formatToN, htake]

end Avionicpp.Foundations
