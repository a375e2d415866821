import Avionicpp.Nmea0183.Payloads
import Avionicpp.Nmea0183.Types

/-! # The NMEA deserializer (`nmea0183/deserializer.hpp`)

`bind` gives every member of a payload struct its token, `Dispatcher::dispatch` calls the visitor
with the struct of the first handler for the message type, and `RxField::value` parses a token.
-/
namespace Avionicpp.Nmea0183
open Foundations
set_option autoImplicit false

inductive NMEAError where
  | none
  | parseError
  | fieldCountMismatch
  | invalidStartDelimiter
  | invalidEndDelimiter
  | checksumMismatch
  deriving DecidableEq, Repr

/-- The payload over `RxTraits`: a token for each member. -/
def Payload.Lazy (p : Payload) : Type := Fin p.fields.length → StringView

def bind (p : Payload) (view : MessageView) : Except NMEAError p.Lazy :=
  .ok fun idx => if idx < view.fieldCount then view.fields.cell idx else .empty

structure MessageHandler where
  id : List UInt8
  payloadType : Payload

/-- A visitor: what it makes of its state when it is invoked. -/
def Visitor (ρ : Type) : Type :=
  (h : MessageHandler) → Except NMEAError h.payloadType.Lazy → ρ → ρ

section
variable {ρ : Type}

def tryMatch (h : MessageHandler) (buffer : Region UInt8) (view : MessageView)
    (visitor : Visitor ρ) (r : ρ) : Bool × ρ :=
  if view.messageType.text buffer = h.id then (true, visitor h (bind h.payloadType view) r)
  else (false, r)

/-- `Dispatcher::dispatch`: the fold over `||` ends at the first handler that matches. -/
def dispatch (buffer : Region UInt8) (view : MessageView) (visitor : Visitor ρ) :
    List MessageHandler → ρ → Bool × ρ
  | [], r => (false, r)
  | h :: handlers, r =>
    match tryMatch h buffer view visitor r with
    | (true, r) => (true, r)
    | (false, r) => dispatch buffer view visitor handlers r

/-- The first handler for the message type is invoked, and no other. -/
theorem dispatch_eq_find (buffer : Region UInt8) (view : MessageView) (visitor : Visitor ρ)
    (handlers : List MessageHandler) (r : ρ) :
    dispatch buffer view visitor handlers r =
      match handlers.find? fun h => view.messageType.text buffer = h.id with
      | some h => (true, visitor h (bind h.payloadType view) r)
      | none => (false, r) := by
  induction handlers with
  | nil => rfl
  | cons h handlers ih =>
    by_cases hid : view.messageType.text buffer = h.id
    · simp only [dispatch, tryMatch, List.find?_cons, hid, if_true, decide_true]
    · simp only [dispatch, tryMatch, List.find?_cons, hid, if_false, decide_false, ih]

theorem dispatch_first (buffer : Region UInt8) (view : MessageView) (visitor : Visitor ρ)
    (earlier later : List MessageHandler) (h : MessageHandler) (r : ρ)
    (hearlier : ∀ h' ∈ earlier, h'.id ≠ h.id) (hmatch : view.messageType.text buffer = h.id) :
    dispatch buffer view visitor (earlier ++ h :: later) r =
      (true, visitor h (bind h.payloadType view) r) := by
  have hnone : earlier.find? (fun h => view.messageType.text buffer = h.id) = none := by
    apply List.find?_eq_none.mpr
    intro h' hh'
    simpa [hmatch] using (hearlier h' hh').symm
  rw [dispatch_eq_find, List.find?_append, hnone, Option.none_or, List.find?_cons_of_pos]
  simpa using hmatch

end

/-! ## Tokens -/

/-- `RxField::value`, of a token with the given text. -/
def fieldValue (conv : FloatConv) (kind : FieldKind) (token : List UInt8) :
    Except NMEAError (Option kind.Value) :=
  match token with
  | [] => .ok none
  | c :: rest =>
    match kind with
    | .string => .ok (some (c :: rest))
    | .char => .ok (some c)
    | .int _ =>
      let r := fromChars 10 Int32.minValue.toInt Int32.maxValue.toInt 0 (c :: rest)
      if r.ec ≠ .ok then .error .parseError else .ok (some (Int32.ofInt r.value))
    | .float type _ _ =>
      let (ec, v) := conv.fromChars type (c :: rest)
      if ec ≠ .ok then .error .parseError else .ok (some v)

theorem fieldValue_none_iff (conv : FloatConv) (kind : FieldKind) (token : List UInt8) :
    fieldValue conv kind token = .ok none ↔ token = [] := by
  cases token with
  | nil => simp [fieldValue]
  | cons c rest =>
    cases kind with
    | string | char => simp [fieldValue]
    | int width | float type precision width =>
      simp only [fieldValue]
      split <;> simp

/-- An integer is read back from its text, also when the text is wider than the padding. -/
theorem fieldValue_int (conv : FloatConv) (width : ℕ) (v : Int32) :
    fieldValue conv (.int width) (formatInt 10 width v.toInt) = .ok (some v) := by
  have hscan := @fromChars_formatInt 10 (by omega) (by omega) width _ _ _ 0 v.minValue_le_toInt
    v.toInt_le
  obtain ⟨c, rest, htext⟩ := List.exists_cons_of_ne_nil (formatInt_ne_nil 10 width v.toInt)
  rw [htext] at hscan ⊢
  simp only [fieldValue, hscan, ne_eq, not_true_eq_false, if_false, Int32.ofInt_toInt]

/-- Each member holds the field of its index, if the view has it. -/
theorem bind_text (p : Payload) {buffer : Region UInt8} {view : MessageView}
    {fields : List (List UInt8)} (hfields : (view.text buffer).fields = fields)
    (hcount : (view.text buffer).fieldCount = fields.length) :
    ∃ lazy : p.Lazy, bind p view = .ok lazy ∧
      ∀ i : Fin p.fields.length, (lazy i).text buffer = fields.getD i [] := by
  refine ⟨_, rfl, fun i => ?_⟩
  have hcount' : view.fieldCount = fields.length := hcount
  by_cases hi : (i : ℕ) < view.fieldCount
  · rw [if_pos hi]
    have hget : (view.text buffer).fields[(i : ℕ)]? = some ((view.fields.cell i).text buffer) := by
      have hread := view.fields.read_getElem? (i := 0) hi
      rw [Nat.zero_add] at hread
      simp only [MessageView.text, List.getElem?_map, hread, Option.map_some]
    rw [List.getD_eq_getElem?_getD, ← hfields, hget, Option.getD_some]
  · rw [if_neg hi, List.getD_eq_default _ _ (by omega)]
    rfl

end Avionicpp.Nmea0183
