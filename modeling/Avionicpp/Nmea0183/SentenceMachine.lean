import Avionicpp.Nmea0183.Framer

/-! # The sentence machine

What the framer does, without its buffer and its indices: the machine remembers the body text it has
read and cuts it at the commas only when the body ends. `Nmea0183.FramerRefinement` proves that the
framer over any buffer of size `N` gives the results of this machine, so every statement about streams
is proved here.

The machine has the framer's behaviour after an overrun and after a newline in the payload: it goes
on with the checksum characters, carrying the sum and the view of the part it has read.
-/
namespace Avionicpp.Nmea0183
open Foundations
set_option autoImplicit false

def checksum (b : List UInt8) : UInt8 := b.foldl (· ^^^ ·) 0

def tokens (b : List UInt8) : List (List UInt8) := b.splitOn (ascii ',')

/-- The view of a list of tokens: the address is split by fixed offsets when it has at least five
characters, and the array takes the first 32 of the others. -/
def viewOf : List (List UInt8) → TextView
  | [] => ⟨[], [], [], 0⟩
  | address :: fields =>
    { talkerId := if 5 ≤ address.length then address.take 2 else []
      messageType := if 5 ≤ address.length then (address.drop 2).take 3 else []
      fields := fields.take maxFields
      fieldCount := min fields.length maxFields }

/-- The byte two hex digits stand for, in either case. -/
def hexByte (h1 h2 : UInt8) : Option UInt8 :=
  match digitIn 16 h1, digitIn 16 h2 with
  | some d1, some d2 => some (UInt8.ofNat (16 * d1 + d2))
  | _, _ => none

/-- What the framer is reading, with all it remembers of the sentence. -/
inductive Phase where
  | searching
  | body (b : List UInt8)
  | hex1 (sum : UInt8) (view : TextView)
  | hex2 (sum : UInt8) (view : TextView) (h1 : UInt8)
  | cr (sum : UInt8) (view : TextView) (h1 h2 : UInt8)
  | lf (sum : UInt8) (view : TextView) (h1 h2 : UInt8)
  deriving DecidableEq

def verdict (sum : UInt8) (view : TextView) (h1 h2 : UInt8) : Except ErrorType TextView :=
  match hexByte h1 h2 with
  | none => .error (ErrorCode.invalidChecksumChar.toInt, msgInvChar)
  | some x =>
    if x = sum then .ok view else .error (ErrorCode.checksumMismatch.toInt, msgMismatch)

/-- One byte in the body: it ends the body, is refused, or extends it. -/
def bodyStep (N : ℕ) (b : List UInt8) (c : UInt8) : Phase × Option (Except ErrorType TextView) :=
  if c = ascii '*' then (.hex1 (checksum b) (viewOf (tokens b)), none)
  else if c = ascii '\n' then
    (.hex1 (checksum b) (viewOf (tokens b)),
      some (.error (ErrorCode.protocolViolation.toInt, msgProtocol)))
  else if N ≤ b.length then
    (.hex1 (checksum b) (viewOf (if c = ascii ',' then tokens b else (tokens b).dropLast)),
      some (.error (ErrorCode.bufferOverrun.toInt, msgOverrun)))
  else (.body (b ++ [c]), none)

def phaseStep (N : ℕ) : Phase → UInt8 → Phase × Option (Except ErrorType TextView)
  | .searching, c => (if c = ascii '$' ∨ c = ascii '!' then .body [] else .searching, none)
  | .body b, c => bodyStep N b c
  | .hex1 sum view, c => (.hex2 sum view c, none)
  | .hex2 sum view h1, c => (.cr sum view h1 c, none)
  | .cr sum view h1 h2, c =>
    if c = ascii '\r' then (.lf sum view h1 h2, none)
    else (.searching, some (.error (ErrorCode.protocolViolation.toInt, msgBadCrlf)))
  | .lf sum view h1 h2, c =>
    if c = ascii '\n' then (.searching, some (verdict sum view h1 h2))
    else (.searching, some (.error (ErrorCode.protocolViolation.toInt, msgBadCrlf)))

def sentenceMachine (N : ℕ) : Mealy Phase UInt8 (Option (Except ErrorType TextView)) where
  step := phaseStep N

@[simp] theorem sentenceMachine_step (N : ℕ) (ph : Phase) (c : UInt8) :
    (sentenceMachine N).step ph c = phaseStep N ph c := rfl

/-! ## Tokens of a growing body -/

@[simp] theorem tokens_nil : tokens [] = [[]] := rfl

theorem checksum_concat (b : List UInt8) (c : UInt8) : checksum (b ++ [c]) = checksum b ^^^ c := by
  simp [checksum]

theorem tokens_ne_nil (b : List UInt8) : tokens b ≠ [] := List.splitOn_ne_nil _ _

theorem tokens_comma (b : List UInt8) : tokens (b ++ [ascii ',']) = tokens b ++ [[]] := by
  unfold tokens
  rw [List.splitOn_append_cons_self]
  rfl

theorem tokens_other (b : List UInt8) (c : UInt8) (hc : c ≠ ascii ',') :
    tokens (b ++ [c]) = (tokens b).dropLast ++ [(tokens b).getLast (tokens_ne_nil b) ++ [c]] := by
  induction b with
  | nil =>
    have hbeq : (c == ascii ',') = false := by simpa using hc
    simp [tokens, List.splitOn_cons_eq_if_modifyHead, hbeq]
  | cons x b ih =>
    simp only [tokens, List.cons_append, List.splitOn_cons_eq_if_modifyHead] at ih ⊢
    by_cases hx : (x == ascii ',') = true
    · simp only [hx, if_true, ih]
      rw [List.dropLast_cons_of_ne_nil (List.splitOn_ne_nil _ _),
        List.getLast_cons (List.splitOn_ne_nil _ _)]
      rfl
    · simp only [hx, Bool.false_eq_true, if_false, ih]
      obtain ⟨t, ts, ht⟩ := List.exists_cons_of_ne_nil (List.splitOn_ne_nil (ascii ',') b)
      cases ts with
      | nil => simp [ht]
      | cons t' ts => simp [ht]

/-! ## Views of a growing list of tokens -/

theorem viewOf_address (address : List UInt8) :
    viewOf [address] =
      { viewOf [] with
        talkerId := if 5 ≤ address.length then address.take 2 else []
        messageType := if 5 ≤ address.length then (address.drop 2).take 3 else [] } := by
  simp [viewOf]

theorem viewOf_concat_room (init : List (List UInt8)) (hinit : init ≠ []) (cur : List UInt8)
    (hroom : (viewOf init).fieldCount < maxFields) :
    viewOf (init ++ [cur]) =
      { viewOf init with
        fields := (viewOf init).fields ++ [cur]
        fieldCount := (viewOf init).fieldCount + 1 } := by
  obtain ⟨address, fields, rfl⟩ := List.exists_cons_of_ne_nil hinit
  have hlt : fields.length < maxFields := by
    simp only [viewOf] at hroom
    omega
  have hmin : min fields.length maxFields = fields.length := by omega
  have hmin' : min (fields.length + 1) maxFields = fields.length + 1 := by omega
  have htake : fields.take maxFields = fields := List.take_of_length_le (by omega)
  have htake' : (fields ++ [cur]).take maxFields = fields ++ [cur] :=
    List.take_of_length_le (by rw [List.length_append, List.length_singleton]; omega)
  simp only [List.cons_append, viewOf, List.length_append, List.length_singleton, hmin, hmin',
    htake, htake']

theorem viewOf_concat_full (init : List (List UInt8)) (hinit : init ≠ []) (cur : List UInt8)
    (hfull : ¬ (viewOf init).fieldCount < maxFields) : viewOf (init ++ [cur]) = viewOf init := by
  obtain ⟨address, fields, rfl⟩ := List.exists_cons_of_ne_nil hinit
  have hle : maxFields ≤ fields.length := by
    simp only [viewOf] at hfull
    omega
  have hmin : min fields.length maxFields = maxFields := by omega
  have hmin' : min (fields.length + 1) maxFields = maxFields := by omega
  have htake : (fields ++ [cur]).take maxFields = fields.take maxFields :=
    List.take_append_of_le_length hle
  simp only [List.cons_append, viewOf, List.length_append, List.length_singleton, hmin, hmin',
    htake]

end Avionicpp.Nmea0183
