import Avionicpp.Coroutine.Handshake
import Avionicpp.Nmea0183.Types

/-! # The NMEA framer (`nmea0183/framer.hpp`)

The body of `create_framer`, cut at its six `co_await`s. The state holds the coroutine's variables
and the working buffer; `c` lives from a `co_await` to the next one only and is the argument.
-/
namespace Avionicpp.Nmea0183
open Foundations Coroutine
set_option autoImplicit false

inductive ErrorCode where
  | bufferOverrun
  | protocolViolation
  | invalidChecksumChar
  | checksumMismatch
  deriving DecidableEq, Repr

def ErrorCode.toInt : ErrorCode → ℤ
  | .bufferOverrun => 1
  | .protocolViolation => 2
  | .invalidChecksumChar => 3
  | .checksumMismatch => 4

def msgOverrun : String := "Buffer overrun: payload larger than provided span"
def msgProtocol : String := "Protocol violation: unexpected newline or >80 char payload"
def msgBadCrlf : String := "Protocol violation: missing CRLF"
def msgInvChar : String := "Invalid hex character in checksum"
def msgMismatch : String := "Checksum mismatch"

abbrev ErrorType := ℤ × String

abbrev ParseResult := Except ErrorType MessageView

/-- The `co_await`s of the body. -/
inductive Site where
  /-- state 1: search for the start delimiter -/
  | search
  /-- state 2: read the payload -/
  | payload
  /-- state 3: the two checksum characters -/
  | hex1
  | hex2
  /-- state 4: the end of the line -/
  | cr
  | lf
  deriving DecidableEq, Repr

/-- The variables of the coroutine at a `co_await`, and the span behind `active_buffer_ptr`. -/
structure State where
  site : Site
  buffer : Region UInt8
  bufferIdx : ℕ
  calculatedChecksum : UInt8
  view : MessageView
  fieldStartIdx : ℕ
  isFirstField : Bool
  hex1 : UInt8
  hex2 : UInt8

/-- The next turn of the outer loop. `c`, `hex1` and `hex2` start afresh; the other variables keep
their values until the next start delimiter. -/
def nextSentence (s : State) : Code State ParseResult :=
  .coAwait { s with site := .search, hex1 := 0, hex2 := 0 }

/-- The label `next_message`: it stands behind the payload loop, so the code goes on with state 3. -/
def nextMessage (s : State) : Code State ParseResult := .coAwait { s with site := .hex1 }

def startSentence (s : State) : State :=
  { s with
    site := .payload
    bufferIdx := 0
    calculatedChecksum := 0
    view := .empty
    fieldStartIdx := 0
    isFirstField := true }

def cutField (s : State) : State :=
  let currentField : StringView := ⟨s.fieldStartIdx, sizeSub s.bufferIdx s.fieldStartIdx⟩
  let view :=
    if s.isFirstField then
      if 5 ≤ currentField.length then
        { s.view with
          talkerId := currentField.substr 0 2
          messageType := currentField.substr 2 3 }
      else s.view
    else if s.view.fieldCount < maxFields then
      { s.view with
        fields := s.view.fields.store s.view.fieldCount currentField
        fieldCount := s.view.fieldCount + 1 }
    else s.view
  { s with view := view, isFirstField := false, fieldStartIdx := s.bufferIdx + 1 }

/-- The last two statements of the payload loop. -/
def stored (s : State) (c : UInt8) : State :=
  { s with
    site := .payload
    calculatedChecksum := s.calculatedChecksum ^^^ c
    buffer := s.buffer.store s.bufferIdx c
    bufferIdx := s.bufferIdx + 1 }

def storeChar (s : State) (c : UInt8) : Code State ParseResult :=
  if s.buffer.size ≤ s.bufferIdx then
    .coYield (.error (ErrorCode.bufferOverrun.toInt, msgOverrun)) (nextMessage s)
  else .coAwait (stored s c)

/-- State 5: validate the checksum. -/
def validateChecksum (s : State) : Code State ParseResult :=
  let r := fromChars 16 0 255 0 [s.hex1, s.hex2]
  if r.ec ≠ .ok ∨ r.ptr ≠ 2 then
    .coYield (.error (ErrorCode.invalidChecksumChar.toInt, msgInvChar)) (nextSentence s)
  else if UInt8.ofNat r.value.toNat ≠ s.calculatedChecksum then
    .coYield (.error (ErrorCode.checksumMismatch.toInt, msgMismatch)) (nextSentence s)
  else .coYield (.ok s.view) (nextSentence s)

/-- What the body does with a byte, by the `co_await` that returned it. -/
def resumeWith (s : State) (c : UInt8) : Code State ParseResult :=
  match s.site with
  | .search =>
    if c ≠ ascii '$' ∧ c ≠ ascii '!' then .coAwait s else .coAwait (startSentence s)
  | .payload =>
    if c = ascii '*' ∨ c = ascii '\n' ∨ c = ascii ',' then
      if c = ascii '*' then .coAwait { cutField s with site := .hex1 }
      else if c = ascii '\n' then
        .coYield (.error (ErrorCode.protocolViolation.toInt, msgProtocol)) (nextMessage (cutField s))
      else storeChar (cutField s) c
    else storeChar s c
  | .hex1 => .coAwait { s with site := .hex2, hex1 := c }
  | .hex2 => .coAwait { s with site := .cr, hex2 := c }
  | .cr =>
    if c ≠ ascii '\r' then
      .coYield (.error (ErrorCode.protocolViolation.toInt, msgBadCrlf)) (nextSentence s)
    else .coAwait { s with site := .lf }
  | .lf =>
    if c ≠ ascii '\n' then
      .coYield (.error (ErrorCode.protocolViolation.toInt, msgBadCrlf)) (nextSentence s)
    else validateChecksum s

/-- The variables when the body reaches its first `co_await`. -/
def State.initial (buffer : Region UInt8) : State where
  site := .search
  buffer := buffer
  bufferIdx := 0
  calculatedChecksum := 0
  view := .empty
  fieldStartIdx := 0
  isFirstField := true
  hex1 := 0
  hex2 := 0

def body (buffer : Region UInt8) : Body State UInt8 ParseResult where
  start := .coAwait (.initial buffer)
  resume := resumeWith

abbrev Framer := Coroutine.Framer State UInt8 ParseResult

def createFramer (buffer : Region UInt8) : Framer := create (body buffer)

/-! ## Alternation -/

theorem nextSentence_single (s : State) (o : ParseResult) :
    (Code.coYield o (nextSentence s)).Single := trivial

theorem storeChar_single (s : State) (c : UInt8) : (storeChar s c).Single := by
  unfold storeChar
  split <;> trivial

theorem validateChecksum_single (s : State) : (validateChecksum s).Single := by
  unfold validateChecksum
  dsimp only
  split_ifs <;> exact nextSentence_single _ _

/-- Every `co_yield` of the body is followed by a `co_await`: on the `goto` exits by that of the
first checksum character, on the `continue` exits and after a view by that of the search. -/
theorem body_alternates (buffer : Region UInt8) : (body buffer).Alternates := by
  refine ⟨⟨_, rfl⟩, fun s c => ?_⟩
  show (resumeWith s c).Single
  unfold resumeWith
  cases s.site with
  | search => dsimp only; split_ifs <;> trivial
  | payload =>
    dsimp only
    split_ifs
    · trivial
    · trivial
    · exact storeChar_single _ _
    · exact storeChar_single _ _
  | hex1 => trivial
  | hex2 => trivial
  | cr => dsimp only; split_ifs <;> trivial
  | lf =>
    dsimp only
    split_ifs
    · trivial
    · exact validateChecksum_single s

/-! ## What the caller sees -/

def readResult (f : Framer) (o : Option ParseResult) : Option (Except ErrorType TextView) :=
  o.map fun r => r.map fun view => view.text f.locals.buffer

/-- Pushing bytes into a framer over the given span, each result read before the next push. -/
def framerMachine (buffer : Region UInt8) : Mealy Framer UInt8 (Option (Except ErrorType TextView)) :=
  (machine (body buffer)).observe readResult

def framerAfter (buffer : Region UInt8) (u : List UInt8) : Framer :=
  (framerMachine buffer).run (createFramer buffer) u

def resultsAfter (buffer : Region UInt8) (u v : List UInt8) :
    List (Option (Except ErrorType TextView)) :=
  (framerMachine buffer).outputs (framerAfter buffer u) v

/-- What `push_byte` returns when `c` is pushed after `u`, with the string views as they are. -/
def yieldedAfter (buffer : Region UInt8) (u : List UInt8) (c : UInt8) : Option ParseResult :=
  (pushByte (body buffer) (framerAfter buffer u) c).2.1

def resultAfter (buffer : Region UInt8) (u : List UInt8) (c : UInt8) :
    Option (Except ErrorType TextView) :=
  ((framerMachine buffer).step (framerAfter buffer u) c).2

theorem resultAfter_read (buffer : Region UInt8) (u : List UInt8) (c : UInt8) :
    resultAfter buffer u c =
      readResult (framerAfter buffer (u ++ [c])) (yieldedAfter buffer u c) := by
  rw [framerAfter, Mealy.run_concat]
  rfl

end Avionicpp.Nmea0183
