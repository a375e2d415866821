import Avionicpp.Coroutine.Handshake
import Avionicpp.Mavlink.Types

/-! # The MAVLink framer (`mavlink/framer.hpp`)

The body of `create_framer`, cut at its fourteen `co_await`s. Only the payload loop and the signature
loop compare the write index with the size of the span; every other store is made as it stands.
-/
namespace Avionicpp.Mavlink
open Foundations Coroutine
set_option autoImplicit false

abbrev ErrorType := MavlinkError × String

abbrev ParseResult := Except ErrorType MessageView

def bufferOverrun : ErrorType := (.bufferOverrun, "Buffer overrun")

/-- The `co_await`s of the body. -/
inductive Site where
  | stx
  | len
  | incFlags
  | cmpFlags
  | seq
  | sys
  | comp
  | msgid
  | idMid
  | idHi
  | payload
  | crc1
  | crc2
  | signature
  deriving DecidableEq, Repr

/-- The variables of the coroutine at a `co_await`, and the span behind `active_buffer_ptr`; `i`
counts the turns of the loop that is running. -/
structure State where
  site : Site
  buffer : Region UInt8
  view : MessageView
  magic : UInt8
  idx : ℕ
  len : UInt8
  i : ℕ

/-- `(*active_buffer_ptr)[idx++] = c` -/
def put (s : State) (c : UInt8) : State :=
  { s with buffer := s.buffer.store s.idx c, idx := s.idx + 1 }

def nextMessage (s : State) : Code State ParseResult :=
  .coAwait { s with site := .stx, view := .empty, magic := 0, idx := 0, len := 0, i := 0 }

def payloadLoop (s : State) : Code State ParseResult :=
  if s.i < s.len.toNat then .coAwait { s with site := .payload }
  else .coAwait { s with site := .crc1, i := 0 }

/-- The header is complete: the payload starts at the current index. -/
def startPayload (s : State) : Code State ParseResult :=
  payloadLoop { s with view := { s.view with payload := ⟨s.idx, s.len.toNat⟩ } }

def signatureLoop (s : State) : Code State ParseResult :=
  if s.i < 13 then .coAwait { s with site := .signature }
  else .coYield (.ok s.view) (nextMessage s)

def checkSignature (s : State) : Code State ParseResult :=
  if s.magic = 0xFD ∧ s.buffer.cell 2 &&& 0x01 ≠ 0 then signatureLoop s
  else .coYield (.ok s.view) (nextMessage s)

/-- What the body does with a byte, by the `co_await` that returned it. -/
def resumeWith (s : State) (c : UInt8) : Code State ParseResult :=
  match s.site with
  | .stx =>
    if c ≠ 0xFD ∧ c ≠ 0xFE then .coAwait { s with magic := c }
    else .coAwait { put { s with magic := c } c with site := .len }
  | .len =>
    if s.magic = 0xFD then .coAwait { put { s with len := c } c with site := .incFlags }
    else .coAwait { put { s with len := c } c with site := .seq }
  | .incFlags => .coAwait { put s c with site := .cmpFlags }
  | .cmpFlags => .coAwait { put s c with site := .seq }
  | .seq => .coAwait { put { s with view := { s.view with seq := c } } c with site := .sys }
  | .sys => .coAwait { put { s with view := { s.view with sysid := c } } c with site := .comp }
  | .comp => .coAwait { put { s with view := { s.view with compid := c } } c with site := .msgid }
  | .msgid =>
    let id := c.toUInt32 &&& 0xFF
    let t := put { s with view := { s.view with msgid := id } } id.toUInt8
    if s.magic = 0xFD then .coAwait { t with site := .idMid } else startPayload t
  | .idMid =>
    let id := s.view.msgid ||| (c.toUInt32 <<< 8)
    .coAwait { put { s with view := { s.view with msgid := id } } c with site := .idHi }
  | .idHi =>
    let id := s.view.msgid ||| (c.toUInt32 <<< 16)
    startPayload (put { s with view := { s.view with msgid := id } } c)
  | .payload =>
    if s.buffer.size ≤ s.idx then .coYield (.error bufferOverrun) (nextMessage s)
    else payloadLoop { put s c with i := s.i + 1 }
  | .crc1 => .coAwait { put s c with site := .crc2 }
  | .crc2 => checkSignature (put s c)
  | .signature =>
    if s.buffer.size ≤ s.idx then .coYield (.error bufferOverrun) (nextMessage s)
    else signatureLoop { put s c with i := s.i + 1 }

/-- The variables when the body reaches its first `co_await`; nothing is stored yet. -/
def State.initial (buffer : Region UInt8) : State where
  site := .stx
  buffer := { buffer with stores := [] }
  view := .empty
  magic := 0
  idx := 0
  len := 0
  i := 0

def body (buffer : Region UInt8) : Body State UInt8 ParseResult where
  start := .coAwait (.initial buffer)
  resume := resumeWith

abbrev Framer := Coroutine.Framer State UInt8 ParseResult

def createFramer (buffer : Region UInt8) : Framer := create (body buffer)

theorem payloadLoop_single (s : State) : (payloadLoop s).Single := by
  unfold payloadLoop
  split <;> trivial

theorem signatureLoop_single (s : State) : (signatureLoop s).Single := by
  unfold signatureLoop
  split <;> trivial

theorem checkSignature_single (s : State) : (checkSignature s).Single := by
  unfold checkSignature
  split
  · exact signatureLoop_single s
  · trivial

/-- Both error exits and the view are followed by the `co_await` of the start byte. -/
theorem body_alternates (buffer : Region UInt8) : (body buffer).Alternates := by
  refine ⟨⟨_, rfl⟩, fun s c => ?_⟩
  show (resumeWith s c).Single
  unfold resumeWith
  cases s.site with
  | stx => dsimp only; split <;> trivial
  | len => dsimp only; split <;> trivial
  | msgid =>
    dsimp only
    split
    · trivial
    · exact payloadLoop_single _
  | idHi => exact payloadLoop_single _
  | payload =>
    dsimp only
    split
    · trivial
    · exact payloadLoop_single _
  | crc2 => exact checkSignature_single _
  | signature =>
    dsimp only
    split
    · trivial
    · exact signatureLoop_single _
  | incFlags | cmpFlags | seq | sys | comp | idMid | crc1 => trivial

/-! ## What the caller sees -/

def readResult (f : Framer) (o : Option ParseResult) : Option (Except ErrorType FrameView) :=
  o.map fun r => r.map fun view => view.read f.locals.buffer

/-- Pushing bytes into a framer over the given span, each result read before the next push. -/
def framerMachine (buffer : Region UInt8) : Mealy Framer UInt8 (Option (Except ErrorType FrameView)) :=
  (machine (body buffer)).observe readResult

def framerAfter (buffer : Region UInt8) (u : List UInt8) : Framer :=
  (framerMachine buffer).run (createFramer buffer) u

/-- The results of pushing the bytes `v` after the bytes `u`. -/
def resultsAfter (buffer : Region UInt8) (u v : List UInt8) :
    List (Option (Except ErrorType FrameView)) :=
  (framerMachine buffer).outputs (framerAfter buffer u) v

/-- What `push_byte` returns when `c` is pushed after `u`, with the payload span as it is. -/
def yieldedAfter (buffer : Region UInt8) (u : List UInt8) (c : UInt8) : Option ParseResult :=
  (pushByte (body buffer) (framerAfter buffer u) c).2.1

def resultAfter (buffer : Region UInt8) (u : List UInt8) (c : UInt8) :
    Option (Except ErrorType FrameView) :=
  readResult (framerAfter buffer (u ++ [c])) (yieldedAfter buffer u c)

end Avionicpp.Mavlink
