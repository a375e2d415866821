import Avionicpp.Foundations.Region

/-! # MAVLink types (`mavlink/types.hpp`)

A payload span is a start and a length in the buffer the framer works on. A view is read with that
buffer at hand; `FrameView` is what such a reading shows.
-/
namespace Avionicpp.Mavlink
open Foundations
set_option autoImplicit false

inductive MavlinkError where
  | none
  | parseError
  | bufferOverrun
  | invalidMagic
  | invalidChecksum
  | invalidSignature
  | protocolViolation
  deriving DecidableEq, Repr

/-- `std::span<const std::uint8_t>` into the working buffer. -/
structure Span where
  start : ℕ
  length : ℕ
  deriving DecidableEq, Repr

structure MessageView where
  msgid : UInt32
  sysid : UInt8
  compid : UInt8
  seq : UInt8
  payload : Span
  deriving DecidableEq, Repr

def MessageView.empty : MessageView := ⟨0, 0, 0, 0, ⟨0, 0⟩⟩

structure FrameView where
  msgid : UInt32
  sysid : UInt8
  compid : UInt8
  seq : UInt8
  payload : List UInt8
  deriving DecidableEq, Repr

def MessageView.read (view : MessageView) (buffer : Region UInt8) : FrameView :=
  ⟨view.msgid, view.sysid, view.compid, view.seq, buffer.read view.payload.start view.payload.length⟩

end Avionicpp.Mavlink
