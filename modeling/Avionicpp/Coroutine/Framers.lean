import Avionicpp.Mavlink.Framer
import Avionicpp.Nmea0183.Framer

/-! # The hand-shake of both framers

The flag is shared by the yields and the awaits of a body, so a body that yielded twice in a row would
lose a byte. Neither does: every exit with a value, by `goto`, by `continue` or at the end of the
loop, comes to a `co_await` next.
-/
namespace Avionicpp.Coroutine
open Foundations
set_option autoImplicit false

/-- **No byte is lost and none is read twice**, in either framer and in every reachable state. -/
theorem framers_hand_over (nmeaBuffer mavlinkBuffer : Region UInt8) :
    HandsOver (Nmea0183.body nmeaBuffer) ∧ HandsOver (Mavlink.body mavlinkBuffer) := by
  have hnmea := Nmea0183.body_alternates nmeaBuffer
  have hmavlink := Mavlink.body_alternates mavlinkBuffer
  exact ⟨hnmea.handsOver, hmavlink.handsOver⟩

end Avionicpp.Coroutine
