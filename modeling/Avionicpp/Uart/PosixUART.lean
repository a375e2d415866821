import Avionicpp.Foundations.Ledger
import Avionicpp.Foundations.Mealy
import Avionicpp.Uart.Settings
import Mathlib.Algebra.Ring.Nat

/-! # The POSIX UART (`uart/posixuart.hpp`, `uart/posixuart.cpp`)

The object is modelled together with what the operating system keeps for it: the attributes stored in
the port and the ledger of descriptors. Whether a call of the system succeeds is not known to the
program, so every operation takes the answers that it gets; they may be any at all.
-/
namespace Avionicpp.Uart
open Foundations Termios
set_option autoImplicit false

abbrev Error := ℤ × String

abbrev Result := Except Error Bool

structure PosixUART where
  uarthandle : ℤ
  devicename : String
  baudrate : Speed
  charactersize : UInt8
  parity : TcFlag
  stopbits : UInt8
  timeoutDeciseconds : UInt8
  isopen : Bool
  currenttio : Termios

def Termios.zero : Termios := ⟨0, 0, 0, 0, fun _ => 0, 0, 0⟩

/-- The constructor, with the initializers of the members. -/
def PosixUART.new (devicename : String) : PosixUART where
  uarthandle := -1
  devicename := devicename
  baudrate := B9600
  charactersize := CS8
  parity := 0
  stopbits := 0
  timeoutDeciseconds := 0
  isopen := false
  currenttio := .zero

/-! ## The operating system -/

/-- What the system answers during one operation: the `errno` of each call that fails, and the number
that `::open` would like to give the descriptor. -/
structure Answers where
  descriptor : ℕ
  openErrno : Option ℤ
  tcgetattrErrno : Option ℤ
  cfsetispeedErrno : Option ℤ
  cfsetospeedErrno : Option ℤ
  tcflushErrno : Option ℤ
  tcsetattrErrno : Option ℤ

/-- The attributes stored in the port, and the descriptors that the object opened and closed. -/
structure Os where
  attributes : Termios
  ledger : Ledger ℕ

structure World where
  uart : PosixUART
  os : Os

/-- A descriptor that is not open: the wanted one, if it is not. -/
def freshDescriptor (held : List ℕ) (wanted : ℕ) : ℕ := if wanted ∈ held then held.sum + 1 else wanted

def osOpen (a : Answers) (os : Os) : ℤ × Os :=
  match a.openErrno with
  | some _ => (-1, os)
  | none =>
    let fd := freshDescriptor os.ledger.held a.descriptor
    (fd, { os with ledger := .acquired fd :: os.ledger })

def osClose (fd : ℤ) (os : Os) : Os := { os with ledger := .released fd.toNat :: os.ledger }

/-! ## The operations -/

namespace PosixUART

def nativeHandle (u : PosixUART) : ℤ := u.uarthandle

def isOpen (u : PosixUART) : Bool := u.isopen

def getBaudrate (u : PosixUART) : BaudRate := (baud2enum u.baudrate).getD .b9600

def getCharactersize (u : PosixUART) : CharacterSize := (charsize2enum u.charactersize).getD .cs8

def getParity (u : PosixUART) : Parity := (parity2enum u.parity).getD .none

def getStopbits (u : PosixUART) : StopBits := if u.stopbits = 0 then .sb1 else .sb2

/-- `timeout`, in milliseconds -/
def getTimeout (u : PosixUART) : ℤ := u.timeoutDeciseconds.toNat * 100

end PosixUART

section
variable (strerror : ℤ → String)

/-- `std::unexpected(std::make_pair(errno, std::strerror(errno)))` -/
def failure (errno : ℤ) : Result := .error (errno, strerror errno)

/-- The attributes that `configure` asks for, made from those of the port. -/
def requested (u : PosixUART) (tios : Termios) : Termios :=
  { iflag := IGNPAR ||| INPCK
    oflag := 0
    cflag := u.charactersize.toUInt32 ||| u.parity ||| u.stopbits.toUInt32 ||| CLOCAL ||| CREAD
    lflag := 0
    cc := fun i => if i = VMIN then 0 else if i = VTIME then u.timeoutDeciseconds else tios.cc i
    ispeed := u.baudrate
    ospeed := u.baudrate }

def configure (a : Answers) (w : World) : Result × World :=
  if ¬ w.uart.isopen then (.ok false, w)
  else
    match a.tcgetattrErrno with
    | some errno => (failure strerror errno, w)
    | none =>
      -- the speeds are set in `tios`, which is local
      match a.cfsetispeedErrno.or a.cfsetospeedErrno with
      | some errno => (failure strerror errno, w)
      | none =>
        let tios := requested w.uart w.os.attributes
        match a.tcflushErrno with
        | some errno => (failure strerror errno, w)
        | none =>
          match a.tcsetattrErrno with
          | some errno => (failure strerror errno, w)
          | none =>
            (.ok true,
              { uart := { w.uart with currenttio := tios }, os := { w.os with attributes := tios } })

def close (w : World) : World :=
  if w.uart.isopen then
    { uart := { w.uart with uarthandle := -1, isopen := false }
      os := osClose w.uart.uarthandle w.os }
  else w

/-- The rest of `open`, when `::open` has returned a descriptor. -/
def configureOpened (a : Answers) (w : World) : Result × World :=
  let w := { w with uart := { w.uart with isopen := true } }
  let (result, w) := configure strerror a w
  let isopen := match result with
    | .ok configured => configured
    | .error _ => false
  let w := { w with uart := { w.uart with isopen := isopen } }
  (result, if ¬ w.uart.isopen then close w else w)

def openPort (a : Answers) (w : World) : Result × World :=
  let w := if w.uart.isopen then close w else w
  let (uarthandle, os) := osOpen a w.os
  let w : World := { uart := { w.uart with uarthandle := uarthandle }, os := os }
  if w.uart.uarthandle < 0 then
    -- `errno` is what the failed `::open` left
    (failure strerror (a.openErrno.getD 0), { w with uart := { w.uart with isopen := false } })
  else configureOpened strerror a w

def setBaudrate (baud : BaudRate) (a : Answers) (w : World) : Result × World :=
  match enum2baud baud with
  | some (speed, _) => configure strerror a { w with uart := { w.uart with baudrate := speed } }
  | none => (.error (EINVAL, "Invalid baud rate"), w)

def setCharactersize (charsize : CharacterSize) (a : Answers) (w : World) : Result × World :=
  match enum2charsize charsize with
  | some size => configure strerror a { w with uart := { w.uart with charactersize := size } }
  | none => (.error (EINVAL, "Invalid character size"), w)

def setParity (parity : Parity) (a : Answers) (w : World) : Result × World :=
  match enum2parity parity with
  | some flags => configure strerror a { w with uart := { w.uart with parity := flags } }
  | none => (.error (EINVAL, "Invalid parity"), w)

def setStopbits (stopbits : StopBits) (a : Answers) (w : World) : Result × World :=
  configure strerror a
    { w with uart := { w.uart with stopbits := if stopbits = .sb1 then 0 else CSTOPB } }

/-- `set_timeout`, of milliseconds: at least one tenth of a second when it is not zero -/
def setTimeout (timeout : ℤ) (a : Answers) (w : World) : Result × World :=
  let deciseconds := if timeout ≤ 0 then 0 else max 1 (min 255 (timeout / 100))
  configure strerror a
    { w with uart := { w.uart with timeoutDeciseconds := UInt8.ofNat deciseconds.toNat } }

/-! ## Runs -/

inductive Call where
  | openPort
  | close
  | setBaudrate (baud : BaudRate)
  | setCharactersize (charsize : CharacterSize)
  | setParity (parity : Parity)
  | setStopbits (stopbits : StopBits)
  | setTimeout (timeout : ℤ)
  deriving DecidableEq, Repr

def perform (w : World) (call : Call) (a : Answers) : World × Option Result :=
  let returning (r : Result × World) : World × Option Result := (r.2, some r.1)
  match call with
  | .openPort => returning (openPort strerror a w)
  | .close => (close w, none)
  | .setBaudrate baud => returning (setBaudrate strerror baud a w)
  | .setCharactersize charsize => returning (setCharactersize strerror charsize a w)
  | .setParity parity => returning (setParity strerror parity a w)
  | .setStopbits stopbits => returning (setStopbits strerror stopbits a w)
  | .setTimeout timeout => returning (setTimeout strerror timeout a w)

/-- A user's session: each call comes with the answers that the system gives during it. -/
def uartMachine : Mealy World (Call × Answers) (Option Result) where
  step w c := perform strerror w c.1 c.2

def destroy (w : World) : World := close w

/-- A new object, and a port with any attributes. -/
def World.new (devicename : String) (attributes : Termios) : World where
  uart := .new devicename
  os := { attributes := attributes, ledger := [] }

end

end Avionicpp.Uart
