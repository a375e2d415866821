import Avionicpp.Foundations.Ledger
import Avionicpp.Foundations.Mealy
import Avionicpp.Uart.Settings
import Mathlib.Algebra.Ring.Nat
import Mathlib.Data.Rat.Floor

/-! # The Windows UART (`uart/win32uart.hpp`, `uart/win32uart.cpp`)

As for the POSIX object, the system's answers are inputs. The system keeps the handles that are open;
the ledger notes what `CreateFile` returned and what was passed to `CloseHandle`, whether or not that
succeeded.
-/
namespace Avionicpp.Uart.Win32
open Foundations
set_option autoImplicit false

abbrev Error := ℤ × String

abbrev Result := Except Error Bool

/-! ## `windows.h` -/

abbrev DWORD := UInt32

abbrev WORD := UInt16

abbrev BYTE := UInt8

def DATABITS_5 : WORD := 0x0001
def DATABITS_6 : WORD := 0x0002
def DATABITS_7 : WORD := 0x0004
def DATABITS_8 : WORD := 0x0008
def DATABITS_16 : WORD := 0x0010
def NOPARITY : BYTE := 0
def ODDPARITY : BYTE := 1
def EVENPARITY : BYTE := 2
def MARKPARITY : BYTE := 3
def SPACEPARITY : BYTE := 4
def ONESTOPBIT : BYTE := 0
def ONE5STOPBITS : BYTE := 1
def TWOSTOPBITS : BYTE := 2
def INVALID_HANDLE_VALUE : ℤ := -1

/-- The members of `DCB` that the object sets; the others stay as `GetCommState` delivers them. -/
structure DCB where
  baudRate : DWORD
  byteSize : BYTE
  parity : BYTE
  stopBits : BYTE
  others : List UInt8

structure COMMTIMEOUTS where
  readIntervalTimeout : DWORD
  readTotalTimeoutMultiplier : DWORD
  readTotalTimeoutConstant : DWORD
  writeTotalTimeoutMultiplier : DWORD
  writeTotalTimeoutConstant : DWORD

/-! ## The tables

A rate's macro is the rate itself. -/

def baudTable : List (BaudRate × DWORD) :=
  [(.b110, 110), (.b300, 300), (.b600, 600), (.b1200, 1200), (.b2400, 2400), (.b4800, 4800),
    (.b9600, 9600), (.b14400, 14400), (.b19200, 19200), (.b38400, 38400), (.b56000, 56000),
    (.b57600, 57600), (.b115200, 115200), (.b128000, 128000), (.b256000, 256000)]

def charsizeTable : List (CharacterSize × WORD) :=
  [(.cs5, DATABITS_5), (.cs6, DATABITS_6), (.cs7, DATABITS_7), (.cs8, DATABITS_8),
    (.cs16, DATABITS_16)]

def parityTable : List (Parity × BYTE) :=
  [(.none, NOPARITY), (.even, EVENPARITY), (.odd, ODDPARITY), (.mark, MARKPARITY),
    (.space, SPACEPARITY)]

def enum2baud (baud : BaudRate) : Option DWORD := baudTable.lookup baud

def baud2enum (rate : DWORD) : Option BaudRate := (baudTable.map Prod.swap).lookup rate

def enum2charsize (charsize : CharacterSize) : Option WORD := charsizeTable.lookup charsize

def charsize2enum (size : WORD) : Option CharacterSize := (charsizeTable.map Prod.swap).lookup size

def enum2parity (parity : Parity) : Option BYTE := parityTable.lookup parity

def parity2enum (flags : BYTE) : Option Parity := (parityTable.map Prod.swap).lookup flags

theorem baud2enum_enum2baud {baud : BaudRate} {rate : DWORD} (h : enum2baud baud = some rate) :
    baud2enum rate = some baud := by
  cases baud <;> cases h <;> rfl

theorem charsize2enum_enum2charsize {charsize : CharacterSize} {size : WORD}
    (h : enum2charsize charsize = some size) : charsize2enum size = some charsize := by
  cases charsize <;> cases h <;> rfl

theorem parity2enum_enum2parity {parity : Parity} {flags : BYTE}
    (h : enum2parity parity = some flags) : parity2enum flags = some parity := by
  cases parity <;> cases h <;> rfl

/-! ## The object -/

structure Win32UART where
  uarthandle : ℤ
  devicename : String
  baudrate : DWORD
  charactersize : WORD
  parity : BYTE
  stopbits : BYTE
  timeout : ℤ
  isopen : Bool
  currentdcb : DCB

def DCB.zero : DCB := ⟨0, 0, 0, 0, []⟩

/-- The constructor, with the initializers of the members. -/
def Win32UART.new (devicename : String) : Win32UART where
  uarthandle := 0
  devicename := devicename
  baudrate := 9600
  charactersize := DATABITS_8
  parity := NOPARITY
  stopbits := ONESTOPBIT
  timeout := 0
  isopen := false
  currentdcb := .zero

namespace Win32UART

def nativeHandle (u : Win32UART) : ℤ := u.uarthandle

def isOpen (u : Win32UART) : Bool := u.isopen

def getBaudrate (u : Win32UART) : BaudRate := (baud2enum u.baudrate).getD .b9600

def getCharactersize (u : Win32UART) : CharacterSize := (charsize2enum u.charactersize).getD .cs8

def getParity (u : Win32UART) : Parity := (parity2enum u.parity).getD .none

def getStopbits (u : Win32UART) : StopBits := if u.stopbits = ONESTOPBIT then .sb1 else .sb2

def getTimeout (u : Win32UART) : ℤ := u.timeout

end Win32UART

/-! ## The operating system -/

/-- What the system answers during one operation: the error code of each call that fails, and the
value that `CreateFile` would like to give the handle. -/
structure Answers where
  handle : ℕ
  createFileError : Option DWORD
  setCommTimeoutsError : Option DWORD
  getCommStateError : Option DWORD
  setCommStateError : Option DWORD
  closeHandleFails : Bool

structure Os where
  handles : List ℕ
  timeouts : COMMTIMEOUTS
  state : DCB
  ledger : Ledger ℕ

structure World where
  uart : Win32UART
  os : Os

/-- A handle that is not open, and not null: the wanted one, if it is one. -/
def freshHandle (handles : List ℕ) (wanted : ℕ) : ℕ :=
  if wanted ∈ handles ∨ wanted = 0 then handles.sum + 1 else wanted

def osCreateFile (a : Answers) (os : Os) : ℤ × Os :=
  match a.createFileError with
  | some _ => (INVALID_HANDLE_VALUE, os)
  | none =>
    let handle := freshHandle os.handles a.handle
    (handle, { os with handles := handle :: os.handles, ledger := .acquired handle :: os.ledger })

def osCloseHandle (a : Answers) (handle : ℤ) (os : Os) : Os :=
  { os with
    handles := if a.closeHandleFails then os.handles else os.handles.erase handle.toNat
    ledger := .released handle.toNat :: os.ledger }

/-! ## The operations -/

section
variable (win32error2string : DWORD → String)

/-- `std::unexpected(std::make_pair(static_cast<int>(err), win32error2string(err)))` -/
def failure (err : DWORD) : Result := .error (err.toInt32.toInt, win32error2string err)

def EINVAL : ℤ := Uart.EINVAL

def configure (a : Answers) (w : World) : Result × World :=
  if ¬ w.uart.isopen then (.ok false, w)
  else
    match a.getCommStateError with
    | some err => (failure win32error2string err, w)
    | none =>
      let newdcb : DCB :=
        { w.os.state with
          baudRate := w.uart.baudrate
          byteSize := w.uart.charactersize.toUInt8
          parity := w.uart.parity
          stopBits := w.uart.stopbits }
      match a.setCommStateError with
      | some err => (failure win32error2string err, w)
      | none =>
        (.ok true,
          { uart := { w.uart with currentdcb := newdcb }, os := { w.os with state := newdcb } })

/-- `close` leaves the flag and the handle as they are. -/
def close (a : Answers) (w : World) : World :=
  if w.uart.isopen then { w with os := osCloseHandle a w.uart.uarthandle w.os } else w

/-- The bit time, computed from the lowest rate if none is set; the doubles are exact here. -/
def bittimeMs (baudrate : DWORD) : ℚ :=
  if 0 < baudrate then (1 / 1000 / (baudrate.toNat : ℚ)) * (11 / 10) else (1 / 1000 / 110) * (11 / 10)

def commTimeouts (baudrate : DWORD) (timeoutMs : ℤ) : COMMTIMEOUTS :=
  let timeoutmultiplier := max 1 (UInt32.ofNat ⌊bittimeMs baudrate⌋.toNat)
  { readIntervalTimeout := timeoutmultiplier
    readTotalTimeoutMultiplier := timeoutmultiplier
    readTotalTimeoutConstant := UInt32.ofInt timeoutMs
    writeTotalTimeoutMultiplier := timeoutmultiplier
    writeTotalTimeoutConstant := UInt32.ofInt timeoutMs }

def setTimeout (timeoutMs : ℤ) (a : Answers) (w : World) : Result × World :=
  let stored (w : World) : World := { w with uart := { w.uart with timeout := timeoutMs } }
  if w.uart.isopen then
    match a.setCommTimeoutsError with
    | some err => (failure win32error2string err, w)
    | none =>
      (.ok true,
        stored { w with os := { w.os with timeouts := commTimeouts w.uart.baudrate timeoutMs } })
  else (.ok true, stored w)

/-- The rest of `open`, when `CreateFile` has returned a handle. -/
def configureOpened (a : Answers) (w : World) : Result × World :=
  let w := { w with uart := { w.uart with isopen := true } }
  let (timeoutSet, w) := setTimeout win32error2string w.uart.timeout a w
  match timeoutSet with
  | .error _ => (.ok false, w)
  | .ok _ =>
    let (result, w) := configure win32error2string a w
    let isopen := match result with
      | .ok configured => configured
      | .error _ => false
    let w := { w with uart := { w.uart with isopen := isopen } }
    (result, if ¬ w.uart.isopen then close a w else w)

def openPort (a : Answers) (w : World) : Result × World :=
  let w := if w.uart.isopen then close a w else w
  let (uarthandle, os) := osCreateFile a w.os
  let w : World := { uart := { w.uart with uarthandle := uarthandle }, os := os }
  if w.uart.uarthandle = INVALID_HANDLE_VALUE then
    -- the code that the failed `CreateFile` left
    (failure win32error2string (a.createFileError.getD 0),
      { w with uart := { w.uart with isopen := false } })
  else configureOpened win32error2string a w

def setBaudrate (baud : BaudRate) (a : Answers) (w : World) : Result × World :=
  match enum2baud baud with
  | some rate =>
    configure win32error2string a { w with uart := { w.uart with baudrate := rate } }
  | none => (.error (EINVAL, "Invalid baud rate"), w)

def setCharactersize (charsize : CharacterSize) (a : Answers) (w : World) : Result × World :=
  match enum2charsize charsize with
  | some size =>
    configure win32error2string a { w with uart := { w.uart with charactersize := size } }
  | none => (.error (EINVAL, "Invalid character size"), w)

def setParity (parity : Parity) (a : Answers) (w : World) : Result × World :=
  match enum2parity parity with
  | some flags =>
    configure win32error2string a { w with uart := { w.uart with parity := flags } }
  | none => (.error (EINVAL, "Invalid parity"), w)

def setStopbits (stopbits : StopBits) (a : Answers) (w : World) : Result × World :=
  let value := match stopbits with
    | .sb1_5 => ONE5STOPBITS
    | .sb2 => TWOSTOPBITS
    | _ => ONESTOPBIT
  configure win32error2string a { w with uart := { w.uart with stopbits := value } }

/-! ## Runs -/

inductive Call where
  | openPort
  | close
  | setBaudrate (baud : BaudRate)
  | setCharactersize (charsize : CharacterSize)
  | setParity (parity : Parity)
  | setStopbits (stopbits : StopBits)
  | setTimeout (timeout : ℤ)
  deriving DecidableEq, Repr

def perform (w : World) (call : Call) (a : Answers) : World × Option Result :=
  let returning (r : Result × World) : World × Option Result := (r.2, some r.1)
  match call with
  | .openPort => returning (openPort win32error2string a w)
  | .close => (close a w, none)
  | .setBaudrate baud => returning (setBaudrate win32error2string baud a w)
  | .setCharactersize charsize => returning (setCharactersize win32error2string charsize a w)
  | .setParity parity => returning (setParity win32error2string parity a w)
  | .setStopbits stopbits => returning (setStopbits win32error2string stopbits a w)
  | .setTimeout timeout => returning (setTimeout win32error2string timeout a w)

/-- A user's session: each call comes with the answers that the system gives during it. -/
def uartMachine : Mealy World (Call × Answers) (Option Result) where
  step w c := perform win32error2string w c.1 c.2

/-- The destructor. -/
def destroy (a : Answers) (w : World) : World := close a w

/-- A new object, and a port with any timeouts and any state. -/
def World.new (devicename : String) (timeouts : COMMTIMEOUTS) (state : DCB) : World where
  uart := .new devicename
  os := { handles := [], timeouts := timeouts, state := state, ledger := [] }

end

end Avionicpp.Uart.Win32
