import Mathlib.Data.Int.Notation
import Mathlib.Data.Nat.Notation

/-! # UART settings (`uart/settings.hpp`) and their `termios` values

The tables of `posixuart.cpp` between the two. Each enumeration also has the values that no enumerator
names: a scoped enumeration takes every value of its underlying type.
-/
namespace Avionicpp.Uart
set_option autoImplicit false

inductive BaudRate where
  | b0
  | b50
  | b75
  | b110
  | b134
  | b150
  | b200
  | b300
  | b600
  | b1200
  | b1800
  | b2400
  | b4800
  | b9600
  | b14400
  | b19200
  | b38400
  | b56000
  | b57600
  | b115200
  | b128000
  | b230400
  | b256000
  | b460800
  | b921600
  | b1000000
  | b2000000
  | b3000000
  | b4000000
  | other (value : ℤ)
  deriving DecidableEq, Repr

inductive CharacterSize where
  | cs5
  | cs6
  | cs7
  | cs8
  | cs16
  | other (value : ℤ)
  deriving DecidableEq, Repr

inductive Parity where
  | none
  | even
  | odd
  | mark
  | space
  | other (value : ℤ)
  deriving DecidableEq, Repr

inductive StopBits where
  | sb1
  | sb1_5
  | sb2
  | other (value : ℤ)
  deriving DecidableEq, Repr

/-! ## `termios.h` -/

abbrev Speed := UInt32

abbrev TcFlag := UInt32

namespace Termios

def B0 : Speed := 0
def B50 : Speed := 1
def B75 : Speed := 2
def B110 : Speed := 3
def B134 : Speed := 4
def B150 : Speed := 5
def B200 : Speed := 6
def B300 : Speed := 7
def B600 : Speed := 8
def B1200 : Speed := 9
def B1800 : Speed := 10
def B2400 : Speed := 11
def B4800 : Speed := 12
def B9600 : Speed := 13
def B19200 : Speed := 14
def B38400 : Speed := 15
def B57600 : Speed := 4097
def B115200 : Speed := 4098
def B230400 : Speed := 4099
def B460800 : Speed := 4100
def B921600 : Speed := 4103
def B1000000 : Speed := 4104
def B2000000 : Speed := 4107
def B3000000 : Speed := 4109
def B4000000 : Speed := 4111

def CS5 : UInt8 := 0x00
def CS6 : UInt8 := 0x10
def CS7 : UInt8 := 0x20
def CS8 : UInt8 := 0x30
def CSTOPB : UInt8 := 0x40
def CREAD : TcFlag := 0x80
def PARENB : TcFlag := 0x100
def PARODD : TcFlag := 0x200
def CLOCAL : TcFlag := 0x800
def IGNPAR : TcFlag := 0x4
def INPCK : TcFlag := 0x10
def VTIME : ℕ := 5
def VMIN : ℕ := 6

end Termios

structure Termios where
  iflag : TcFlag
  oflag : TcFlag
  cflag : TcFlag
  lflag : TcFlag
  cc : ℕ → UInt8
  ispeed : Speed
  ospeed : Speed

def EINVAL : ℤ := 22

/-! ## The tables -/

open Termios

/-- `enum2baud_`, with the rate that nothing reads. -/
def enum2baud : BaudRate → Option (Speed × ℤ)
  | .b0 => some (B0, 0)
  | .b50 => some (B50, 50)
  | .b75 => some (B75, 75)
  | .b110 => some (B110, 110)
  | .b134 => some (B134, 134)
  | .b150 => some (B150, 150)
  | .b200 => some (B200, 200)
  | .b300 => some (B300, 300)
  | .b600 => some (B600, 600)
  | .b1200 => some (B1200, 1200)
  | .b1800 => some (B1800, 1800)
  | .b2400 => some (B2400, 2400)
  | .b4800 => some (B4800, 4800)
  | .b9600 => some (B9600, 9600)
  | .b19200 => some (B19200, 19200)
  | .b38400 => some (B38400, 38400)
  | .b57600 => some (B57600, 57600)
  | .b115200 => some (B115200, 115200)
  | .b230400 => some (B230400, 230400)
  | .b460800 => some (B460800, 460800)
  | .b921600 => some (B921600, 921600)
  | .b1000000 => some (B1000000, 1000000)
  | .b2000000 => some (B2000000, 2000000)
  | .b3000000 => some (B3000000, 3000000)
  | .b4000000 => some (B4000000, 4000000)
  | .b14400 | .b56000 | .b128000 | .b256000 | .other _ => none

def enum2charsize : CharacterSize → Option UInt8
  | .cs5 => some CS5
  | .cs6 => some CS6
  | .cs7 => some CS7
  | .cs8 => some CS8
  | .cs16 | .other _ => none

def enum2parity : Parity → Option TcFlag
  | .none => some 0
  | .even => some PARENB
  | .odd => some (PARENB ||| PARODD)
  | .mark | .space | .other _ => Option.none

def baud2enum (speed : Speed) : Option BaudRate :=
  [(B0, .b0), (B50, .b50), (B75, .b75), (B110, .b110), (B134, .b134), (B150, .b150), (B200, .b200),
    (B300, .b300), (B600, .b600), (B1200, .b1200), (B1800, .b1800), (B2400, .b2400), (B4800, .b4800),
    (B9600, .b9600), (B19200, .b19200), (B38400, .b38400), (B57600, .b57600), (B115200, .b115200),
    (B230400, .b230400), (B460800, .b460800), (B921600, .b921600), (B1000000, .b1000000),
    (B2000000, .b2000000), (B3000000, .b3000000), (B4000000, BaudRate.b4000000)].lookup speed

def charsize2enum (size : UInt8) : Option CharacterSize :=
  [(CS5, .cs5), (CS6, .cs6), (CS7, .cs7), (CS8, CharacterSize.cs8)].lookup size

def parity2enum (flags : TcFlag) : Option Parity :=
  [(0, .none), (PARENB, .even), (PARENB ||| PARODD, Parity.odd)].lookup flags

/-! The tables of each pair are inverse, so that a getter reports what its setter was given. -/

theorem baud2enum_enum2baud {baud : BaudRate} {entry : Speed × ℤ} (h : enum2baud baud = some entry) :
    baud2enum entry.1 = some baud := by
  cases baud <;> cases h <;> rfl

theorem charsize2enum_enum2charsize {charsize : CharacterSize} {size : UInt8}
    (h : enum2charsize charsize = some size) : charsize2enum size = some charsize := by
  cases charsize <;> cases h <;> rfl

theorem parity2enum_enum2parity {parity : Parity} {flags : TcFlag}
    (h : enum2parity parity = some flags) : parity2enum flags = some parity := by
  cases parity <;> cases h <;> rfl

end Avionicpp.Uart
