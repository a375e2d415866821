import Avionicpp.Uart.DescriptorOwnership

/-! # The settings of the port

The object remembers what it was asked for whether or not the system goes along, and every successful
configuration writes all of it. So the port and the getters may differ after a failure, and agree again
after the next success.
-/
namespace Avionicpp.Uart
open Foundations Termios
set_option autoImplicit false

/-! ## What is asked -/

/-- What the getters report. -/
structure Settings where
  baudrate : BaudRate
  charactersize : CharacterSize
  parity : Parity
  stopbits : StopBits
  timeout : ℤ
  deriving DecidableEq

def PosixUART.settings (u : PosixUART) : Settings where
  baudrate := u.getBaudrate
  charactersize := u.getCharactersize
  parity := u.getParity
  stopbits := u.getStopbits
  timeout := u.getTimeout

def Settings.initial : Settings := ⟨.b9600, .cs8, .none, .sb1, 0⟩

/-- A setting that the tables know is recorded, in the form in which the port can have it. -/
def Settings.record (s : Settings) : Call → Settings
  | .openPort | .close => s
  | .setBaudrate baud => if (enum2baud baud).isSome then { s with baudrate := baud } else s
  | .setCharactersize charsize =>
    if (enum2charsize charsize).isSome then { s with charactersize := charsize } else s
  | .setParity parity => if (enum2parity parity).isSome then { s with parity := parity } else s
  | .setStopbits stopbits => { s with stopbits := if stopbits = .sb1 then .sb1 else .sb2 }
  | .setTimeout timeout =>
    { s with timeout := if timeout ≤ 0 then 0 else 100 * max 1 (min 255 (timeout / 100)) }

def recorded (calls : List (Call × Answers)) : Settings :=
  calls.foldl (fun s c => s.record c.1) .initial

/-- A serial line, in numbers. -/
structure Line where
  bitsPerSecond : ℕ
  dataBits : ℕ
  parity : Parity
  stopBits : ℕ
  timeoutTenths : ℕ
  deriving DecidableEq

def BaudRate.bitsPerSecond : BaudRate → Option ℕ
  | .b0 => some 0
  | .b50 => some 50
  | .b75 => some 75
  | .b110 => some 110
  | .b134 => some 134
  | .b150 => some 150
  | .b200 => some 200
  | .b300 => some 300
  | .b600 => some 600
  | .b1200 => some 1200
  | .b1800 => some 1800
  | .b2400 => some 2400
  | .b4800 => some 4800
  | .b9600 => some 9600
  | .b14400 => some 14400
  | .b19200 => some 19200
  | .b38400 => some 38400
  | .b56000 => some 56000
  | .b57600 => some 57600
  | .b115200 => some 115200
  | .b128000 => some 128000
  | .b230400 => some 230400
  | .b256000 => some 256000
  | .b460800 => some 460800
  | .b921600 => some 921600
  | .b1000000 => some 1000000
  | .b2000000 => some 2000000
  | .b3000000 => some 3000000
  | .b4000000 => some 4000000
  | .other _ => none

def CharacterSize.dataBits : CharacterSize → Option ℕ
  | .cs5 => some 5
  | .cs6 => some 6
  | .cs7 => some 7
  | .cs8 => some 8
  | .cs16 => some 16
  | .other _ => none

def Settings.line (s : Settings) : Option Line := do
  let bitsPerSecond ← s.baudrate.bitsPerSecond
  let dataBits ← s.charactersize.dataBits
  some
    { bitsPerSecond := bitsPerSecond
      dataBits := dataBits
      parity := s.parity
      stopBits := if s.stopbits = .sb1 then 1 else 2
      timeoutTenths := (s.timeout / 100).toNat }

/-- What a speed of `termios.h` stands for. -/
def bitsPerSecond (speed : Speed) : Option ℕ :=
  [(B0, 0), (B50, 50), (B75, 75), (B110, 110), (B134, 134), (B150, 150), (B200, 200), (B300, 300),
    (B600, 600), (B1200, 1200), (B1800, 1800), (B2400, 2400), (B4800, 4800), (B9600, 9600),
    (B19200, 19200), (B38400, 38400), (B57600, 57600), (B115200, 115200), (B230400, 230400),
    (B460800, 460800), (B921600, 921600), (B1000000, 1000000), (B2000000, 2000000),
    (B3000000, 3000000), (B4000000, 4000000)].lookup speed

/-- The mask of the character size. -/
def CSIZE : TcFlag := 0x30

/-- The line that the attributes of a port describe. -/
def Termios.line (t : Termios) : Option Line :=
  if t.ispeed = t.ospeed then
    (Uart.bitsPerSecond t.ispeed).map fun bitsPerSecond =>
      { bitsPerSecond := bitsPerSecond
        dataBits := 5 + ((t.cflag &&& CSIZE) >>> 4).toNat
        parity :=
          if t.cflag &&& PARENB = 0 then .none else if t.cflag &&& PARODD = 0 then .even else .odd
        stopBits := if t.cflag &&& CSTOPB.toUInt32 = 0 then 1 else 2
        timeoutTenths := (t.cc VTIME).toNat }
  else none

/-- A call that leaves the given settings: if it succeeds, the port has them; if it fails, the port is as
it was. -/
structure Reconciles (s : Settings) (w : World) (result : Option Result) (w' : World) : Prop where
  settings : w'.uart.settings = s
  success : result = some (.ok true) → w'.os.attributes.line = s.line ∧ s.line.isSome ∧
    w'.uart.currenttio = w'.os.attributes
  failure : ∀ e, result = some (.error e) → w'.os.attributes = w.os.attributes ∧
    w'.uart.currenttio = w.uart.currenttio

/-! ## The tables -/

/-- The members of the object encode these settings. -/
structure Caches (u : PosixUART) (s : Settings) : Prop where
  baudrate : ∃ rate, enum2baud s.baudrate = some (u.baudrate, rate)
  charactersize : enum2charsize s.charactersize = some u.charactersize
  parity : enum2parity s.parity = some u.parity
  stopbits : s.stopbits = .sb1 ∧ u.stopbits = 0 ∨ s.stopbits = .sb2 ∧ u.stopbits = CSTOPB
  timeout : s.timeout = u.timeoutDeciseconds.toNat * 100

theorem Caches.settings {u : PosixUART} {s : Settings} (h : Caches u s) : u.settings = s := by
  obtain ⟨⟨rate, hbaud⟩, hcharsize, hparity, hstopbits, htimeout⟩ := h
  obtain ⟨baudrate, charactersize, parity, stopbits, timeout⟩ := s
  have hstop : u.getStopbits = stopbits := by
    obtain ⟨hs, hu⟩ | ⟨hs, hu⟩ := hstopbits
    · rw [PosixUART.getStopbits, hu]
      exact hs.symm
    · rw [PosixUART.getStopbits, hu]
      exact hs.symm
  have hrate := baud2enum_enum2baud hbaud
  dsimp only at hrate hcharsize hparity htimeout
  rw [PosixUART.settings, PosixUART.getBaudrate, hrate, PosixUART.getCharactersize,
    charsize2enum_enum2charsize hcharsize, PosixUART.getParity, parity2enum_enum2parity hparity, hstop,
    PosixUART.getTimeout, htimeout]
  rfl

theorem enum2baud_rate {baud : BaudRate} {speed : Speed} {rate : ℤ}
    (h : enum2baud baud = some (speed, rate)) :
    ∃ n, baud.bitsPerSecond = some n ∧ bitsPerSecond speed = some n := by
  cases baud <;> cases h <;> exact ⟨_, rfl, rfl⟩

/-- The flags of each setting have bits of their own. -/
theorem cflag_parts {charsize : CharacterSize} {size : UInt8} {parity : Parity} {flags : TcFlag}
    {stopbits : UInt8} (hsize : enum2charsize charsize = some size)
    (hparity : enum2parity parity = some flags) (hstop : stopbits = 0 ∨ stopbits = CSTOPB) :
    let cflag := size.toUInt32 ||| flags ||| stopbits.toUInt32 ||| CLOCAL ||| CREAD
    charsize.dataBits = some (5 + ((cflag &&& CSIZE) >>> 4).toNat) ∧
      (if cflag &&& PARENB = 0 then Parity.none else if cflag &&& PARODD = 0 then .even else .odd) =
        parity ∧
      (cflag &&& CSTOPB.toUInt32 = 0 ↔ stopbits = 0) := by
  obtain rfl | rfl := hstop <;> cases charsize <;> cases hsize <;> cases parity <;> cases hparity <;>
    decide

theorem requested_line {u : PosixUART} {s : Settings} (h : Caches u s) (tios : Termios) :
    (requested u tios).line = s.line ∧ s.line.isSome := by
  obtain ⟨⟨rate, hbaud⟩, hcharsize, hparity, hstopbits, htimeout⟩ := h
  obtain ⟨n, hrate, hspeed⟩ := enum2baud_rate hbaud
  have hstop : u.stopbits = 0 ∨ u.stopbits = CSTOPB := by
    obtain ⟨-, hu⟩ | ⟨-, hu⟩ := hstopbits
    · exact Or.inl hu
    · exact Or.inr hu
  obtain ⟨hbits, hpar, hstopFlag⟩ := cflag_parts hcharsize hparity hstop
  have hvtime : (requested u tios).cc VTIME = u.timeoutDeciseconds := rfl
  have htenths : (s.timeout / 100).toNat = u.timeoutDeciseconds.toNat := by omega
  have hstopBits : (if s.stopbits = .sb1 then 1 else 2) = if u.stopbits = 0 then 1 else 2 := by
    obtain ⟨hs, hu⟩ | ⟨hs, hu⟩ := hstopbits <;> rw [hs, hu] <;> rfl
  have hline : s.line = some
      { bitsPerSecond := n
        dataBits := 5 + (((requested u tios).cflag &&& CSIZE) >>> 4).toNat
        parity := s.parity
        stopBits := if u.stopbits = 0 then 1 else 2
        timeoutTenths := u.timeoutDeciseconds.toNat } := by
    rw [Settings.line, hrate, hbits, hstopBits, htenths]
    rfl
  refine ⟨?_, by rw [hline]; rfl⟩
  have hspeeds : (requested u tios).ispeed = (requested u tios).ospeed := rfl
  rw [hline, Termios.line, if_pos hspeeds, hvtime]
  show (bitsPerSecond u.baudrate).map _ = _
  rw [hspeed, Option.map_some, Option.some.injEq, Line.mk.injEq]
  refine ⟨rfl, rfl, hpar, ?_, rfl⟩
  exact if_congr hstopFlag rfl rfl

/-! ## What the operations do -/

variable (strerror : ℤ → String)

/-- What the calls that change nothing but a setting have in common. -/
theorem configure_reconciles {s : Settings} {u : PosixUART} (hu : Caches u s) (a : Answers) {w : World}
    (htio : u.currenttio = w.uart.currenttio) :
    Caches (configure strerror a { w with uart := u }).2.uart s ∧
      Reconciles s w (some (configure strerror a { w with uart := u }).1)
        (configure strerror a { w with uart := u }).2 := by
  obtain ⟨hfail, hsame⟩ | hdone := configure_cases strerror a { w with uart := u }
  · rw [hsame]
    refine ⟨hu, hu.settings, ?_, fun _ _ => ⟨rfl, htio⟩⟩
    intro hsuccess
    exact absurd (Option.some.inj hsuccess) hfail
  · rw [hdone]
    have hcaches : Caches { u with currenttio := requested u w.os.attributes } s :=
      ⟨hu.baudrate, hu.charactersize, hu.parity, hu.stopbits, hu.timeout⟩
    obtain ⟨hline, hsome⟩ := requested_line hu w.os.attributes
    refine ⟨hcaches, hcaches.settings, fun _ => ⟨hline, hsome, rfl⟩, ?_⟩
    intro e he
    cases he

/-- Another handle and another flag are no other settings. -/
theorem Caches.of_handle {u : PosixUART} {s : Settings} (h : Caches u s) (handle : ℤ) (isopen : Bool) :
    Caches { u with uarthandle := handle, isopen := isopen } s :=
  ⟨h.baudrate, h.charactersize, h.parity, h.stopbits, h.timeout⟩

theorem close_frame {s : Settings} {w : World} (h : Caches w.uart s) :
    Caches (close w).uart s ∧ (close w).os.attributes = w.os.attributes ∧
      (close w).uart.currenttio = w.uart.currenttio := by
  unfold close
  split
  · exact ⟨h.of_handle (-1) false, rfl, rfl⟩
  · exact ⟨h, rfl, rfl⟩

/-- `open` adds nothing to the configuration but the flag: the port it would close is marked closed. -/
theorem configureOpened_eq (a : Answers) (w : World) (hopen : w.uart.isopen = true) :
    ∃ isopen, configureOpened strerror a w = ((configure strerror a w).1,
      { (configure strerror a w).2 with
        uart := { (configure strerror a w).2.uart with isopen := isopen } }) := by
  have hw : { w with uart := { w.uart with isopen := true } } = w := by rw [← hopen]
  simp only [configureOpened, hw]
  generalize configure strerror a w = r
  obtain ⟨result, w'⟩ := r
  cases result with
  | error e => exact ⟨false, rfl⟩
  | ok configured =>
    cases configured with
    | false => exact ⟨false, rfl⟩
    | true => exact ⟨true, rfl⟩

theorem openPort_reconciles {s : Settings} {w : World} (h : Caches w.uart s) (a : Answers) :
    Caches (openPort strerror a w).2.uart s ∧
      Reconciles s w (some (openPort strerror a w).1) (openPort strerror a w).2 := by
  obtain ⟨hclose, hattributes, htio⟩ := close_frame h
  have hclosed := close_isopen w
  rw [openPort_close]
  cases hanswer : a.openErrno with
  | some errno =>
    have hresult : (openPort strerror a (close w)).1 = failure strerror errno := by
      simp [openPort, osOpen, hanswer, hclosed]
    rw [openPort_refused strerror hanswer hclosed, hresult]
    have hcaches := hclose.of_handle (-1) false
    refine ⟨hcaches, hcaches.settings, ?_, fun _ _ => ⟨hattributes, htio⟩⟩
    intro hsuccess
    cases hsuccess
  | none =>
    have hopened : Caches (opened a (close w)).uart s := hclose.of_handle _ true
    obtain ⟨isopen, hconfigured⟩ := configureOpened_eq strerror a (opened a (close w)) rfl
    obtain ⟨hcaches, hreconciles⟩ := configure_reconciles strerror (w := opened a (close w)) hopened a rfl
    rw [openPort_opened strerror hanswer hclosed, hconfigured]
    have hcaches' := hcaches.of_handle
      (configure strerror a (opened a (close w))).2.uart.uarthandle isopen
    refine ⟨hcaches', hcaches'.settings, hreconciles.success, ?_⟩
    intro e he
    obtain ⟨hsame, hsameTio⟩ := hreconciles.failure e he
    exact ⟨hsame.trans hattributes, hsameTio.trans htio⟩

/-- **One call**: what it records is what the object remembers, and a success brings the port in line. -/
theorem perform_reconciles {s : Settings} {w : World} (h : Caches w.uart s) (call : Call)
    (a : Answers) :
    Caches (perform strerror w call a).1.uart (s.record call) ∧
      Reconciles (s.record call) w (perform strerror w call a).2 (perform strerror w call a).1 := by
  have hrefused : ∀ error : Error, Caches w.uart s ∧ Reconciles s w (some (.error error)) w := by
    intro error
    refine ⟨h, h.settings, ?_, fun _ _ => ⟨rfl, rfl⟩⟩
    intro hsuccess
    cases hsuccess
  have hcached := h
  obtain ⟨⟨rate, hbaud⟩, hcharsize, hparity, hstopbits, htimeout⟩ := hcached
  cases call with
  | openPort => exact openPort_reconciles strerror h a
  | close =>
    obtain ⟨hclose, hattributes, htio⟩ := close_frame h
    refine ⟨hclose, hclose.settings, ?_, fun _ _ => ⟨hattributes, htio⟩⟩
    intro hsuccess
    cases hsuccess
  | setBaudrate baud =>
    simp only [perform, setBaudrate, Settings.record]
    cases hentry : enum2baud baud with
    | none => exact hrefused _
    | some entry =>
      refine configure_reconciles strerror ?_ a rfl
      exact ⟨⟨entry.2, hentry⟩, hcharsize, hparity, hstopbits, htimeout⟩
  | setCharactersize charsize =>
    simp only [perform, setCharactersize, Settings.record]
    cases hentry : enum2charsize charsize with
    | none => exact hrefused _
    | some size =>
      refine configure_reconciles strerror ?_ a rfl
      exact ⟨⟨rate, hbaud⟩, hentry, hparity, hstopbits, htimeout⟩
  | setParity parity =>
    simp only [perform, setParity, Settings.record]
    cases hentry : enum2parity parity with
    | none => exact hrefused _
    | some flags =>
      refine configure_reconciles strerror ?_ a rfl
      exact ⟨⟨rate, hbaud⟩, hcharsize, hentry, hstopbits, htimeout⟩
  | setStopbits stopbits =>
    refine configure_reconciles strerror ?_ a rfl
    refine ⟨⟨rate, hbaud⟩, hcharsize, hparity, ?_, htimeout⟩
    by_cases hone : stopbits = .sb1
    · exact Or.inl ⟨if_pos hone, if_pos hone⟩
    · exact Or.inr ⟨if_neg hone, if_neg hone⟩
  | setTimeout timeout =>
    refine configure_reconciles strerror ?_ a rfl
    refine ⟨⟨rate, hbaud⟩, hcharsize, hparity, hstopbits, ?_⟩
    show (if timeout ≤ 0 then 0 else 100 * max 1 (min 255 (timeout / 100))) =
      ((UInt8.ofNat (if timeout ≤ 0 then 0 else max 1 (min 255 (timeout / 100))).toNat).toNat : ℤ) * 100
    rw [UInt8.toNat_ofNat']
    split <;> omega

/-! ## Runs -/

theorem new_caches (devicename : String) (attributes : Termios) :
    Caches (World.new devicename attributes).uart .initial :=
  ⟨⟨9600, rfl⟩, rfl, rfl, Or.inl ⟨rfl, rfl⟩, rfl⟩

theorem run_caches (devicename : String) (attributes : Termios) (calls : List (Call × Answers)) :
    Caches ((uartMachine strerror).run (World.new devicename attributes) calls).uart
      (recorded calls) := by
  refine (uartMachine strerror).history_invariant (fun u w => Caches w.uart (recorded u))
    (new_caches devicename attributes) ?_ calls
  intro u c h
  have hrecord : recorded (u ++ [c]) = (recorded u).record c.1 := List.foldl_concat ..
  rw [hrecord]
  exact (perform_reconciles strerror h c.1 c.2).1

/-- **The port and the getters agree after every success, and a failure leaves the port alone**,
whatever was called before and whatever the system answered. -/
theorem settings_reconciled (devicename : String) (attributes : Termios)
    (calls : List (Call × Answers)) (call : Call) (a : Answers) :
    Reconciles (recorded (calls ++ [(call, a)]))
      ((uartMachine strerror).run (World.new devicename attributes) calls)
      (perform strerror ((uartMachine strerror).run (World.new devicename attributes) calls) call a).2
      (perform strerror ((uartMachine strerror).run (World.new devicename attributes) calls)
        call a).1 := by
  have hrecord : recorded (calls ++ [(call, a)]) = (recorded calls).record call :=
    List.foldl_concat ..
  rw [hrecord]
  exact (perform_reconciles strerror (run_caches strerror devicename attributes calls) call a).2

/-- A parity asked for while the port is closed, and a rate while it is open, with a system that takes every
setting: `open` and the second setter return true, and the port has what was asked for. -/
theorem obliging_reconciled :
    let w := (uartMachine fun _ => "").run (.new "/dev/ttyS0" .zero) [(.setParity .even, obliging)]
    let opened := perform (fun _ => "") w .openPort obliging
    let rated := perform (fun _ => "") opened.1 (.setBaudrate .b115200) obliging
    opened.2 = some (.ok true) ∧ opened.1.os.attributes.line = some ⟨9600, 8, .even, 1, 0⟩ ∧
      rated.2 = some (.ok true) ∧ rated.1.os.attributes.line = some ⟨115200, 8, .even, 1, 0⟩ := by
  intro w opened rated
  have hopened := settings_reconciled (fun _ => "") "/dev/ttyS0" .zero [(.setParity .even, obliging)]
    .openPort obliging
  have hrated := settings_reconciled (fun _ => "") "/dev/ttyS0" .zero
    [(.setParity .even, obliging), (.openPort, obliging)] (.setBaudrate .b115200) obliging
  exact ⟨rfl, (hopened.success rfl).1, rfl, (hrated.success rfl).1⟩

end Avionicpp.Uart
