import Avionicpp.Uart.CommState
import Avionicpp.Uart.PortSettings

/-! # The two ends of a line

A line works if both of its ends are set up alike. After a success each port is as the tables of its own
system say, and those of the two systems give the same number of data bits for eight only.
-/
namespace Avionicpp.Uart
set_option autoImplicit false

def Line.comm (l : Line) : Win32.CommLine where
  bitsPerSecond := l.bitsPerSecond
  dataBits := l.dataBits
  parity := l.parity
  stopHalves := 2 * l.stopBits

/-- The attributes of one end and the state of the other describe the same line. -/
def EndsAgree (attributes : Termios) (state : Win32.DCB) : Prop :=
  ∃ l, attributes.line = some l ∧ state.line = some l.comm

/-! ## The tables side by side -/

/-- The enumerator of a rate. -/
def rated (n : ℕ) : Option BaudRate :=
  [(0, .b0), (50, .b50), (75, .b75), (110, .b110), (134, .b134), (150, .b150), (200, .b200),
    (300, .b300), (600, .b600), (1200, .b1200), (1800, .b1800), (2400, .b2400), (4800, .b4800),
    (9600, .b9600), (14400, .b14400), (19200, .b19200), (38400, .b38400), (56000, .b56000),
    (57600, .b57600), (115200, .b115200), (128000, .b128000), (230400, .b230400), (256000, .b256000),
    (460800, .b460800), (921600, .b921600), (1000000, .b1000000), (2000000, .b2000000),
    (3000000, .b3000000), (4000000, BaudRate.b4000000)].lookup n

theorem rated_bitsPerSecond {baud : BaudRate} {n : ℕ} (h : baud.bitsPerSecond = some n) :
    rated n = some baud := by
  cases baud <;> cases h <;> rfl

theorem bitsPerSecond_eq_iff {baud baud' : BaudRate} {n n' : ℕ} (h : baud.bitsPerSecond = some n)
    (h' : baud'.bitsPerSecond = some n') : n = n' ↔ baud = baud' := by
  constructor
  · rintro rfl
    exact Option.some.inj ((rated_bitsPerSecond h).symm.trans (rated_bitsPerSecond h'))
  · rintro rfl
    exact Option.some.inj (h.symm.trans h')

/-- The number of data bits of one system is the code of the other for eight alone. -/
theorem dataBits_eq_iff {charsize charsize' : CharacterSize} {size : UInt8} {code : Win32.WORD}
    (h : enum2charsize charsize = some size) (h' : Win32.enum2charsize charsize' = some code) :
    charsize.dataBits = some code.toUInt8.toNat ↔ charsize = .cs8 ∧ charsize' = .cs8 := by
  cases charsize <;> cases h <;> cases charsize' <;> cases h' <;> decide

theorem enum2charsize_dataBits {charsize : CharacterSize} {size : UInt8}
    (h : enum2charsize charsize = some size) : ∃ bits, charsize.dataBits = some bits := by
  cases charsize <;> cases h <;> exact ⟨_, rfl⟩

theorem stopBits_eq_iff {s s' : Settings} {u : PosixUART} {halves : ℕ} (h : Caches u s)
    (h' : Win32.stopHalves s'.stopbits = some halves) :
    2 * (if s.stopbits = .sb1 then 1 else 2) = halves ↔ s.stopbits = s'.stopbits := by
  obtain ⟨hs, -⟩ | ⟨hs, -⟩ := h.stopbits <;> rw [hs] <;>
    cases hs' : s'.stopbits <;> rw [hs'] at h' <;> cases h' <;> decide

/-! ## The state of the Windows port -/

namespace Win32
variable (win32error2string : DWORD → String)

/-- The state of the port is the one that the object asks for. -/
def Obeyed (w : World) : Prop := requestedState w.uart w.os.state = w.os.state

theorem configure_obeyed {a : Answers} {w : World}
    (h : succeeded (some (configure win32error2string a w).1) = true) :
    Obeyed (configure win32error2string a w).2 := by
  obtain ⟨hfail, -⟩ | hdone := configure_cases win32error2string a w
  · rw [hfail] at h
    cases h
  · rw [hdone]
    rfl

theorem openPort_obeyed {a : Answers} {w : World}
    (h : succeeded (some (openPort win32error2string a w).1) = true) :
    Obeyed (openPort win32error2string a w).2 := by
  cases hcreate : a.createFileError with
  | some err =>
    rw [openPort_refused win32error2string hcreate] at h
    cases h
  | none =>
    rw [openPort_created win32error2string hcreate] at h ⊢
    cases htime : a.setCommTimeoutsError with
    | some err =>
      rw [configureOpened_refused win32error2string htime] at h
      cases h
    | none =>
      obtain ⟨isopen, hopened⟩ :=
        configureOpened_timed win32error2string htime (created a (close a w))
      rw [hopened] at h ⊢
      exact configure_obeyed win32error2string h

/-- **After a success** the port is as the object has it. -/
theorem perform_obeyed {w : World} {call : Call} {a : Answers} (hcall : Configuring call)
    (h : succeeded (perform win32error2string w call a).2 = true) :
    Obeyed (perform win32error2string w call a).1 := by
  cases call with
  | openPort => exact openPort_obeyed win32error2string h
  | close => exact absurd rfl hcall.1
  | setTimeout timeout => exact absurd rfl (hcall.2 timeout)
  | setBaudrate baud =>
    simp only [perform, setBaudrate] at h ⊢
    cases hentry : enum2baud baud with
    | none => rw [hentry] at h; cases h
    | some rate => rw [hentry] at h; exact configure_obeyed win32error2string h
  | setCharactersize charsize =>
    simp only [perform, setCharactersize] at h ⊢
    cases hentry : enum2charsize charsize with
    | none => rw [hentry] at h; cases h
    | some size => rw [hentry] at h; exact configure_obeyed win32error2string h
  | setParity parity =>
    simp only [perform, setParity] at h ⊢
    cases hentry : enum2parity parity with
    | none => rw [hentry] at h; cases h
    | some flags => rw [hentry] at h; exact configure_obeyed win32error2string h
  | setStopbits stopbits => cases stopbits <;> exact configure_obeyed win32error2string h

theorem Obeyed.line {w : World} {s : Settings} (h : Obeyed w) (hcaches : Caches w.uart s) :
    ∃ halves, stopHalves s.stopbits = some halves ∧ w.os.state.line = some
      { bitsPerSecond := w.uart.baudrate.toNat
        dataBits := w.uart.charactersize.toUInt8.toNat
        parity := s.parity
        stopHalves := halves } := by
  obtain ⟨halves, hhalves, hcode⟩ := stopbits_halves hcaches
  refine ⟨halves, hhalves, ?_⟩
  rw [← requestedState_port hcaches w.os.state hcode, h]

end Win32

/-! ## The line -/

theorem line_agrees_iff {t : Termios} {s s' : Settings} {u : PosixUART} {w : Win32.World}
    (hcaches : Caches u s) (hline : t.line = s.line) (hcaches' : Win32.Caches w.uart s')
    (hobeyed : Win32.Obeyed w) :
    EndsAgree t w.os.state ↔
      s.baudrate = s'.baudrate ∧ s.charactersize = .cs8 ∧ s'.charactersize = .cs8 ∧
        s.parity = s'.parity ∧ s.stopbits = s'.stopbits := by
  obtain ⟨rate, hbaud⟩ := hcaches.baudrate
  obtain ⟨n, hrate, -⟩ := enum2baud_rate hbaud
  obtain ⟨bits, hbits⟩ := enum2charsize_dataBits hcaches.charactersize
  obtain ⟨halves, hhalves, hport⟩ := hobeyed.line hcaches'
  have hrates := bitsPerSecond_eq_iff hrate (Win32.enum2baud_rate hcaches'.baudrate)
  have hsizes := dataBits_eq_iff hcaches.charactersize hcaches'.charactersize
  have hstops := stopBits_eq_iff hcaches hhalves
  rw [hbits, Option.some.injEq] at hsizes
  have hleft : t.line = some
      { bitsPerSecond := n
        dataBits := bits
        parity := s.parity
        stopBits := if s.stopbits = .sb1 then 1 else 2
        timeoutTenths := (s.timeout / 100).toNat } := by
    rw [hline, Settings.line, hrate, hbits]
    rfl
  unfold EndsAgree
  rw [hleft, hport]
  constructor
  · rintro ⟨l, hl, hl'⟩
    rw [← Option.some.inj hl] at hl'
    obtain ⟨hbits', hdata, hparity, hstop⟩ := Win32.CommLine.mk.inj (Option.some.inj hl')
    obtain ⟨hsize, hsize'⟩ := hsizes.mp hdata.symm
    exact ⟨hrates.mp hbits'.symm, hsize, hsize', hparity.symm, hstops.mp hstop.symm⟩
  · rintro ⟨hbaud', hsize, hsize', hparity, hstop⟩
    refine ⟨_, rfl, ?_⟩
    rw [Option.some.injEq, Line.comm, Win32.CommLine.mk.injEq]
    exact ⟨(hrates.mpr hbaud').symm, (hsizes.mpr ⟨hsize, hsize'⟩).symm, hparity.symm,
      (hstops.mpr hstop).symm⟩

/-- **Whether two ends agree**: after any session with a POSIX port and any with a Windows port, each of
which a success has ended, they do exactly if both were asked for eight data bits, and for the same rate,
parity and stop bits, which the POSIX port takes as two if they are one and a half. -/
theorem ends_agree_iff (strerror : ℤ → String) (devicename : String) (attributes : Termios)
    (calls : List (Call × Answers)) (call : Call) (a : Answers)
    (win32error2string : Win32.DWORD → String) (devicename' : String)
    (timeouts : Win32.COMMTIMEOUTS) (state : Win32.DCB) (calls' : List (Win32.Call × Win32.Answers))
    (call' : Win32.Call) (a' : Win32.Answers) (hcall' : Win32.Configuring call') :
    let w := (uartMachine strerror).run (.new devicename attributes) calls
    let w' := (Win32.uartMachine win32error2string).run (.new devicename' timeouts state) calls'
    let s := recorded (calls ++ [(call, a)])
    let s' := Win32.asked ((Win32.uartMachine win32error2string).trace
      (.new devicename' timeouts state) (calls' ++ [(call', a')]))
    (perform strerror w call a).2 = some (.ok true) →
    (Win32.perform win32error2string w' call' a').2 = some (.ok true) →
      (EndsAgree (perform strerror w call a).1.os.attributes
          (Win32.perform win32error2string w' call' a').1.os.state ↔
        s.baudrate = s'.baudrate ∧ s.charactersize = .cs8 ∧ s'.charactersize = .cs8 ∧
          s.parity = s'.parity ∧ s.stopbits = s'.stopbits) := by
  intro w w' s s' hsuccess hsuccess'
  have hs : s = (recorded calls).record call := by
    show List.foldl _ _ _ = _
    rw [List.foldl_concat]
    rfl
  have hs' : s' = Win32.record (Win32.asked ((Win32.uartMachine win32error2string).trace
      (.new devicename' timeouts state) calls')) call'
        (Win32.perform win32error2string w' call' a').2 := by
    show Win32.asked _ = _
    rw [Foundations.Mealy.trace_concat, Win32.asked, List.foldl_concat]
    rfl
  obtain ⟨hcaches, hreconciles⟩ :=
    perform_reconciles strerror (run_caches strerror devicename attributes calls) call a
  obtain ⟨hcaches', -⟩ := Win32.perform_inForce win32error2string
    (Win32.run_caches win32error2string devicename' timeouts state calls') call' a'
  obtain ⟨hline, -, -⟩ := hreconciles.success hsuccess
  have hsucceeded : Win32.succeeded (Win32.perform win32error2string w' call' a').2 = true := by
    rw [hsuccess']
    rfl
  rw [hs, hs']
  exact line_agrees_iff hcaches hline hcaches'
    (Win32.perform_obeyed win32error2string hcall' hsucceeded)

/-- One and a half stop bits asked for at both ends. -/
theorem halfStopBit_disagrees :
    ¬ EndsAgree
      (perform (fun _ => "")
        ((uartMachine fun _ => "").run (.new "/dev/ttyS0" .zero) [(.openPort, obliging)])
        (.setStopbits .sb1_5) obliging).1.os.attributes
      (Win32.perform (fun _ => "")
        ((Win32.uartMachine fun _ => "").run (.new "COM1" ⟨0, 0, 0, 0, 0⟩ .zero)
          [(.openPort, Win32.obliging)])
        (.setStopbits .sb1_5) Win32.obliging).1.os.state := by
  have hiff := ends_agree_iff (fun _ => "") "/dev/ttyS0" .zero [(.openPort, obliging)]
    (.setStopbits .sb1_5) obliging (fun _ => "") "COM1" ⟨0, 0, 0, 0, 0⟩ .zero
    [(.openPort, Win32.obliging)] (.setStopbits .sb1_5) Win32.obliging (by simp [Win32.Configuring])
    rfl rfl
  intro hagree
  obtain ⟨-, -, -, -, hstop⟩ := hiff.mp hagree
  exact absurd hstop (by decide)

end Avionicpp.Uart
