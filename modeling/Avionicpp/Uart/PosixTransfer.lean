import Avionicpp.Uart.DescriptorOwnership
import Avionicpp.Uart.Transfer

/-! # The stream through the POSIX UART (`read` and `write` of `uart/posixuart.hpp`)

Reads and writes lose nothing, whatever they are asked for. But `configure` flushes both directions before
it stores the attributes, so a setter on an open port, and `open`, drop what was received and not read and
what was written and not sent, even if the setting is the old one or is refused in the end.
-/
namespace Avionicpp.Uart
open Foundations
set_option autoImplicit false

def SSIZE_MAX : ℕ := 2 ^ 63 - 1

def EBADF : ℤ := 9

/-! ## What the driver is told -/

/-- `tcflush`, if nothing fails before it, and `tcsetattr`; a call that fails tells the driver nothing. -/
def configureSignals (a : Answers) (isopen : Bool) : List Signal :=
  if isopen && a.tcgetattrErrno.isNone && (a.cfsetispeedErrno.or a.cfsetospeedErrno).isNone &&
      a.tcflushErrno.isNone then
    if a.tcsetattrErrno.isNone then [.flushed, .configured] else [.flushed]
  else []

def signals (w : World) (c : Call × Answers) : List Signal :=
  let closing := if w.uart.isopen then [Signal.closed] else []
  match c with
  | (.openPort, a) => closing ++ if a.openErrno.isNone then configureSignals a true else []
  | (.close, _) => closing
  | (.setBaudrate baud, a) => if (enum2baud baud).isSome then configureSignals a w.uart.isopen else []
  | (.setCharactersize charsize, a) =>
    if (enum2charsize charsize).isSome then configureSignals a w.uart.isopen else []
  | (.setParity parity, a) =>
    if (enum2parity parity).isSome then configureSignals a w.uart.isopen else []
  | (.setStopbits _, a) | (.setTimeout _, a) => configureSignals a w.uart.isopen

/-! ## Transfers -/

section
variable (strerror : ℤ → String)

/-- The error of `::read` and `::write`: that the descriptor is not open, or what the system says. -/
def refusal (a : TransferAnswer ℤ) (w : World) : Option (ℤ × String) :=
  let errno := if 0 ≤ w.uart.uarthandle ∧ w.uart.uarthandle.toNat ∈ w.os.ledger.held then a.error
    else some EBADF
  errno.map fun errno => (errno, strerror errno)

def posixPort : PortKind World (Call × Answers) ℤ where
  limit := SSIZE_MAX
  refusal := refusal strerror
  machine := uartMachine strerror
  signals := signals

variable {δ : Type} (D : Driver δ)

def read (buffer : List UInt8) (readsize : ℕ) (a : TransferAnswer ℤ) (p : Port World δ) :
    TransferResult × List UInt8 × δ := (posixPort strerror).read D buffer readsize a p

def write (buffer : List UInt8) (a : TransferAnswer ℤ) (p : Port World δ) : TransferResult × δ :=
  (posixPort strerror).write D buffer a p

end

def Port.new {δ : Type} (devicename : String) (attributes : Termios) (d : δ) : Port World δ :=
  ⟨.new devicename attributes, d⟩

variable {δ : Type} (strerror : ℤ → String)

/-! ## Flushing -/

theorem configure_signals {a : Answers} {w : World} (h : (configure strerror a w).1 = .ok true) :
    configureSignals a w.uart.isopen = [.flushed, .configured] := by
  cases hopen : w.uart.isopen with
  | false => simp [configure, hopen] at h
  | true =>
    by_cases hc : Configures a
    · simp [configureSignals, hc.tcgetattr, hc.cfsetispeed, hc.cfsetospeed, hc.tcflush, hc.tcsetattr]
    · obtain ⟨errno, hfail⟩ := configure_fails strerror w hopen hc
      rw [hfail] at h
      cases h

/-- A call that returns true has flushed, and then set the port up. -/
theorem perform_signals {w : World} {call : Call} {a : Answers}
    (h : (perform strerror w call a).2 = some (.ok true)) :
    ∃ before, signals w (call, a) = before ++ [.flushed, .configured] := by
  cases call with
  | openPort =>
    have hresult : (openPort strerror a w).1 = .ok true := Option.some.inj h
    rw [openPort_close] at hresult
    have hclosed := close_isopen w
    cases hanswer : a.openErrno with
    | some errno => simp [openPort, osOpen, hanswer, hclosed, failure] at hresult
    | none =>
      rw [openPort_opened strerror hanswer hclosed] at hresult
      have hconfigured : (configure strerror a (opened a (close w))).1 = .ok true := hresult
      have hsignals : configureSignals a true = [.flushed, .configured] :=
        configure_signals strerror hconfigured
      simp [signals, hanswer, hsignals]
  | close => cases h
  | setBaudrate baud =>
    simp only [perform, setBaudrate] at h
    cases hentry : enum2baud baud with
    | none =>
      rw [hentry] at h
      cases h
    | some entry =>
      rw [hentry] at h
      have hsignals := configure_signals strerror (Option.some.inj h)
      exact ⟨[], by simpa [signals, hentry] using hsignals⟩
  | setCharactersize charsize =>
    simp only [perform, setCharactersize] at h
    cases hentry : enum2charsize charsize with
    | none =>
      rw [hentry] at h
      cases h
    | some size =>
      rw [hentry] at h
      have hsignals := configure_signals strerror (Option.some.inj h)
      exact ⟨[], by simpa [signals, hentry] using hsignals⟩
  | setParity parity =>
    simp only [perform, setParity] at h
    cases hentry : enum2parity parity with
    | none =>
      rw [hentry] at h
      cases h
    | some flags =>
      rw [hentry] at h
      have hsignals := configure_signals strerror (Option.some.inj h)
      exact ⟨[], by simpa [signals, hentry] using hsignals⟩
  | setStopbits stopbits =>
    simp only [perform, setStopbits] at h
    have hsignals := configure_signals strerror (Option.some.inj h)
    exact ⟨[], hsignals⟩
  | setTimeout timeout =>
    simp only [perform, setTimeout] at h
    have hsignals := configure_signals strerror (Option.some.inj h)
    exact ⟨[], hsignals⟩

/-! ## Sessions -/

section
variable (D : Driver δ)

/-- A new port after a session. -/
def portAfter (devicename : String) (attributes : Termios) (d : δ)
    (u : List (Action (Call × Answers) ℤ)) : Port World δ :=
  (portMachine (posixPort strerror) D).run (.new devicename attributes d) u

variable {D}

theorem applied_idle (hD : D.InOrder) {p : Port World δ} {c : Action (Call × Answers) ℤ}
    (h : (portStep (posixPort strerror) D p c).2 = .controlled (some (.ok true))) :
    D.Idle (portStep (posixPort strerror) D p c).1.driver := by
  cases c with
  | control call =>
    have hresult := Outcome.controlled.inj h
    obtain ⟨before, hsignals⟩ := perform_signals strerror hresult
    show D.Idle ((signals p.world call).foldl D.signal p.driver)
    rw [hsignals, List.foldl_append]
    generalize before.foldl D.signal p.driver = d
    obtain ⟨hinput, houtput⟩ := hD.flushed d
    obtain ⟨hinput', houtput'⟩ := hD.configured (D.signal d .flushed)
    exact ⟨hinput'.trans hinput, houtput'.trans houtput⟩
  | read | write | receive | send => cases h

/-- **The stream through the POSIX UART**, with any driver that keeps bytes in order: the books of every
session, from any point of it on. After a controlling call that returned true they start with nothing: all
that is read has come since, and all that is sent was written since. -/
theorem stream_kept (hD : D.InOrder) (devicename : String) (attributes : Termios) (d : δ)
    (made later : List (Action (Call × Answers) ℤ)) :
    let q := portAfter strerror D devicename attributes d made
    StreamKept (posixPort strerror) D q later ∧
      ∀ before c, made = before ++ [c] →
        (portStep (posixPort strerror) D (portAfter strerror D devicename attributes d before) c).2 =
          .controlled (some (.ok true)) →
        D.Idle q.driver := by
  intro q
  refine ⟨streamKept hD q later, ?_⟩
  rintro before c rfl happlied
  have hq : q = (portStep (posixPort strerror) D
      (portAfter strerror D devicename attributes d before) c).1 := Mealy.run_concat ..
  rw [hq]
  exact applied_idle strerror hD happlied

/-- A setter drops what is left of three bytes. -/
def sampleSession : List (Action (Call × Answers) ℤ) :=
  [.control (.openPort, obliging), .receive [1, 2, 3], .read [0, 0] 2 ⟨none, 2⟩,
    .control (.setBaudrate .b1200, obliging)]

theorem sampleSession_kept :
    let q := portAfter (fun _ => "") queueDriver "/dev/ttyS0" .zero ⟨[], []⟩ sampleSession
    StreamKept (posixPort fun _ => "") queueDriver q [.receive [4]] ∧ queueDriver.Idle q.driver := by
  intro q
  obtain ⟨hkept, hidle⟩ := stream_kept (fun _ => "") queueDriver_inOrder "/dev/ttyS0" .zero ⟨[], []⟩
    sampleSession [.receive [4]]
  exact ⟨hkept, hidle [.control (.openPort, obliging), .receive [1, 2, 3], .read [0, 0] 2 ⟨none, 2⟩]
    (.control (.setBaudrate .b1200, obliging)) rfl rfl⟩

end

/-! ## Open and closed ports -/

theorem refusal_open {w : World} (h : Accounts w) (hopen : w.uart.isOpen = true)
    (a : TransferAnswer ℤ) : refusal strerror a w = a.error.map fun errno => (errno, strerror errno) := by
  obtain ⟨fd, hheld, hhandle⟩ := h.open_iff.mp hopen
  have hfd : w.uart.uarthandle = fd := hhandle
  have hvalid : 0 ≤ w.uart.uarthandle ∧ w.uart.uarthandle.toNat ∈ w.os.ledger.held := by
    rw [hheld, hfd]
    exact ⟨Int.natCast_nonneg fd, List.mem_singleton.mpr (Int.toNat_natCast fd)⟩
  simp only [refusal, if_pos hvalid]

theorem refusal_closed {w : World} (h : Accounts w) (hclosed : w.uart.isOpen = false)
    (a : TransferAnswer ℤ) : refusal strerror a w = some (EBADF, strerror EBADF) := by
  obtain ⟨-, hhandle⟩ := h.closed hclosed
  have hminus : w.uart.uarthandle = -1 := hhandle
  have hinvalid : ¬ (0 ≤ w.uart.uarthandle ∧ w.uart.uarthandle.toNat ∈ w.os.ledger.held) := by
    rw [hminus]
    rintro ⟨hnonneg, -⟩
    omega
  simp only [refusal, if_neg hinvalid, Option.map_some]

variable (D : Driver δ)

/-- A transfer through an object whose flag is clear fails with the error of a bad descriptor, and moves
nothing; through one whose flag is set it fails only if the system says so. -/
structure Gated (p : Port World δ) : Prop where
  closed : p.world.uart.isOpen = false → ∀ buffer readsize a,
    read strerror D buffer readsize a p = (.error (EBADF, strerror EBADF), buffer, p.driver) ∧
      write strerror D buffer a p = (.error (EBADF, strerror EBADF), p.driver)
  opened : p.world.uart.isOpen = true → ∀ buffer readsize a, a.error = none →
    (∃ n, (read strerror D buffer readsize a p).1 = .ok n) ∧
      ∃ n, (write strerror D buffer a p).1 = .ok n

variable {D}

theorem gated_of_accounts {p : Port World δ} (h : Accounts p.world) : Gated strerror D p := by
  have hread : ∀ buffer readsize a, read strerror D buffer readsize a p = transferRead D SSIZE_MAX
      (refusal strerror a p.world) buffer readsize a.wanted p.driver := fun _ _ _ => rfl
  have hwrite : ∀ buffer a, write strerror D buffer a p = transferWrite D SSIZE_MAX
      (refusal strerror a p.world) buffer a.wanted p.driver := fun _ _ => rfl
  constructor
  · intro hclosed buffer readsize a
    rw [hread, hwrite, refusal_closed strerror h hclosed]
    exact ⟨rfl, rfl⟩
  · intro hopen buffer readsize a ha
    rw [hread, hwrite, refusal_open strerror h hopen, ha]
    exact ⟨⟨_, rfl⟩, ⟨_, rfl⟩⟩

/-- A port that could not be configured is read through a flag that is clear. -/
theorem lost_readable {a : Answers} (herrno : a.openErrno = none) (hc : ¬ Configures a)
    {p : Port World δ} {w : World} (hp : p.world = (openPort strerror a w).2) : ¬ Gated strerror D p := by
  have hclosed := close_isopen w
  obtain ⟨hflag, hhandle, hledger⟩ := configureOpened_lost strerror hc (opened a (close w)) rfl
  rw [← openPort_opened strerror herrno hclosed, ← openPort_close, ← hp] at hflag hhandle hledger
  have hfd : p.world.uart.uarthandle = (freshDescriptor (close w).os.ledger.held a.descriptor : ℕ) :=
    hhandle
  have hvalid : 0 ≤ p.world.uart.uarthandle ∧
      p.world.uart.uarthandle.toNat ∈ p.world.os.ledger.held := by
    rw [hledger, hfd]
    exact ⟨Int.natCast_nonneg _, List.mem_cons_self⟩
  have hpasses : refusal strerror ⟨none, 0⟩ p.world = none := by rw [refusal, if_pos hvalid]; rfl
  intro hgated
  obtain ⟨hread, -⟩ := hgated.closed hflag [] 0 ⟨none, 0⟩
  change transferRead D SSIZE_MAX (refusal strerror ⟨none, 0⟩ p.world) [] 0 0 p.driver = _ at hread
  rw [hpasses] at hread
  cases congrArg Prod.fst hread

/-- **The flag of the POSIX UART tells whether bytes can pass**, at every point of a session and with any
driver, if and only if the system never refuses to configure a port that it opens. -/
theorem gated_iff (D : Driver δ) (devicename : String) (attributes : Termios) (d : δ)
    (actions : List (Action (Call × Answers) ℤ)) :
    (∀ made, made <+: actions →
        Gated strerror D (portAfter strerror D devicename attributes d made)) ↔
      ∀ c ∈ controls actions, ¬ RefusesConfiguration c := by
  constructor
  · rintro hgated ⟨call, a⟩ hmem ⟨rfl, herrno, hc⟩
    obtain ⟨made, later, rfl⟩ := List.append_of_mem (mem_controls.mp hmem)
    have hafter := hgated (made ++ [.control (.openPort, a)]) ⟨later, by simp⟩
    refine lost_readable strerror herrno hc
      (w := (portAfter strerror D devicename attributes d made).world) ?_ hafter
    rw [portAfter, Mealy.run_concat]
    rfl
  · intro hcalls made hfront
    have hnew : Accounts (Port.new devicename attributes d).world :=
      accounts_closed rfl rfl rfl trivial
    apply gated_of_accounts
    rw [portAfter, run_world]
    apply accounts_run strerror hnew
    obtain ⟨later, rfl⟩ := hfront
    intro c hc
    apply hcalls
    rw [controls_append]
    exact List.mem_append_left _ hc

end Avionicpp.Uart
