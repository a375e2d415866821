import Avionicpp.Uart.PosixUART
import Mathlib.Algebra.Order.BigOperators.Group.List
import Mathlib.Algebra.Order.Group.Nat

/-! # Who owns the descriptor

The object's flag, its handle and the system's ledger agree as long as every port that opens can also
be configured. A port that opens but cannot be configured is lost: `open` clears the flag before it
calls `close`, which then does nothing.
-/
namespace Avionicpp.Uart
open Foundations
set_option autoImplicit false

variable (strerror : ℤ → String)

/-! ## What is asked -/

/-- After a call: the flag says whether the object holds a descriptor, its handle is that descriptor
or -1, and no descriptor was closed that was not open. -/
structure Accounts (w : World) : Prop where
  open_iff : w.uart.isOpen = true ↔ ∃ fd : ℕ, w.os.ledger.held = [fd] ∧ w.uart.nativeHandle = fd
  closed : w.uart.isOpen = false → w.os.ledger.held = [] ∧ w.uart.nativeHandle = -1
  regular : w.os.ledger.Regular

/-- A session that keeps its accounts: after every call, and over the object's life. -/
structure Accounted (w : World) (calls : List (Call × Answers)) : Prop where
  always : ∀ made, made <+: calls → Accounts ((uartMachine strerror).run w made)
  balanced : (destroy ((uartMachine strerror).run w calls)).os.ledger.acquisitions =
    (destroy ((uartMachine strerror).run w calls)).os.ledger.releases

/-- The system does not fail to configure the port. -/
structure Configures (a : Answers) : Prop where
  tcgetattr : a.tcgetattrErrno = none
  cfsetispeed : a.cfsetispeedErrno = none
  cfsetospeed : a.cfsetospeedErrno = none
  tcflush : a.tcflushErrno = none
  tcsetattr : a.tcsetattrErrno = none

/-- The system opens the port as descriptor 3 and takes every setting. -/
def obliging : Answers := ⟨3, none, none, none, none, none, none⟩

/-- A call of `open` for which the system opens the port but refuses to configure it. -/
def RefusesConfiguration (c : Call × Answers) : Prop :=
  c.1 = .openPort ∧ c.2.openErrno = none ∧ ¬ Configures c.2

/-! ## What the operations do -/

/-- `configure` leaves everything as it is, or stores what is requested in the port. -/
theorem configure_cases (a : Answers) (w : World) :
    ((configure strerror a w).1 ≠ .ok true ∧ (configure strerror a w).2 = w) ∨
      configure strerror a w = (.ok true,
        { uart := { w.uart with currenttio := requested w.uart w.os.attributes }
          os := { w.os with attributes := requested w.uart w.os.attributes } }) := by
  unfold configure
  split
  · exact Or.inl ⟨by simp, rfl⟩
  · split
    · exact Or.inl ⟨by simp [failure], rfl⟩
    · split
      · exact Or.inl ⟨by simp [failure], rfl⟩
      · dsimp only
        split
        · exact Or.inl ⟨by simp [failure], rfl⟩
        · split
          · exact Or.inl ⟨by simp [failure], rfl⟩
          · exact Or.inr rfl

/-- It touches neither the flag, nor the handle, nor the ledger. -/
theorem configure_frame (a : Answers) (w : World) :
    (configure strerror a w).2.uart.isopen = w.uart.isopen ∧
      (configure strerror a w).2.uart.uarthandle = w.uart.uarthandle ∧
      (configure strerror a w).2.os.ledger = w.os.ledger := by
  obtain ⟨-, hsame⟩ | hdone := configure_cases strerror a w
  · rw [hsame]
    exact ⟨rfl, rfl, rfl⟩
  · rw [hdone]
    exact ⟨rfl, rfl, rfl⟩

/-- On an open port `configure` succeeds exactly if the system does not fail. -/
theorem configure_succeeds {a : Answers} (w : World) (hopen : w.uart.isopen = true)
    (h : Configures a) : (configure strerror a w).1 = .ok true := by
  simp [configure, hopen, h.tcgetattr, h.cfsetispeed, h.cfsetospeed, h.tcflush, h.tcsetattr]

theorem configure_fails {a : Answers} (w : World) (hopen : w.uart.isopen = true)
    (h : ¬ Configures a) : ∃ errno, (configure strerror a w).1 = failure strerror errno := by
  unfold configure
  rw [if_neg (by simp [hopen])]
  cases hget : a.tcgetattrErrno with
  | some errno => exact ⟨errno, rfl⟩
  | none =>
    cases hspeed : a.cfsetispeedErrno.or a.cfsetospeedErrno with
    | some errno => exact ⟨errno, rfl⟩
    | none =>
      cases hflush : a.tcflushErrno with
      | some errno => exact ⟨errno, rfl⟩
      | none =>
        cases hset : a.tcsetattrErrno with
        | some errno => exact ⟨errno, rfl⟩
        | none =>
          obtain ⟨hi, ho⟩ := Option.or_eq_none_iff.mp hspeed
          exact absurd ⟨hget, hi, ho, hflush, hset⟩ h

theorem freshDescriptor_not_mem (held : List ℕ) (wanted : ℕ) :
    freshDescriptor held wanted ∉ held := by
  unfold freshDescriptor
  split
  · intro h
    have hle := List.le_sum_of_mem h
    omega
  · assumption

theorem accounts_closed {w : World} (hopen : w.uart.isopen = false) (hheld : w.os.ledger.held = [])
    (hhandle : w.uart.uarthandle = -1) (hregular : w.os.ledger.Regular) : Accounts w := by
  refine ⟨?_, fun _ => ⟨hheld, hhandle⟩, hregular⟩
  simp [PosixUART.isOpen, hopen, hheld]

theorem accounts_open {w : World} (fd : ℕ) (hopen : w.uart.isopen = true)
    (hheld : w.os.ledger.held = [fd]) (hhandle : w.uart.uarthandle = fd)
    (hregular : w.os.ledger.Regular) : Accounts w := by
  refine ⟨⟨fun _ => ⟨fd, hheld, hhandle⟩, fun _ => hopen⟩, ?_, hregular⟩
  intro h
  exact absurd (hopen.symm.trans h) (by simp)

theorem Accounts.frame {w w' : World} (h : Accounts w) (hopen : w'.uart.isopen = w.uart.isopen)
    (hhandle : w'.uart.uarthandle = w.uart.uarthandle) (hledger : w'.os.ledger = w.os.ledger) :
    Accounts w' := by
  obtain ⟨hiff, hclosed, hregular⟩ := h
  constructor
  · simp only [PosixUART.isOpen, PosixUART.nativeHandle, hopen, hhandle, hledger] at hiff ⊢
    exact hiff
  · simp only [PosixUART.isOpen, PosixUART.nativeHandle, hopen, hhandle, hledger] at hclosed ⊢
    exact hclosed
  · rw [hledger]
    exact hregular

theorem accounts_setter {w : World} (h : Accounts w) (u : PosixUART)
    (hu : u.isopen = w.uart.isopen ∧ u.uarthandle = w.uart.uarthandle) (a : Answers) :
    Accounts (configure strerror a { w with uart := u }).2 := by
  obtain ⟨hopen, hhandle, hledger⟩ := configure_frame strerror a { w with uart := u }
  exact h.frame (hopen.trans hu.1) (hhandle.trans hu.2) hledger

theorem close_isopen (w : World) : (close w).uart.isopen = false := by
  cases hopen : w.uart.isopen <;> simp [close, hopen]

theorem close_closed {w : World} (h : Accounts w) :
    Accounts (close w) ∧ (close w).uart.isopen = false := by
  cases hopen : w.uart.isopen with
  | false =>
    have hclose : close w = w := by simp [close, hopen]
    rw [hclose]
    exact ⟨h, hopen⟩
  | true =>
    obtain ⟨fd, hheld, hhandle⟩ := h.open_iff.mp hopen
    have hhandle' : w.uart.uarthandle = fd := hhandle
    have hclose : close w = { uart := { w.uart with uarthandle := -1, isopen := false }
                              os := osClose w.uart.uarthandle w.os } := by simp [close, hopen]
    rw [hclose]
    refine ⟨accounts_closed rfl ?_ rfl ?_, rfl⟩
    · simp [osClose, Ledger.held, hheld, hhandle']
    · refine ⟨?_, h.regular⟩
      simp [hheld, hhandle']

def opened (a : Answers) (w : World) : World where
  uart := { w.uart with uarthandle := freshDescriptor w.os.ledger.held a.descriptor, isopen := true }
  os := { w.os with
    ledger := .acquired (freshDescriptor w.os.ledger.held a.descriptor) :: w.os.ledger }

theorem openPort_close (a : Answers) (w : World) :
    openPort strerror a w = openPort strerror a (close w) := by
  cases hopen : w.uart.isopen with
  | false =>
    have hclose : close w = w := by simp [close, hopen]
    rw [hclose]
  | true =>
    have hclosed : (close w).uart.isopen = false := by simp [close, hopen]
    simp only [openPort, hopen, hclosed, if_true, Bool.false_eq_true, if_false]

theorem openPort_refused {a : Answers} {errno : ℤ} (h : a.openErrno = some errno) {w : World}
    (hclosed : w.uart.isopen = false) :
    (openPort strerror a w).2 =
      { w with uart := { w.uart with uarthandle := -1, isopen := false } } := by
  simp [openPort, osOpen, h, hclosed]

theorem openPort_opened {a : Answers} (h : a.openErrno = none) {w : World}
    (hclosed : w.uart.isopen = false) :
    openPort strerror a w = configureOpened strerror a (opened a w) := by
  have hfd := Int.natCast_nonneg (freshDescriptor w.os.ledger.held a.descriptor)
  simp only [openPort, osOpen, h, hclosed, Bool.false_eq_true, if_false, if_neg (Int.not_lt.mpr hfd)]
  rfl

theorem configureOpened_configured {a : Answers} (hc : Configures a) (w : World)
    (hopen : w.uart.isopen = true) :
    (configureOpened strerror a w).2.uart.isopen = true ∧
      (configureOpened strerror a w).2.uart.uarthandle = w.uart.uarthandle ∧
      (configureOpened strerror a w).2.os.ledger = w.os.ledger := by
  have hw : { w with uart := { w.uart with isopen := true } } = w := by rw [← hopen]
  obtain ⟨-, hhandle, hledger⟩ := configure_frame strerror a w
  have hresult := configure_succeeds strerror w hopen hc
  simp only [configureOpened, hw, hresult, not_true_eq_false, if_false]
  exact ⟨trivial, hhandle, hledger⟩

/-- The port is not configured: `close` finds the flag cleared and leaves the descriptor open. -/
theorem configureOpened_lost {a : Answers} (hc : ¬ Configures a) (w : World)
    (hopen : w.uart.isopen = true) :
    (configureOpened strerror a w).2.uart.isopen = false ∧
      (configureOpened strerror a w).2.uart.uarthandle = w.uart.uarthandle ∧
      (configureOpened strerror a w).2.os.ledger = w.os.ledger := by
  have hw : { w with uart := { w.uart with isopen := true } } = w := by rw [← hopen]
  obtain ⟨-, hhandle, hledger⟩ := configure_frame strerror a w
  obtain ⟨errno, hresult⟩ := configure_fails strerror w hopen hc
  simp only [configureOpened, hw, hresult, failure, close, Bool.false_eq_true, not_false_eq_true,
    if_true, if_false]
  exact ⟨trivial, hhandle, hledger⟩

theorem accounts_openPort {a : Answers} (hok : a.openErrno = none → Configures a) {w : World}
    (h : Accounts w) : Accounts (openPort strerror a w).2 := by
  obtain ⟨hclose, hclosed⟩ := close_closed h
  obtain ⟨hheld, -⟩ := hclose.closed hclosed
  rw [openPort_close]
  cases herrno : a.openErrno with
  | some errno =>
    rw [openPort_refused strerror herrno hclosed]
    exact accounts_closed rfl hheld rfl hclose.regular
  | none =>
    obtain ⟨hopen, hhandle, hledger⟩ :=
      configureOpened_configured strerror (hok herrno) (opened a (close w)) rfl
    rw [openPort_opened strerror herrno hclosed]
    apply accounts_open (freshDescriptor (close w).os.ledger.held a.descriptor) hopen
    · rw [hledger]
      simp [opened, Ledger.held, hheld]
    · rw [hhandle]
      rfl
    · rw [hledger]
      exact ⟨freshDescriptor_not_mem _ _, hclose.regular⟩

/-- A refused configuration breaks the accounts, whatever they were. -/
theorem lost_descriptor {a : Answers} (herrno : a.openErrno = none) (hc : ¬ Configures a)
    (w : World) : ¬ Accounts (openPort strerror a w).2 := by
  have hclosed := close_isopen w
  obtain ⟨hopen, hhandle, -⟩ := configureOpened_lost strerror hc (opened a (close w)) rfl
  rw [openPort_close, openPort_opened strerror herrno hclosed]
  intro h
  obtain ⟨-, hminus⟩ := h.closed hopen
  have hfd : (opened a (close w)).uart.uarthandle = -1 := hhandle.symm.trans hminus
  have hnonneg := Int.natCast_nonneg (freshDescriptor (close w).os.ledger.held a.descriptor)
  have heq : ((freshDescriptor (close w).os.ledger.held a.descriptor : ℕ) : ℤ) = -1 := hfd
  omega

/-! ## Sessions -/

/-- **One call** keeps the accounts unless the system refuses to configure a port it opens. -/
theorem accounts_perform {w : World} (h : Accounts w) (c : Call × Answers)
    (hc : ¬ RefusesConfiguration c) : Accounts ((uartMachine strerror).step w c).1 := by
  obtain ⟨call, a⟩ := c
  cases call with
  | openPort =>
    apply accounts_openPort strerror _ h
    intro herrno
    by_contra hnot
    exact hc ⟨rfl, herrno, hnot⟩
  | close => exact (close_closed h).1
  | setBaudrate baud =>
    show Accounts (setBaudrate strerror baud a w).2
    unfold setBaudrate
    split
    · apply accounts_setter strerror h
      exact ⟨rfl, rfl⟩
    · exact h
  | setCharactersize charsize =>
    show Accounts (setCharactersize strerror charsize a w).2
    unfold setCharactersize
    split
    · apply accounts_setter strerror h
      exact ⟨rfl, rfl⟩
    · exact h
  | setParity parity =>
    show Accounts (setParity strerror parity a w).2
    unfold setParity
    split
    · apply accounts_setter strerror h
      exact ⟨rfl, rfl⟩
    · exact h
  | setStopbits stopbits =>
    show Accounts (setStopbits strerror stopbits a w).2
    apply accounts_setter strerror h
    exact ⟨rfl, rfl⟩
  | setTimeout timeout =>
    show Accounts (setTimeout strerror timeout a w).2
    apply accounts_setter strerror h
    exact ⟨rfl, rfl⟩

theorem accounts_run {w : World} (h : Accounts w) (calls : List (Call × Answers))
    (hcalls : ∀ c ∈ calls, ¬ RefusesConfiguration c) :
    Accounts ((uartMachine strerror).run w calls) :=
  (uartMachine strerror).run_invariant Accounts
    (fun _ c hc hw => accounts_perform strerror hw c hc) h hcalls

theorem destroy_balanced {w : World} (h : Accounts w) :
    (destroy w).os.ledger.acquisitions = (destroy w).os.ledger.releases := by
  obtain ⟨hclose, hclosed⟩ := close_closed h
  obtain ⟨hheld, -⟩ := hclose.closed hclosed
  have heq := Ledger.acquisitions_eq _ hclose.regular
  rw [hheld, List.length_nil, Nat.add_zero] at heq
  exact heq

/-- **Ownership of the descriptor**: a session keeps its accounts if and only if the system never
refuses to configure a port that it opens. -/
theorem accounted_iff (devicename : String) (attributes : Termios) (calls : List (Call × Answers)) :
    Accounted strerror (.new devicename attributes) calls ↔
      ∀ c ∈ calls, ¬ RefusesConfiguration c := by
  have hnew : Accounts (.new devicename attributes) := accounts_closed rfl rfl rfl trivial
  constructor
  · rintro haccounted ⟨call, a⟩ hmem ⟨rfl, herrno, hc⟩
    obtain ⟨made, later, rfl⟩ := List.append_of_mem hmem
    have hfront : made ++ [(Call.openPort, a)] <+: made ++ (Call.openPort, a) :: later :=
      ⟨later, by simp⟩
    have hafter := haccounted.always _ hfront
    rw [Mealy.run_concat] at hafter
    exact lost_descriptor strerror herrno hc _ hafter
  · intro hcalls
    constructor
    · intro made hfront
      exact accounts_run strerror hnew made fun c hc => hcalls c (hfront.subset hc)
    · exact destroy_balanced (accounts_run strerror hnew calls hcalls)

/-- The system opens the port as descriptor 3 and refuses its attributes. -/
def notATerminal : Answers where
  descriptor := 3
  openErrno := none
  tcgetattrErrno := some 25
  cfsetispeedErrno := none
  cfsetospeedErrno := none
  tcflushErrno := none
  tcsetattrErrno := none

/-- The descriptor of a port that could not be configured stays open for good. -/
theorem descriptor_leaked :
    let w := (uartMachine fun _ => "").run (.new "/dev/null" .zero) [(.openPort, notATerminal)]
    w.uart.isOpen = false ∧ w.uart.nativeHandle = 3 ∧
      (destroy w).os.ledger = [.acquired 3] ∧
      ¬ Accounted (fun _ => "") (.new "/dev/null" .zero) [(.openPort, notATerminal)] := by
  refine ⟨rfl, rfl, rfl, fun h => ?_⟩
  exact absurd h.balanced (by decide)

end Avionicpp.Uart
