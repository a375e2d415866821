import Avionicpp.Uart.HandleOwnership
import Avionicpp.Uart.Transfer
import Mathlib.Algebra.Order.BigOperators.Group.List
import Mathlib.Algebra.Order.Group.Nat

/-! # The stream through the Windows UART (`read` and `write` of `uart/win32uart.hpp`)

Setting the port up moves no byte here, so the setters, `open` apart, may be called in the middle of a
stream. But `close` leaves the flag and the handle behind, and until the next `open` every transfer goes
through a handle that is closed.
-/
namespace Avionicpp.Uart.Win32
open Foundations
set_option autoImplicit false

/-- `std::numeric_limits<DWORD>::max()` -/
def DWORD_MAX : ℕ := 2 ^ 32 - 1

def ERROR_INVALID_HANDLE : DWORD := 6

/-- The handle that the object has is open. -/
def Valid (w : World) : Prop := 0 ≤ w.uart.uarthandle ∧ w.uart.uarthandle.toNat ∈ w.os.handles

instance (w : World) : Decidable (Valid w) := inferInstanceAs (Decidable (_ ∧ _))

/-! ## What the driver is told -/

/-- `SetCommState`, if `GetCommState` does not fail; a call that fails tells the driver nothing. -/
def configureSignals (a : Answers) (isopen : Bool) : List Signal :=
  if isopen && a.getCommStateError.isNone && a.setCommStateError.isNone then [.configured] else []

/-- `SetCommTimeouts` -/
def timeoutSignals (a : Answers) (isopen : Bool) : List Signal :=
  if isopen && a.setCommTimeoutsError.isNone then [.configured] else []

def signals (w : World) (c : Call × Answers) : List Signal :=
  let closing (a : Answers) : List Signal :=
    if w.uart.isopen = true ∧ Valid w ∧ a.closeHandleFails = false then [.closed] else []
  match c with
  | (.openPort, a) =>
    closing a ++
      if a.createFileError.isNone ∧ a.setCommTimeoutsError.isNone then
        timeoutSignals a true ++ configureSignals a true
      else []
  | (.close, a) => closing a
  | (.setBaudrate baud, a) => if (enum2baud baud).isSome then configureSignals a w.uart.isopen else []
  | (.setCharactersize charsize, a) =>
    if (enum2charsize charsize).isSome then configureSignals a w.uart.isopen else []
  | (.setParity parity, a) =>
    if (enum2parity parity).isSome then configureSignals a w.uart.isopen else []
  | (.setStopbits _, a) => configureSignals a w.uart.isopen
  | (.setTimeout _, a) => timeoutSignals a w.uart.isopen

/-! ## Transfers -/

section
variable (win32error2string : DWORD → String)

/-- The error of `ReadFile` and `WriteFile`: that the handle is not open, or what the system says. -/
def refusal (a : TransferAnswer DWORD) (w : World) : Option (ℤ × String) :=
  let err := if Valid w then a.error else some ERROR_INVALID_HANDLE
  err.map fun err => (err.toInt32.toInt, win32error2string err)

def win32Port : PortKind World (Call × Answers) DWORD where
  limit := DWORD_MAX
  refusal := refusal win32error2string
  machine := uartMachine win32error2string
  signals := signals

variable {δ : Type} (D : Driver δ)

def read (buffer : List UInt8) (readsize : ℕ) (a : TransferAnswer DWORD) (p : Port World δ) :
    TransferResult × List UInt8 × δ := (win32Port win32error2string).read D buffer readsize a p

def write (buffer : List UInt8) (a : TransferAnswer DWORD) (p : Port World δ) : TransferResult × δ :=
  (win32Port win32error2string).write D buffer a p

/-- A new port after a session. -/
def portAfter (devicename : String) (timeouts : COMMTIMEOUTS) (state : DCB) (d : δ)
    (u : List (Action (Call × Answers) DWORD)) : Port World δ :=
  (portMachine (win32Port win32error2string) D).run ⟨.new devicename timeouts state, d⟩ u

end

/-! ## Sessions -/

theorem configureSignals_configured (a : Answers) (isopen : Bool) :
    ∀ s ∈ configureSignals a isopen, s = .configured := by
  unfold configureSignals
  split <;> simp

theorem timeoutSignals_configured (a : Answers) (isopen : Bool) :
    ∀ s ∈ timeoutSignals a isopen, s = .configured := by
  unfold timeoutSignals
  split <;> simp

/-- Only `open` and `close` tell the driver more than how to work from now on. -/
theorem setter_signals (w : World) (c : Call × Answers) (hopen : c.1 ≠ .openPort)
    (hclose : c.1 ≠ .close) : ∀ s ∈ signals w c, s = .configured := by
  have hconfigures : ∀ (known : Bool), ∀ s ∈ (if known then configureSignals c.2 w.uart.isopen else []),
      s = .configured := by
    intro known
    cases known with
    | true => exact configureSignals_configured c.2 w.uart.isopen
    | false => exact nofun
  obtain ⟨call, a⟩ := c
  cases call with
  | openPort => exact absurd rfl hopen
  | close => exact absurd rfl hclose
  | setBaudrate baud => exact hconfigures (enum2baud baud).isSome
  | setCharactersize charsize => exact hconfigures (enum2charsize charsize).isSome
  | setParity parity => exact hconfigures (enum2parity parity).isSome
  | setStopbits stopbits => exact configureSignals_configured a w.uart.isopen
  | setTimeout timeout => exact timeoutSignals_configured a w.uart.isopen

variable {δ : Type} (win32error2string : DWORD → String)

/-- **The stream through the Windows UART**, with any driver that keeps bytes in order: the books of every
session, from any point of it on. Until the next `open` or `close` nothing is lost, whatever is set, if the
driver keeps what it receives. -/
theorem stream_passed {D : Driver δ} (hD : D.InOrder) (devicename : String) (timeouts : COMMTIMEOUTS)
    (state : DCB) (d : δ) (made later : List (Action (Call × Answers) DWORD)) :
    let q := portAfter win32error2string D devicename timeouts state d made
    let session := (portMachine (win32Port win32error2string) D).trace q later
    let p := (portMachine (win32Port win32error2string) D).run q later
    StreamKept (win32Port win32error2string) D q later ∧
      (D.KeepsReceived →
        (∀ a, .control (.openPort, a) ∉ later ∧ .control (.close, a) ∉ later) →
          session.flatMap delivered ++ D.input p.driver =
              D.input q.driver ++ session.flatMap arriving ∧
            session.flatMap leaving ++ D.output p.driver =
              D.output q.driver ++ session.flatMap accepted) := by
  intro q session p
  have hkept := streamKept (K := win32Port win32error2string) hD q later
  refine ⟨hkept, fun hkeeps hcalls => (hkept.whole hkeeps).mpr ?_⟩
  rintro made' ⟨call, a⟩ later' hsplit
  have hmem : Action.control (call, a) ∈ later := by rw [hsplit]; simp
  refine hD.configures (setter_signals _ (call, a) ?_ ?_) _
  · rintro rfl
    exact (hcalls a).1 hmem
  · rintro rfl
    exact (hcalls a).2 hmem

/-- A setter in the middle of four bytes that are received. -/
def sampleSession : List (Action (Call × Answers) DWORD) :=
  [.receive [1, 2, 3], .read [0, 0] 2 ⟨none, 2⟩, .control (.setBaudrate .b1200, obliging),
    .receive [4]]

theorem sampleSession_passed :
    let q := portAfter (fun _ => "") queueDriver "COM1" ⟨0, 0, 0, 0, 0⟩ .zero ⟨[], []⟩
      [.control (.openPort, obliging)]
    let session := (portMachine (win32Port fun _ => "") queueDriver).trace q sampleSession
    let p := (portMachine (win32Port fun _ => "") queueDriver).run q sampleSession
    session.flatMap delivered ++ queueDriver.input p.driver = [1, 2, 3, 4] := by
  intro q session p
  obtain ⟨-, hwhole⟩ := stream_passed (fun _ => "") queueDriver_inOrder "COM1" ⟨0, 0, 0, 0, 0⟩ .zero
    ⟨[], []⟩ [.control (.openPort, obliging)] sampleSession
  obtain ⟨hinput, -⟩ := hwhole queueDriver_lossless.keepsReceived (by simp [sampleSession])
  exact hinput

/-! ## Closed handles -/

/-- Handles are told apart. -/
theorem freshHandle_spec (handles : List ℕ) (wanted : ℕ) :
    freshHandle handles wanted ∉ handles := by
  unfold freshHandle
  split
  · intro h
    have hle := List.le_sum_of_mem h
    omega
  · rename_i hnot
    exact fun h => hnot (Or.inl h)

theorem close_handles (a : Answers) (w : World) :
    (close a w).os.handles = w.os.handles ∨
      (close a w).os.handles = w.os.handles.erase w.uart.uarthandle.toNat := by
  unfold close osCloseHandle
  split
  · dsimp only
    split
    · exact Or.inl rfl
    · exact Or.inr rfl
  · exact Or.inl rfl

theorem nodup_perform {w : World} (h : w.os.handles.Nodup) (c : Call × Answers) :
    ((uartMachine win32error2string).step w c).1.os.handles.Nodup := by
  have hclosed (a : Answers) : (close a w).os.handles.Nodup := by
    obtain hsame | herased := close_handles a w
    · rw [hsame]
      exact h
    · rw [herased]
      exact h.erase _
  by_cases hopen : c.1 = .openPort
  · obtain ⟨call, a⟩ := c
    cases hopen
    show (openPort win32error2string a w).2.os.handles.Nodup
    cases herr : a.createFileError with
    | some err =>
      rw [openPort_refused win32error2string herr]
      exact hclosed a
    | none =>
      obtain ⟨⟨-, hhandles, -⟩, -⟩ :=
        configureOpened_spec win32error2string a (created a (close a w))
      rw [openPort_created win32error2string herr, hhandles]
      exact List.nodup_cons.mpr ⟨freshHandle_spec _ _, hclosed a⟩
  · by_cases hclose : c.1 = .close
    · obtain ⟨call, a⟩ := c
      cases hclose
      exact hclosed a
    · obtain ⟨⟨-, hhandles, -⟩, -⟩ := setter_frame win32error2string w c hopen hclose
      rw [hhandles]
      exact h

/-- What holds of the object between a `close` that closed its handle and the next `open`. -/
structure Stale (w : World) : Prop where
  flag : w.uart.isOpen = true
  handle : ¬ Valid w

theorem stale_close {w : World} (h : w.os.handles.Nodup) (hopen : w.uart.isOpen = true) {a : Answers}
    (ha : a.closeHandleFails = false) : Stale (close a w) := by
  have hflag : w.uart.isopen = true := hopen
  have hhandles : (close a w).os.handles = w.os.handles.erase w.uart.uarthandle.toNat := by
    simp [close, hflag, osCloseHandle, ha]
  constructor
  · rw [close_isopen]
    exact hopen
  · rintro ⟨-, hmem⟩
    rw [hhandles, close_isopen] at hmem
    exact h.not_mem_erase hmem

theorem stale_perform {w : World} (h : Stale w) {c : Call × Answers} (hc : c.1 ≠ .openPort) :
    Stale ((uartMachine win32error2string).step w c).1 := by
  by_cases hclose : c.1 = .close
  · obtain ⟨call, a⟩ := c
    cases hclose
    have huart := close_isopen a w
    refine ⟨?_, ?_⟩
    · show (close a w).uart.isOpen = true
      rw [huart]
      exact h.flag
    · rintro ⟨hnonneg, hmem⟩
      change 0 ≤ (close a w).uart.uarthandle at hnonneg
      change (close a w).uart.uarthandle.toNat ∈ (close a w).os.handles at hmem
      rw [huart] at hnonneg hmem
      refine h.handle ⟨hnonneg, ?_⟩
      obtain hsame | herased := close_handles a w
      · rw [hsame] at hmem
        exact hmem
      · rw [herased] at hmem
        exact List.mem_of_mem_erase hmem
  · obtain ⟨⟨hhandle, hhandles, -⟩, hflag⟩ := setter_frame win32error2string w c hc hclose
    refine ⟨hflag.trans h.flag, ?_⟩
    rw [Valid, hhandle, hhandles]
    exact h.handle

variable (D : Driver δ)

/-- Every transfer fails with the error of an invalid handle, and moves nothing. -/
structure Refuses (p : Port World δ) : Prop where
  reads : ∀ buffer readsize a, read win32error2string D buffer readsize a p =
    (.error (6, win32error2string ERROR_INVALID_HANDLE), buffer, p.driver)
  writes : ∀ buffer a, write win32error2string D buffer a p =
    (.error (6, win32error2string ERROR_INVALID_HANDLE), p.driver)

theorem Stale.refuses {p : Port World δ} (h : Stale p.world) : Refuses win32error2string D p := by
  have hrefusal : ∀ a, refusal win32error2string a p.world =
      some (6, win32error2string ERROR_INVALID_HANDLE) := by
    intro a
    simp only [refusal, if_neg h.handle]
    rfl
  constructor
  · intro buffer readsize a
    show transferRead D DWORD_MAX (refusal win32error2string a p.world) _ _ _ _ = _
    rw [hrefusal]
    rfl
  · intro buffer a
    show transferWrite D DWORD_MAX (refusal win32error2string a p.world) _ _ _ = _
    rw [hrefusal]
    rfl

/-- **A closed Windows UART says that it is open**: after a `close` that closed the handle, and until the
next `open`, whatever is called in between, the flag is set and every transfer is refused. -/
theorem stale_handle (devicename : String) (timeouts : COMMTIMEOUTS) (state : DCB) (d : δ)
    (made later : List (Action (Call × Answers) DWORD)) (a : Answers)
    (hopen : (portAfter win32error2string D devicename timeouts state d made).world.uart.isOpen = true)
    (hclose : a.closeHandleFails = false) (hlater : ∀ b, .control (.openPort, b) ∉ later) :
    let p := portAfter win32error2string D devicename timeouts state d
      (made ++ .control (.close, a) :: later)
    p.world.uart.isOpen = true ∧ Refuses win32error2string D p := by
  intro p
  have hnodup :
      (portAfter win32error2string D devicename timeouts state d made).world.os.handles.Nodup := by
    have hstep : ∀ w c, True → w.os.handles.Nodup →
        ((uartMachine win32error2string).step w c).1.os.handles.Nodup :=
      fun w c _ h => nodup_perform win32error2string h c
    rw [portAfter, run_world]
    exact (uartMachine win32error2string).run_invariant (fun w => w.os.handles.Nodup) hstep
      List.nodup_nil fun _ _ => trivial
  have hafter : Stale p.world := by
    have hrun : p.world = (uartMachine win32error2string).run
        (close a (portAfter win32error2string D devicename timeouts state d made).world)
          (controls later) := by
      show ((portMachine _ _).run _ _).world = _
      rw [Mealy.run_append, Mealy.run_cons, run_world]
      rfl
    rw [hrun]
    have hstep : ∀ w c, c.1 ≠ Call.openPort → Stale w →
        Stale ((uartMachine win32error2string).step w c).1 :=
      fun w c hc h => stale_perform win32error2string h hc
    refine (uartMachine win32error2string).run_invariant Stale hstep
      (stale_close hnodup hopen hclose) ?_
    rintro ⟨call, b⟩ hmem rfl
    exact hlater b (mem_controls.mp hmem)
  exact ⟨hafter.flag, hafter.refuses win32error2string D⟩

/-- The calls of a session that goes on after `close`. -/
theorem closed_stale :
    let p := portAfter (fun _ => "") queueDriver "COM1" ⟨0, 0, 0, 0, 0⟩ .zero ⟨[], []⟩
      ([.control (.openPort, obliging)] ++
        .control (.close, obliging) :: [.receive [1, 2], .control (.setBaudrate .b1200, obliging)])
    p.world.uart.isOpen = true ∧ Refuses (fun _ => "") queueDriver p :=
  stale_handle (fun _ => "") queueDriver "COM1" ⟨0, 0, 0, 0, 0⟩ .zero ⟨[], []⟩
    [.control (.openPort, obliging)] _ obliging (by decide) rfl (by simp)

end Avionicpp.Uart.Win32
