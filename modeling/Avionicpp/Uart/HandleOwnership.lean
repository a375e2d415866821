import Avionicpp.Uart.Win32UART

/-! # Who owns the handle

On Windows `close` leaves the flag and the handle as they are, so whatever closes next, another `close`,
an `open` or the destructor, passes the handle to `CloseHandle` again; and an `open` that fails after
`CreateFile` leaves with the flag set or with a handle that nothing closes. The object owns its handle
exactly in the sessions without either.
-/
namespace Avionicpp.Uart.Win32
open Foundations
set_option autoImplicit false

variable (win32error2string : DWORD → String)

/-! ## What is asked -/

/-- After a call: the flag says whether the object holds a handle that was not closed. -/
structure Accounts (w : World) : Prop where
  open_iff : w.uart.isOpen = true ↔
    ∃ handle : ℕ, w.uart.nativeHandle = handle ∧ handle ∈ w.os.ledger.held
  regular : w.os.ledger.Regular

/-- A session that keeps its accounts: after every call, for the result of every `open`, and over the
object's life, in which every handle is closed exactly once. -/
structure Accounted (w : World) (calls : List (Call × Answers)) : Prop where
  always : ∀ made, made <+: calls → Accounts ((uartMachine win32error2string).run w made)
  opens : ∀ made a, made ++ [(Call.openPort, a)] <+: calls →
    ((openPort win32error2string a ((uartMachine win32error2string).run w made)).1 = .ok true ↔
      ((uartMachine win32error2string).run w (made ++ [(Call.openPort, a)])).uart.isOpen = true)
  once : ∀ a, (destroy a ((uartMachine win32error2string).run w calls)).os.ledger.Regular ∧
    (destroy a ((uartMachine win32error2string).run w calls)).os.ledger.held = []

/-- The system does not fail to set the port up. -/
structure Configures (a : Answers) : Prop where
  setCommTimeouts : a.setCommTimeoutsError = none
  getCommState : a.getCommStateError = none
  setCommState : a.setCommStateError = none

/-- A call of `open` for which the system creates the handle but refuses to set the port up. -/
def RefusesConfiguration (c : Call × Answers) : Prop :=
  c.1 = .openPort ∧ c.2.createFileError = none ∧ ¬ Configures c.2

theorem configures_of_created {a : Answers} (hc : ¬ RefusesConfiguration (Call.openPort, a))
    (herr : a.createFileError = none) : Configures a := by
  by_contra hnot
  exact hc ⟨rfl, herr, hnot⟩

/-- The last `open` among the calls got a handle. -/
def opened (calls : List (Call × Answers)) : Bool :=
  calls.foldl (fun before c => if c.1 = .openPort then c.2.createFileError.isNone else before) false

/-- `close` is called after an `open` that got a handle, with no other `open` in between. -/
def ClosesOpened (calls : List (Call × Answers)) : Prop :=
  ∃ made a, made ++ [(Call.close, a)] <+: calls ∧ opened made = true

/-! ## What the operations do -/

/-- The handle and what the system keeps of handles are the same. -/
structure Keeps (w w' : World) : Prop where
  uarthandle : w'.uart.uarthandle = w.uart.uarthandle
  handles : w'.os.handles = w.os.handles
  ledger : w'.os.ledger = w.os.ledger

theorem Keeps.trans {w w' w'' : World} (h : Keeps w w') (h' : Keeps w' w'') : Keeps w w'' :=
  ⟨h'.uarthandle.trans h.uarthandle, h'.handles.trans h.handles, h'.ledger.trans h.ledger⟩

theorem configure_frame (a : Answers) (w : World) :
    Keeps w (configure win32error2string a w).2 ∧
      (configure win32error2string a w).2.uart.isopen = w.uart.isopen := by
  unfold configure
  split
  · exact ⟨⟨rfl, rfl, rfl⟩, rfl⟩
  · split
    · exact ⟨⟨rfl, rfl, rfl⟩, rfl⟩
    · dsimp only
      split <;> exact ⟨⟨rfl, rfl, rfl⟩, rfl⟩

theorem setTimeout_frame (timeout : ℤ) (a : Answers) (w : World) :
    Keeps w (setTimeout win32error2string timeout a w).2 ∧
      (setTimeout win32error2string timeout a w).2.uart.isopen = w.uart.isopen := by
  unfold setTimeout
  dsimp only
  split
  · split <;> exact ⟨⟨rfl, rfl, rfl⟩, rfl⟩
  · exact ⟨⟨rfl, rfl, rfl⟩, rfl⟩

theorem configure_setting (a : Answers) (w : World) (u : Win32UART)
    (hu : u.uarthandle = w.uart.uarthandle ∧ u.isopen = w.uart.isopen) :
    Keeps w (configure win32error2string a { w with uart := u }).2 ∧
      (configure win32error2string a { w with uart := u }).2.uart.isopen = w.uart.isopen := by
  obtain ⟨hkeeps, hopen⟩ := configure_frame win32error2string a { w with uart := u }
  have hsame : Keeps w { w with uart := u } := ⟨hu.1, rfl, rfl⟩
  exact ⟨hsame.trans hkeeps, hopen.trans hu.2⟩

/-- The setters touch neither the flag nor any handle. -/
theorem setter_frame (w : World) (c : Call × Answers) (hopen : c.1 ≠ .openPort)
    (hclose : c.1 ≠ .close) :
    Keeps w ((uartMachine win32error2string).step w c).1 ∧
      ((uartMachine win32error2string).step w c).1.uart.isopen = w.uart.isopen := by
  obtain ⟨call, a⟩ := c
  cases call with
  | openPort => exact absurd rfl hopen
  | close => exact absurd rfl hclose
  | setBaudrate baud =>
    simp only [uartMachine, perform, setBaudrate]
    split
    · exact configure_setting win32error2string a w _ ⟨rfl, rfl⟩
    · exact ⟨⟨rfl, rfl, rfl⟩, rfl⟩
  | setCharactersize charsize =>
    simp only [uartMachine, perform, setCharactersize]
    split
    · exact configure_setting win32error2string a w _ ⟨rfl, rfl⟩
    · exact ⟨⟨rfl, rfl, rfl⟩, rfl⟩
  | setParity parity =>
    simp only [uartMachine, perform, setParity]
    split
    · exact configure_setting win32error2string a w _ ⟨rfl, rfl⟩
    · exact ⟨⟨rfl, rfl, rfl⟩, rfl⟩
  | setStopbits stopbits => exact configure_setting win32error2string a w _ ⟨rfl, rfl⟩
  | setTimeout timeout => exact setTimeout_frame win32error2string timeout a w

/-- On an open port `configure` succeeds exactly if the system does not fail. -/
theorem configure_succeeds_iff (a : Answers) (w : World) (hopen : w.uart.isopen = true) :
    (configure win32error2string a w).1 = .ok true ↔
      a.getCommStateError = none ∧ a.setCommStateError = none := by
  cases hget : a.getCommStateError <;> cases hset : a.setCommStateError <;>
    simp [configure, hopen, hget, hset, failure]

theorem configureOpened_refused {a : Answers} {err : DWORD} (herr : a.setCommTimeoutsError = some err)
    (w : World) :
    configureOpened win32error2string a w =
      (.ok false, { w with uart := { w.uart with isopen := true } }) := by
  simp [configureOpened, setTimeout, herr, failure]

/-- `open` behind `CreateFile`: the flag stays set if the timeouts cannot be set, and is cleared if
the state cannot; in neither case is the handle closed. -/
theorem configureOpened_spec (a : Answers) (w : World) :
    Keeps w (configureOpened win32error2string a w).2 ∧
      ((configureOpened win32error2string a w).1 = .ok true ↔ Configures a) ∧
      ((configureOpened win32error2string a w).2.uart.isopen = true ↔
        a.setCommTimeoutsError ≠ none ∨ Configures a) := by
  have hset := setTimeout_frame win32error2string w.uart.timeout a
    { w with uart := { w.uart with isopen := true } }
  cases herr : a.setCommTimeoutsError with
  | some err =>
    have hnot : ¬ Configures a := fun h => by simp [h.setCommTimeouts] at herr
    rw [configureOpened_refused win32error2string herr]
    exact ⟨⟨rfl, rfl, rfl⟩, by simp [hnot], by simp⟩
  | none =>
    generalize hw : (setTimeout win32error2string w.uart.timeout a
      { w with uart := { w.uart with isopen := true } }).2 = w' at hset
    have hopen : w'.uart.isopen = true := hset.2
    have hok : (setTimeout win32error2string w.uart.timeout a
        { w with uart := { w.uart with isopen := true } }).1 = .ok true := by
      simp [setTimeout, herr]
    obtain ⟨hkeeps, -⟩ := configure_frame win32error2string a w'
    have hiff : (configure win32error2string a w').1 = .ok true ↔ Configures a := by
      rw [configure_succeeds_iff win32error2string a w' hopen]
      exact ⟨fun h => ⟨herr, h.1, h.2⟩, fun h => ⟨h.getCommState, h.setCommState⟩⟩
    have hpair : setTimeout win32error2string w.uart.timeout a
        { w with uart := { w.uart with isopen := true } } = (.ok true, w') :=
      Prod.ext hok hw
    have hkeeps' : Keeps w (configure win32error2string a w').2 :=
      Keeps.trans ⟨hset.1.uarthandle, hset.1.handles, hset.1.ledger⟩ hkeeps
    simp only [configureOpened, hpair]
    generalize configure win32error2string a w' = r at hiff hkeeps' ⊢
    obtain ⟨result, w''⟩ := r
    obtain ⟨hhandle, hhandles, hledger⟩ := hkeeps'
    cases result with
    | error e =>
      have hnot : ¬ Configures a := fun h => by simpa using hiff.mpr h
      refine ⟨⟨?_, ?_, ?_⟩, by simp [hnot], by simp [close, hnot]⟩ <;> simpa [close]
    | ok configured =>
      cases configured with
      | false =>
        have hnot : ¬ Configures a := fun h => by simpa using hiff.mpr h
        refine ⟨⟨?_, ?_, ?_⟩, by simp [hnot], by simp [close, hnot]⟩ <;> simpa [close]
      | true =>
        have hyes : Configures a := hiff.mp rfl
        exact ⟨⟨hhandle, hhandles, hledger⟩, by simp [hyes], by simp [hyes]⟩

/-- The world of `open` when `CreateFile` has returned a handle. -/
def created (a : Answers) (w : World) : World where
  uart := { w.uart with uarthandle := freshHandle w.os.handles a.handle }
  os := { w.os with
    handles := freshHandle w.os.handles a.handle :: w.os.handles
    ledger := .acquired (freshHandle w.os.handles a.handle) :: w.os.ledger }

theorem close_isopen (a : Answers) (w : World) : (close a w).uart = w.uart := by
  unfold close
  split <;> rfl

theorem openPort_refused {a : Answers} {err : DWORD} (h : a.createFileError = some err) (w : World) :
    openPort win32error2string a w =
      (failure win32error2string err,
        { close a w with
          uart := { w.uart with uarthandle := INVALID_HANDLE_VALUE, isopen := false } }) := by
  cases hopen : w.uart.isopen <;> simp [openPort, osCreateFile, close, h, hopen]

theorem openPort_created {a : Answers} (h : a.createFileError = none) (w : World) :
    openPort win32error2string a w =
      configureOpened win32error2string a (created a (close a w)) := by
  have hvalid : ∀ handle : ℕ, (handle : ℤ) ≠ INVALID_HANDLE_VALUE := by
    intro handle
    have hneg : INVALID_HANDLE_VALUE < 0 := by decide
    omega
  have hclose : (if w.uart.isopen = true then close a w else w) = close a w := by
    cases hopen : w.uart.isopen <;> simp [close, hopen]
  simp only [openPort, hclose, osCreateFile, h, if_neg (hvalid _)]
  rfl

/-- `open` returns true exactly if the flag is set afterwards, unless the port is not set up. -/
theorem openPort_result (a : Answers) (w : World)
    (hc : ¬ RefusesConfiguration (Call.openPort, a)) :
    (openPort win32error2string a w).1 = .ok true ↔
      (openPort win32error2string a w).2.uart.isOpen = true := by
  cases herr : a.createFileError with
  | some err =>
    rw [openPort_refused win32error2string herr]
    simp [failure, Win32UART.isOpen]
  | none =>
    have hconf := configures_of_created hc herr
    obtain ⟨-, hresult, hflag⟩ :=
      configureOpened_spec win32error2string a (created a (close a w))
    rw [openPort_created win32error2string herr]
    exact ⟨fun _ => hflag.mpr (Or.inr hconf), fun _ => hresult.mpr hconf⟩

/-! ## The flag -/

/-- A call leaves the flag alone, except that `open` sets it when it gets a handle. -/
theorem perform_isopen (w : World) (c : Call × Answers) (hc : ¬ RefusesConfiguration c) :
    ((uartMachine win32error2string).step w c).1.uart.isopen =
      if c.1 = .openPort then c.2.createFileError.isNone else w.uart.isopen := by
  by_cases hopen : c.1 = .openPort
  · obtain ⟨call, a⟩ := c
    cases hopen
    show (openPort win32error2string a w).2.uart.isopen = a.createFileError.isNone
    cases herr : a.createFileError with
    | some err => rw [openPort_refused win32error2string herr]; rfl
    | none =>
      rw [openPort_created win32error2string herr]
      exact (configureOpened_spec win32error2string a _).2.2.mpr
        (Or.inr (configures_of_created hc herr))
  · rw [if_neg hopen]
    by_cases hclose : c.1 = .close
    · obtain ⟨call, a⟩ := c
      cases hclose
      exact congrArg Win32UART.isopen (close_isopen a w)
    · exact (setter_frame win32error2string w c hopen hclose).2

theorem run_isopen {w : World} (hnew : w.uart.isopen = false) (calls : List (Call × Answers))
    (hcalls : ∀ c ∈ calls, ¬ RefusesConfiguration c) :
    ((uartMachine win32error2string).run w calls).uart.isopen = opened calls := by
  induction calls using List.reverseRecOn with
  | nil => exact hnew
  | append_singleton calls c ih =>
    have hbefore := ih fun x hx => hcalls x (List.mem_append_left _ hx)
    have hlast : ¬ RefusesConfiguration c := hcalls c (by simp)
    rw [Mealy.run_concat, perform_isopen win32error2string _ c hlast, hbefore]
    simp [opened, List.foldl_append]

/-! ## Sessions -/

/-- What a session without the two defects preserves: the flag is set exactly while one handle is
held, the object's. -/
structure Sound (w : World) : Prop where
  holds : w.uart.isopen = true →
    ∃ handle : ℕ, w.uart.uarthandle = handle ∧ w.os.ledger.held = [handle]
  empty : w.uart.isopen = false → w.os.ledger.held = []
  regular : w.os.ledger.Regular

theorem Sound.accounts {w : World} (h : Sound w) : Accounts w := by
  refine ⟨⟨fun hopen => ?_, fun hholds => ?_⟩, h.regular⟩
  · obtain ⟨handle, hhandle, hheld⟩ := h.holds hopen
    exact ⟨handle, hhandle, by simp [hheld]⟩
  · obtain ⟨handle, -, hmem⟩ := hholds
    cases hopen : w.uart.isopen with
    | true => exact hopen
    | false => simp [h.empty hopen] at hmem

theorem Sound.frame {w w' : World} (h : Sound w) (hkeeps : Keeps w w')
    (hopen : w'.uart.isopen = w.uart.isopen) : Sound w' := by
  obtain ⟨hhandle, -, hledger⟩ := hkeeps
  constructor
  · rw [hopen, hhandle, hledger]
    exact h.holds
  · rw [hopen, hledger]
    exact h.empty
  · rw [hledger]
    exact h.regular

theorem close_ledger {w : World} (h : Sound w) (a : Answers) :
    (close a w).os.ledger.Regular ∧ (close a w).os.ledger.held = [] := by
  cases hopen : w.uart.isopen with
  | false =>
    have hclose : close a w = w := by simp [close, hopen]
    rw [hclose]
    exact ⟨h.regular, h.empty hopen⟩
  | true =>
    obtain ⟨handle, hhandle, hheld⟩ := h.holds hopen
    have hledger : (close a w).os.ledger = .released handle :: w.os.ledger := by
      simp [close, hopen, osCloseHandle, hhandle]
    rw [hledger]
    refine ⟨⟨?_, h.regular⟩, ?_⟩
    · simp [hheld]
    · simp [Ledger.held, hheld]

theorem sound_openPort {w : World} (h : Sound w) (a : Answers)
    (hok : a.createFileError = none → Configures a) :
    Sound (openPort win32error2string a w).2 := by
  obtain ⟨hregular, hheld⟩ := close_ledger h a
  cases herr : a.createFileError with
  | some err =>
    rw [openPort_refused win32error2string herr]
    exact ⟨fun hopen => absurd hopen (by simp), fun _ => hheld, hregular⟩
  | none =>
    obtain ⟨⟨hhandle, -, hledger⟩, -, hopen⟩ :=
      configureOpened_spec win32error2string a (created a (close a w))
    have hflag := hopen.mpr (Or.inr (hok herr))
    have hnext : (created a (close a w)).os.ledger.held =
        [freshHandle (close a w).os.handles a.handle] := by
      simp [created, Ledger.held, hheld]
    rw [openPort_created win32error2string herr]
    refine ⟨fun _ => ⟨_, hhandle, ?_⟩, fun hclosed => ?_, ?_⟩
    · rw [hledger, hnext]
    · exact absurd (hflag.symm.trans hclosed) (by simp)
    · rw [hledger]
      refine ⟨?_, hregular⟩
      rw [hheld]
      exact List.not_mem_nil

/-- **One call** keeps the object sound, unless the system refuses to set up a port that it opens, or
the call is `close` with the flag set. -/
theorem sound_perform {w : World} (h : Sound w) (c : Call × Answers)
    (hc : ¬ RefusesConfiguration c) (hclose : c.1 = .close → w.uart.isopen = false) :
    Sound ((uartMachine win32error2string).step w c).1 := by
  by_cases hopen : c.1 = .openPort
  · obtain ⟨call, a⟩ := c
    cases hopen
    exact sound_openPort win32error2string h a (configures_of_created hc)
  · by_cases hcall : c.1 = .close
    · obtain ⟨call, a⟩ := c
      have hsame : close a w = w := by simp [close, hclose hcall]
      cases hcall
      show Sound (close a w)
      rw [hsame]
      exact h
    · obtain ⟨hkeeps, hflag⟩ := setter_frame win32error2string w c hopen hcall
      exact h.frame hkeeps hflag

theorem sound_run {w : World} (h : Sound w) (hnew : w.uart.isopen = false)
    (calls : List (Call × Answers)) (hcalls : ∀ c ∈ calls, ¬ RefusesConfiguration c)
    (hcloses : ¬ ClosesOpened calls) : Sound ((uartMachine win32error2string).run w calls) := by
  induction calls using List.reverseRecOn with
  | nil => exact h
  | append_singleton calls c ih =>
    have hearlier : ∀ x ∈ calls, ¬ RefusesConfiguration x :=
      fun x hx => hcalls x (List.mem_append_left _ hx)
    have hbefore : ¬ ClosesOpened calls := by
      rintro ⟨made, a, hfront, hopened⟩
      exact hcloses ⟨made, a, hfront.trans (List.prefix_append ..), hopened⟩
    rw [Mealy.run_concat]
    apply sound_perform win32error2string (ih hearlier hbefore) c (hcalls c (by simp))
    intro hclose
    rw [run_isopen win32error2string hnew calls hearlier]
    obtain ⟨call, a⟩ := c
    cases hclose
    cases hopened : opened calls with
    | false => rfl
    | true => exact absurd ⟨calls, a, List.prefix_rfl, hopened⟩ hcloses

/-- A refused configuration breaks the accounts of the call, whatever the world was. -/
theorem refused_breaks {a : Answers} (herr : a.createFileError = none) (hc : ¬ Configures a)
    (w : World)
    (hopens : (openPort win32error2string a w).1 = .ok true ↔
      (openPort win32error2string a w).2.uart.isOpen = true) :
    ¬ Accounts (openPort win32error2string a w).2 := by
  obtain ⟨⟨hhandle, -, hledger⟩, hresult, hflag⟩ :=
    configureOpened_spec win32error2string a (created a (close a w))
  rw [← openPort_created win32error2string herr] at hhandle hledger hresult hflag
  -- the result is not `true`, so the flag is clear, but the handle is open
  have hclear : (openPort win32error2string a w).2.uart.isOpen ≠ true :=
    fun hopen => hc (hresult.mp (hopens.mpr hopen))
  intro haccounts
  refine hclear (haccounts.open_iff.mpr ⟨_, hhandle, ?_⟩)
  rw [hledger]
  simp [created, Ledger.held]

/-- Closing an open port breaks the accounts: the flag stays set over a closed handle. -/
theorem close_breaks {w : World} (hopen : w.uart.isopen = true) (h : Accounts w) (a : Answers) :
    ¬ Accounts (close a w) := by
  obtain ⟨handle, hhandle, hmem⟩ := h.open_iff.mp hopen
  have hhandle' : w.uart.uarthandle = handle := hhandle
  have huart := close_isopen a w
  have hledger : (close a w).os.ledger = .released handle :: w.os.ledger := by
    simp [close, hopen, osCloseHandle, hhandle']
  intro hclosed
  have hflag : (close a w).uart.isOpen = true := by rw [huart]; exact hopen
  obtain ⟨handle', hsame, hmem'⟩ := hclosed.open_iff.mp hflag
  have heq : (handle' : ℤ) = handle := by
    rw [huart] at hsame
    exact hsame.symm.trans hhandle
  rw [hledger, Int.natCast_inj.mp heq] at hmem'
  exact (Ledger.held_nodup _ h.regular).not_mem_erase hmem'

/-- **Ownership of the handle**: a session keeps its accounts if and only if the system never refuses
to set up a port that it opens and `close` is never called on a port that was opened. -/
theorem handle_owned_iff (devicename : String) (timeouts : COMMTIMEOUTS) (state : DCB)
    (calls : List (Call × Answers)) :
    Accounted win32error2string (.new devicename timeouts state) calls ↔
      (∀ c ∈ calls, ¬ RefusesConfiguration c) ∧ ¬ ClosesOpened calls := by
  have hnew : Sound (.new devicename timeouts state) :=
    ⟨fun hopen => absurd hopen (by simp [World.new, Win32UART.new]), fun _ => rfl, trivial⟩
  constructor
  · intro h
    have hcalls : ∀ c ∈ calls, ¬ RefusesConfiguration c := by
      rintro ⟨call, a⟩ hmem ⟨rfl, herr, hc⟩
      obtain ⟨made, later, rfl⟩ := List.append_of_mem hmem
      have hfront : made ++ [(Call.openPort, a)] <+: made ++ (Call.openPort, a) :: later :=
        ⟨later, by simp⟩
      have hafter := h.always _ hfront
      have hopens := h.opens made a hfront
      rw [Mealy.run_concat] at hafter hopens
      exact refused_breaks win32error2string herr hc _ hopens hafter
    refine ⟨hcalls, ?_⟩
    rintro ⟨made, a, hfront, hopened⟩
    have hmade : made <+: calls := (List.prefix_append made _).trans hfront
    have hflag := run_isopen win32error2string (w := .new devicename timeouts state) rfl made
      fun c hc => hcalls c (hmade.subset hc)
    have hafter := h.always _ hfront
    rw [Mealy.run_concat] at hafter
    exact close_breaks (hflag.trans hopened) (h.always made hmade) a hafter
  · rintro ⟨hcalls, hcloses⟩
    have hsound : ∀ made, made <+: calls →
        Sound ((uartMachine win32error2string).run (.new devicename timeouts state) made) := by
      intro made hfront
      apply sound_run win32error2string hnew rfl made fun c hc => hcalls c (hfront.subset hc)
      rintro ⟨made', a, hfront', hopened⟩
      exact hcloses ⟨made', a, hfront'.trans hfront, hopened⟩
    refine ⟨fun made hfront => (hsound made hfront).accounts, ?_, ?_⟩
    · intro made a hfront
      have hmem : (Call.openPort, a) ∈ calls := hfront.subset (by simp)
      rw [Mealy.run_concat]
      exact openPort_result win32error2string a _ (hcalls _ hmem)
    · intro a
      exact close_ledger (hsound calls List.prefix_rfl) a

/-- The system does whatever it is asked to, and would like handles to be 4. -/
def obliging : Answers where
  handle := 4
  createFileError := none
  setCommTimeoutsError := none
  getCommStateError := none
  setCommStateError := none
  closeHandleFails := false

/-- After `open` and `close` the object is still open, and the destructor closes the handle again. -/
theorem handle_closed_twice :
    let new := World.new "COM1" ⟨0, 0, 0, 0, 0⟩ .zero
    let calls := [(Call.openPort, obliging), (Call.close, obliging)]
    let w := (uartMachine fun _ => "").run new calls
    w.uart.isOpen = true ∧
      (destroy obliging w).os.ledger = [.released 4, .released 4, .acquired 4] ∧
      ¬ Accounted (fun _ => "") new calls := by
  refine ⟨by decide, by decide, fun h => ?_⟩
  exact absurd (h.once obliging).1 (by decide)

end Avionicpp.Uart.Win32
