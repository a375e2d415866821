import Avionicpp.Uart.HandleOwnership
import Avionicpp.Uart.PortSettings
import Mathlib.Tactic.Linarith
import Mathlib.Tactic.NormNum
import Mathlib.Tactic.Positivity

/-! # The settings of the Windows port

What the object remembers is what it was asked for, one and a half stop bits included, and a success
hands all of it to the port. But the character size goes there in the code of another table, in which
only eight and sixteen data bits have their own number, and the getter of the stop bits knows two values.
The timeouts are those of the last success, with intervals of a millisecond at any rate.
-/
namespace Avionicpp.Uart.Win32
open Foundations
set_option autoImplicit false

/-! ## What is asked -/

def Win32UART.settings (u : Win32UART) : Settings where
  baudrate := u.getBaudrate
  charactersize := u.getCharactersize
  parity := u.getParity
  stopbits := u.getStopbits
  timeout := u.getTimeout

def succeeded : Option Result → Bool
  | some (.ok configured) => configured
  | _ => false

/-- A setting that the tables know is recorded whatever the system says, a timeout only if it agrees. -/
def record (s : Settings) (call : Call) (result : Option Result) : Settings :=
  match call with
  | .openPort | .close => s
  | .setBaudrate baud => if (enum2baud baud).isSome then { s with baudrate := baud } else s
  | .setCharactersize charsize =>
    if (enum2charsize charsize).isSome then { s with charactersize := charsize } else s
  | .setParity parity => if (enum2parity parity).isSome then { s with parity := parity } else s
  | .setStopbits stopbits =>
    { s with
      stopbits := if stopbits = .sb1_5 then .sb1_5 else if stopbits = .sb2 then .sb2 else .sb1 }
  | .setTimeout timeout => if succeeded result then { s with timeout := timeout } else s

/-- What a session has asked for. -/
def asked (session : List ((Call × Answers) × Option Result)) : Settings :=
  session.foldl (fun s x => record s x.1.1 x.2) .initial

/-- As the getters tell it. -/
def reported (s : Settings) : Settings :=
  { s with stopbits := if s.stopbits = .sb1 then .sb1 else .sb2 }

/-- A serial line, in numbers; the stop bits are counted in halves. -/
structure CommLine where
  bitsPerSecond : ℕ
  dataBits : ℕ
  parity : Parity
  stopHalves : ℕ
  deriving DecidableEq

def stopHalves : StopBits → Option ℕ
  | .sb1 => some 2
  | .sb1_5 => some 3
  | .sb2 => some 4
  | .other _ => none

def commLine (s : Settings) : Option CommLine := do
  let bitsPerSecond ← s.baudrate.bitsPerSecond
  let dataBits ← s.charactersize.dataBits
  let halves ← stopHalves s.stopbits
  some
    { bitsPerSecond := bitsPerSecond
      dataBits := dataBits
      parity := s.parity
      stopHalves := halves }

/-- The line that the state of a port describes. -/
def DCB.line (d : DCB) : Option CommLine := do
  let parity ← [(0, Parity.none), (1, .odd), (2, .even), (3, .mark), (4, .space)].lookup d.parity
  let halves ← [(0, 2), (1, 3), (2, 4)].lookup d.stopBits
  some
    { bitsPerSecond := d.baudRate.toNat
      dataBits := d.byteSize.toNat
      parity := parity
      stopHalves := halves }

/-- Calls that hand the settings to the port. -/
def Configuring (call : Call) : Prop := call ≠ .close ∧ ∀ timeout, call ≠ .setTimeout timeout

/-- Calls that hand the timeout to the port. -/
def Timing (w : World) (call : Call) : Prop :=
  call = .openPort ∨ w.uart.isopen = true ∧ ∃ timeout, call = .setTimeout timeout

/-- After a call that leaves the given settings. -/
structure InForce (s : Settings) (w : World) (call : Call) (result : Option Result) (w' : World) :
    Prop where
  settings : w'.uart.settings = reported s
  configured : Configuring call → succeeded result = true →
    w'.uart.currentdcb = w'.os.state ∧ w'.os.state.others = w.os.state.others ∧ (commLine s).isSome ∧
      (w'.os.state.line = commLine s ↔ s.charactersize = .cs8 ∨ s.charactersize = .cs16)
  refused : ¬ (Configuring call ∧ succeeded result = true) →
    w'.os.state = w.os.state ∧ w'.uart.currentdcb = w.uart.currentdcb
  timed : Timing w call → succeeded result = true →
    w'.os.timeouts = ⟨1, 1, UInt32.ofInt s.timeout, 1, UInt32.ofInt s.timeout⟩
  untimed : ¬ Timing w call → w'.os.timeouts = w.os.timeouts

/-! ## The tables -/

/-- The members of the object encode these settings. -/
structure Caches (u : Win32UART) (s : Settings) : Prop where
  baudrate : enum2baud s.baudrate = some u.baudrate
  charactersize : enum2charsize s.charactersize = some u.charactersize
  parity : enum2parity s.parity = some u.parity
  stopbits : (s.stopbits, u.stopbits) ∈
    [(StopBits.sb1, ONESTOPBIT), (.sb1_5, ONE5STOPBITS), (.sb2, TWOSTOPBITS)]
  timeout : s.timeout = u.timeout

theorem Caches.settings {u : Win32UART} {s : Settings} (h : Caches u s) :
    u.settings = reported s := by
  obtain ⟨hbaud, hcharsize, hparity, hstopbits, htimeout⟩ := h
  have hstop : u.getStopbits = if s.stopbits = .sb1 then .sb1 else .sb2 := by
    simp only [List.mem_cons, Prod.mk.injEq, List.not_mem_nil, or_false] at hstopbits
    obtain ⟨hs, hu⟩ | ⟨hs, hu⟩ | ⟨hs, hu⟩ := hstopbits <;> rw [Win32UART.getStopbits, hs, hu] <;> rfl
  rw [Win32UART.settings, Win32UART.getBaudrate, baud2enum_enum2baud hbaud,
    Win32UART.getCharactersize, charsize2enum_enum2charsize hcharsize, Win32UART.getParity,
    parity2enum_enum2parity hparity, hstop, Win32UART.getTimeout, ← htimeout]
  rfl

/-- The other members may change. -/
theorem Caches.congr {u u' : Win32UART} {s : Settings} (h : Caches u s)
    (hsame : (u'.baudrate, u'.charactersize, u'.parity, u'.stopbits, u'.timeout) =
      (u.baudrate, u.charactersize, u.parity, u.stopbits, u.timeout)) : Caches u' s := by
  simp only [Prod.mk.injEq] at hsame
  obtain ⟨hbaud, hsize, hparity, hstop, htimeout⟩ := hsame
  obtain ⟨h1, h2, h3, h4, h5⟩ := h
  rw [← hbaud] at h1
  rw [← hsize] at h2
  rw [← hparity] at h3
  rw [← hstop] at h4
  rw [← htimeout] at h5
  exact ⟨h1, h2, h3, h4, h5⟩

theorem enum2baud_rate {baud : BaudRate} {rate : DWORD} (h : enum2baud baud = some rate) :
    baud.bitsPerSecond = some rate.toNat := by
  cases baud <;> cases h <;> rfl

theorem enum2parity_code {parity : Parity} {code : BYTE} (h : enum2parity parity = some code) :
    [(0, Parity.none), (1, .odd), (2, .even), (3, .mark), (4, .space)].lookup code = some parity := by
  cases parity <;> cases h <;> rfl

/-- The table of character sizes has the number of data bits for two of them. -/
theorem enum2charsize_dataBits {charsize : CharacterSize} {size : WORD}
    (h : enum2charsize charsize = some size) :
    ∃ n, charsize.dataBits = some n ∧
      (size.toUInt8.toNat = n ↔ charsize = .cs8 ∨ charsize = .cs16) := by
  cases charsize <;> cases h <;> exact ⟨_, rfl, by decide⟩

/-- The state that `configure` asks for. -/
def requestedState (u : Win32UART) (state : DCB) : DCB :=
  { state with
    baudRate := u.baudrate
    byteSize := u.charactersize.toUInt8
    parity := u.parity
    stopBits := u.stopbits }

theorem stopbits_halves {u : Win32UART} {s : Settings} (h : Caches u s) :
    ∃ halves, stopHalves s.stopbits = some halves ∧
      [((0 : BYTE), 2), (1, 3), (2, 4)].lookup u.stopbits = some halves := by
  have hstopbits := h.stopbits
  simp only [List.mem_cons, Prod.mk.injEq, List.not_mem_nil, or_false] at hstopbits
  obtain ⟨hs, hu⟩ | ⟨hs, hu⟩ | ⟨hs, hu⟩ := hstopbits <;> rw [hs, hu] <;> exact ⟨_, rfl, rfl⟩

/-- The line that `configure` asks for, with the code of the character size for its data bits. -/
theorem requestedState_port {u : Win32UART} {s : Settings} (h : Caches u s) (state : DCB) {halves : ℕ}
    (hhalves : [((0 : BYTE), 2), (1, 3), (2, 4)].lookup u.stopbits = some halves) :
    (requestedState u state).line = some
      { bitsPerSecond := u.baudrate.toNat
        dataBits := u.charactersize.toUInt8.toNat
        parity := s.parity
        stopHalves := halves } := by
  simp only [DCB.line, requestedState, enum2parity_code h.parity, hhalves]
  rfl

theorem requestedState_line {u : Win32UART} {s : Settings} (h : Caches u s) (state : DCB) :
    (commLine s).isSome ∧ ((requestedState u state).line = commLine s ↔
      s.charactersize = .cs8 ∨ s.charactersize = .cs16) := by
  obtain ⟨n, hbits, hiff⟩ := enum2charsize_dataBits h.charactersize
  obtain ⟨halves, hasked, hcode⟩ := stopbits_halves h
  have hline : commLine s = some
      { bitsPerSecond := u.baudrate.toNat
        dataBits := n
        parity := s.parity
        stopHalves := halves } := by
    rw [commLine, enum2baud_rate h.baudrate, hbits, hasked]
    rfl
  rw [hline, requestedState_port h state hcode, ← hiff, Option.some.injEq, CommLine.mk.injEq]
  exact ⟨rfl, fun h => h.2.1, fun h => ⟨rfl, h, rfl, rfl⟩⟩

theorem bittimeMs_floor (baudrate : DWORD) : ⌊bittimeMs baudrate⌋ = 0 := by
  rw [Int.floor_eq_zero_iff, Set.mem_Ico, bittimeMs]
  split
  · rename_i hpos
    have hone : (1 : ℚ) ≤ (baudrate.toNat : ℚ) := by
      have hnat : 0 < baudrate.toNat := UInt32.lt_iff_toNat_lt.mp hpos
      exact_mod_cast hnat
    have hinv : (1 : ℚ) / 1000 / (baudrate.toNat : ℚ) ≤ 1 / 1000 :=
      div_le_self (by norm_num) hone
    constructor
    · positivity
    · linarith
  · norm_num

/-- **The intervals do not depend on the rate**: what is computed as a bit time is never as long as one
of the units that it is rounded to. -/
theorem commTimeouts_eq (baudrate : DWORD) (timeout : ℤ) : commTimeouts baudrate timeout =
    ⟨1, 1, UInt32.ofInt timeout, 1, UInt32.ofInt timeout⟩ := by
  have hmultiplier : max 1 (UInt32.ofNat ⌊bittimeMs baudrate⌋.toNat) = 1 := by
    rw [bittimeMs_floor]
    rfl
  rw [commTimeouts, hmultiplier]

/-! ## What the operations do -/

variable (win32error2string : DWORD → String)

theorem configure_cases (a : Answers) (w : World) :
    succeeded (some (configure win32error2string a w).1) = false ∧
        (configure win32error2string a w).2 = w ∨
      configure win32error2string a w =
        (.ok true,
          { uart := { w.uart with currentdcb := requestedState w.uart w.os.state }
            os := { w.os with state := requestedState w.uart w.os.state } }) := by
  unfold configure
  split
  · exact Or.inl ⟨rfl, rfl⟩
  · split
    · exact Or.inl ⟨rfl, rfl⟩
    · dsimp only
      split
      · exact Or.inl ⟨rfl, rfl⟩
      · exact Or.inr rfl

/-- A call that changes nothing in the port. -/
theorem inForce_refused {s : Settings} {w w' : World} (h : Caches w'.uart s) {call : Call}
    {result : Option Result} (hresult : succeeded result = false) (hstate : w'.os.state = w.os.state)
    (hdcb : w'.uart.currentdcb = w.uart.currentdcb)
    (htimeouts : ¬ Timing w call → w'.os.timeouts = w.os.timeouts) :
    InForce s w call result w' := by
  refine ⟨h.settings, ?_, fun _ => ⟨hstate, hdcb⟩, ?_, htimeouts⟩
  · intro _ hsuccess
    rw [hresult] at hsuccess
    cases hsuccess
  · intro _ hsuccess
    rw [hresult] at hsuccess
    cases hsuccess

/-- What the setters that configure have in common. -/
theorem configure_inForce {s : Settings} {u : Win32UART} (hu : Caches u s) (a : Answers) {w : World}
    (hdcb : u.currentdcb = w.uart.currentdcb) {call : Call} (hcall : Configuring call)
    (htiming : ¬ Timing w call) :
    Caches (configure win32error2string a { w with uart := u }).2.uart s ∧
      InForce s w call (some (configure win32error2string a { w with uart := u }).1)
        (configure win32error2string a { w with uart := u }).2 := by
  obtain ⟨hfail, hsame⟩ | hdone := configure_cases win32error2string a { w with uart := u }
  · rw [hsame]
    exact ⟨hu, inForce_refused hu hfail rfl hdcb fun _ => rfl⟩
  · rw [hdone]
    have hcaches : Caches { u with currentdcb := requestedState u w.os.state } s := hu.congr rfl
    obtain ⟨hsome, hline⟩ := requestedState_line hu w.os.state
    refine ⟨hcaches, hcaches.settings, fun _ _ => ⟨rfl, rfl, hsome, hline⟩, ?_, ?_, fun _ => rfl⟩
    · intro hnot
      exact absurd ⟨hcall, rfl⟩ hnot
    · intro htimed
      exact absurd htimed htiming

theorem close_frame (a : Answers) (w : World) :
    (close a w).os.state = w.os.state ∧ (close a w).os.timeouts = w.os.timeouts := by
  unfold close
  split <;> exact ⟨rfl, rfl⟩

/-- The world in which `open` configures the port. -/
def timed (w : World) : World where
  uart := { w.uart with isopen := true }
  os := { w.os with timeouts := commTimeouts w.uart.baudrate w.uart.timeout }

theorem configureOpened_timed {a : Answers} (h : a.setCommTimeoutsError = none) (w : World) :
    ∃ isopen, configureOpened win32error2string a w =
      ((configure win32error2string a (timed w)).1,
        { (configure win32error2string a (timed w)).2 with
          uart := { (configure win32error2string a (timed w)).2.uart with isopen := isopen } }) := by
  have hset : setTimeout win32error2string w.uart.timeout a
      { w with uart := { w.uart with isopen := true } } = (.ok true, timed w) := by
    simp [setTimeout, h, timed]
  simp only [configureOpened, hset]
  generalize configure win32error2string a (timed w) = r
  obtain ⟨result, w'⟩ := r
  cases result with
  | error e => exact ⟨false, rfl⟩
  | ok configured =>
    cases configured with
    | false => exact ⟨false, rfl⟩
    | true => exact ⟨true, rfl⟩

theorem openPort_inForce {s : Settings} {w : World} (h : Caches w.uart s) (a : Answers) :
    Caches (openPort win32error2string a w).2.uart s ∧
      InForce s w .openPort (some (openPort win32error2string a w).1)
        (openPort win32error2string a w).2 := by
  have htiming : ¬ Timing w .openPort → ∀ timeouts : COMMTIMEOUTS, timeouts = w.os.timeouts :=
    fun hnot => absurd (Or.inl rfl) hnot
  obtain ⟨hstate, -⟩ := close_frame a w
  have hdcb : (close a w).uart.currentdcb = w.uart.currentdcb := by rw [close_isopen]
  cases hcreate : a.createFileError with
  | some err =>
    rw [openPort_refused win32error2string hcreate]
    have hcaches : Caches { w.uart with uarthandle := INVALID_HANDLE_VALUE, isopen := false } s :=
      h.congr rfl
    exact ⟨hcaches, inForce_refused hcaches rfl hstate rfl fun hnot => htiming hnot _⟩
  | none =>
    rw [openPort_created win32error2string hcreate]
    have hcreated : Caches (created a (close a w)).uart s := by
      rw [created, close_isopen]
      exact h.congr rfl
    generalize hw : created a (close a w) = w₁ at hcreated
    have hstate₁ : w₁.os.state = w.os.state := by rw [← hw]; exact hstate
    have hdcb₁ : w₁.uart.currentdcb = w.uart.currentdcb := by rw [← hw]; exact hdcb
    cases htime : a.setCommTimeoutsError with
    | some err =>
      rw [configureOpened_refused win32error2string htime]
      have hcaches : Caches { w₁.uart with isopen := true } s := hcreated.congr rfl
      exact ⟨hcaches, inForce_refused hcaches rfl hstate₁ hdcb₁ fun hnot => htiming hnot _⟩
    | none =>
      obtain ⟨isopen, hopened⟩ := configureOpened_timed win32error2string htime w₁
      rw [hopened]
      obtain ⟨hfail, hsame⟩ | hdone := configure_cases win32error2string a (timed w₁)
      · rw [hsame]
        have hcaches : Caches { (timed w₁).uart with isopen := isopen } s := hcreated.congr rfl
        exact ⟨hcaches, inForce_refused hcaches hfail hstate₁ hdcb₁ fun hnot => htiming hnot _⟩
      · rw [hdone]
        have hcaches : Caches { (timed w₁).uart with
            currentdcb := requestedState (timed w₁).uart (timed w₁).os.state
            isopen := isopen } s := hcreated.congr rfl
        obtain ⟨hsome, hline⟩ :=
          requestedState_line (u := (timed w₁).uart) (hcreated.congr rfl) (timed w₁).os.state
        have hothers : (timed w₁).os.state.others = w.os.state.others := congrArg DCB.others hstate₁
        refine ⟨hcaches, hcaches.settings, fun _ _ => ⟨rfl, hothers, hsome, hline⟩, ?_, ?_,
          fun hnot => htiming hnot _⟩
        · intro hnot
          refine absurd ⟨⟨?_, ?_⟩, rfl⟩ hnot
          · intro hclose
            cases hclose
          · intro timeout htimeout
            cases htimeout
        · intro _ _
          rw [hcreated.timeout]
          exact commTimeouts_eq w₁.uart.baudrate w₁.uart.timeout

theorem setTimeout_inForce {s : Settings} {w : World} (h : Caches w.uart s) (timeout : ℤ)
    (a : Answers) :
    let result := some (setTimeout win32error2string timeout a w).1
    Caches (setTimeout win32error2string timeout a w).2.uart (record s (.setTimeout timeout) result) ∧
      InForce (record s (.setTimeout timeout) result) w (.setTimeout timeout) result
        (setTimeout win32error2string timeout a w).2 := by
  have hnot : ¬ Configuring (.setTimeout timeout) := fun h => h.2 timeout rfl
  have hset : Caches { w.uart with timeout := timeout } { s with timeout := timeout } :=
    ⟨h.baudrate, h.charactersize, h.parity, h.stopbits, rfl⟩
  cases hopen : w.uart.isopen with
  | false =>
    have huntimed : ¬ Timing w (.setTimeout timeout) := by
      rintro (hcall | ⟨hyes, -⟩)
      · cases hcall
      · rw [hopen] at hyes
        cases hyes
    have hdone : setTimeout win32error2string timeout a w =
        (.ok true, { w with uart := { w.uart with timeout := timeout } }) := by
      simp [setTimeout, hopen]
    rw [hdone]
    exact ⟨hset, hset.settings, fun hcall => absurd hcall hnot, fun _ => ⟨rfl, rfl⟩,
      fun htimed => absurd htimed huntimed, fun _ => rfl⟩
  | true =>
    cases htime : a.setCommTimeoutsError with
    | some err =>
      have hdone : setTimeout win32error2string timeout a w = (failure win32error2string err, w) := by
        simp [setTimeout, hopen, htime]
      rw [hdone]
      exact ⟨h, inForce_refused h rfl rfl rfl fun _ => rfl⟩
    | none =>
      have hdone : setTimeout win32error2string timeout a w =
          (.ok true,
            { uart := { w.uart with timeout := timeout }
              os := { w.os with timeouts := commTimeouts w.uart.baudrate timeout } }) := by
        simp [setTimeout, hopen, htime]
      rw [hdone]
      refine ⟨hset, hset.settings, fun hcall => absurd hcall hnot, fun _ => ⟨rfl, rfl⟩, ?_, ?_⟩
      · exact fun _ _ => commTimeouts_eq w.uart.baudrate timeout
      · intro huntimed
        exact absurd (Or.inr ⟨hopen, timeout, rfl⟩) huntimed

/-- **One call**: the object remembers what it records, and what the port then works with. -/
theorem perform_inForce {s : Settings} {w : World} (h : Caches w.uart s) (call : Call) (a : Answers) :
    let after := perform win32error2string w call a
    Caches after.1.uart (record s call after.2) ∧
      InForce (record s call after.2) w call after.2 after.1 := by
  have hrefused : ∀ error : Error, ¬ Timing w call → Caches w.uart s ∧
      InForce s w call (some (.error error)) w :=
    fun _ _ => ⟨h, inForce_refused h rfl rfl rfl fun _ => rfl⟩
  have hcached := h
  obtain ⟨hbaud, hcharsize, hparity, hstopbits, htimeout⟩ := hcached
  cases call with
  | openPort => exact openPort_inForce win32error2string h a
  | close =>
    obtain ⟨hstate, htimeouts⟩ := close_frame a w
    have hclosed : (close a w).uart = w.uart := close_isopen a w
    have hcaches : Caches (close a w).uart s := by
      rw [hclosed]
      exact h
    exact ⟨hcaches, inForce_refused hcaches rfl hstate (congrArg Win32UART.currentdcb hclosed)
      fun _ => htimeouts⟩
  | setBaudrate baud =>
    have huntimed : ¬ Timing w (.setBaudrate baud) := by simp [Timing]
    simp only [perform, setBaudrate, record]
    cases hentry : enum2baud baud with
    | none => exact hrefused _ huntimed
    | some rate =>
      have hu : Caches { w.uart with baudrate := rate } { s with baudrate := baud } :=
        ⟨hentry, hcharsize, hparity, hstopbits, htimeout⟩
      exact configure_inForce win32error2string hu a rfl (by simp [Configuring]) huntimed
  | setCharactersize charsize =>
    have huntimed : ¬ Timing w (.setCharactersize charsize) := by simp [Timing]
    simp only [perform, setCharactersize, record]
    cases hentry : enum2charsize charsize with
    | none => exact hrefused _ huntimed
    | some size =>
      have hu : Caches { w.uart with charactersize := size } { s with charactersize := charsize } :=
        ⟨hbaud, hentry, hparity, hstopbits, htimeout⟩
      exact configure_inForce win32error2string hu a rfl (by simp [Configuring]) huntimed
  | setParity parity =>
    have huntimed : ¬ Timing w (.setParity parity) := by simp [Timing]
    simp only [perform, setParity, record]
    cases hentry : enum2parity parity with
    | none => exact hrefused _ huntimed
    | some flags =>
      have hu : Caches { w.uart with parity := flags } { s with parity := parity } :=
        ⟨hbaud, hcharsize, hentry, hstopbits, htimeout⟩
      exact configure_inForce win32error2string hu a rfl (by simp [Configuring]) huntimed
  | setStopbits stopbits =>
    have huntimed : ¬ Timing w (.setStopbits stopbits) := by simp [Timing]
    have hconfiguring : Configuring (.setStopbits stopbits) := by simp [Configuring]
    have hu (known : StopBits) (value : BYTE) (hlisted : (known, value) ∈
        [(StopBits.sb1, ONESTOPBIT), (.sb1_5, ONE5STOPBITS), (.sb2, TWOSTOPBITS)]) :
        Caches { w.uart with stopbits := value } { s with stopbits := known } :=
      ⟨hbaud, hcharsize, hparity, hlisted, htimeout⟩
    cases stopbits with
    | sb1_5 =>
      have hcaches := hu .sb1_5 ONE5STOPBITS (by simp)
      exact configure_inForce win32error2string hcaches a rfl hconfiguring huntimed
    | sb2 =>
      have hcaches := hu .sb2 TWOSTOPBITS (by simp)
      exact configure_inForce win32error2string hcaches a rfl hconfiguring huntimed
    | sb1 | other =>
      have hcaches := hu .sb1 ONESTOPBIT (by simp)
      exact configure_inForce win32error2string hcaches a rfl hconfiguring huntimed
  | setTimeout timeout => exact setTimeout_inForce win32error2string h timeout a

/-! ## Sessions -/

theorem new_caches (devicename : String) (timeouts : COMMTIMEOUTS) (state : DCB) :
    Caches (World.new devicename timeouts state).uart .initial :=
  ⟨rfl, rfl, rfl, List.mem_cons_self, rfl⟩

theorem run_caches (devicename : String) (timeouts : COMMTIMEOUTS) (state : DCB)
    (calls : List (Call × Answers)) :
    Caches ((uartMachine win32error2string).run (World.new devicename timeouts state) calls).uart
      (asked ((uartMachine win32error2string).trace (World.new devicename timeouts state) calls)) := by
  refine (uartMachine win32error2string).history_invariant
    (fun u w => Caches w.uart
      (asked ((uartMachine win32error2string).trace (World.new devicename timeouts state) u)))
    (new_caches devicename timeouts state) ?_ calls
  intro u c h
  rw [Mealy.trace_concat, asked, List.foldl_concat]
  exact (perform_inForce win32error2string h c.1 c.2).1

end Avionicpp.Uart.Win32
