import Avionicpp.Foundations.Flow
import Mathlib.Data.Int.Notation
import Mathlib.Data.List.TakeDrop

/-! # Bytes through a port

What `read` and `write` have in common on both systems: a request asks for no more than the system's type
of a size can say, and what the driver moves is what the program gets or gives. A session mixes both with
the calls that control the port and with what the wire brings and takes.

The driver is the system's, and its source is not at hand. It is a parameter, and `Driver.InOrder` and
`Driver.KeepsReceived` say what is asked of it.
-/
namespace Avionicpp.Uart
open Foundations
set_option autoImplicit false

/-! ## The driver -/

/-- What a call that controls the port tells the driver: that a handle of the port is closed, that both
directions are to be flushed, or how the port is to work from now on. -/
inductive Signal where
  | closed
  | flushed
  | configured
  deriving DecidableEq, Repr

/-- What the system has between the program and the wire, in states of its own. -/
structure Driver (δ : Type) where
  /-- received and not read -/
  input : δ → List UInt8
  /-- written and not sent -/
  output : δ → List UInt8
  /-- a request for `count` bytes, of which the system would like to deliver `wanted` -/
  read : (d : δ) → (count wanted : ℕ) → List UInt8 × δ
  /-- how many of the bytes are taken, when the system would like to take `wanted` -/
  write : (d : δ) → (data : List UInt8) → (wanted : ℕ) → ℕ × δ
  receive : δ → List UInt8 → δ
  send : δ → ℕ → List UInt8 × δ
  signal : δ → Signal → δ

namespace Driver
variable {δ : Type}

/-- The driver passes bytes on in order and as they are. It may lose some of those that come over the
wire, and what it holds when the port is closed; it gives all it holds away when it is flushed, and none of
it when the port is only set up. -/
structure InOrder (D : Driver δ) : Prop where
  read : ∀ d count wanted, (D.read d count wanted).1.length ≤ count ∧
    (D.read d count wanted).1 ++ D.input (D.read d count wanted).2 = D.input d ∧
      D.output (D.read d count wanted).2 = D.output d
  write : ∀ d data wanted, (D.write d data wanted).1 ≤ data.length ∧
    D.output (D.write d data wanted).2 = D.output d ++ data.take (D.write d data wanted).1 ∧
      D.input (D.write d data wanted).2 = D.input d
  receive : ∀ d bytes, (D.input (D.receive d bytes)).Sublist (D.input d ++ bytes) ∧
    D.output (D.receive d bytes) = D.output d
  send : ∀ d n, (D.send d n).1 ++ D.output (D.send d n).2 = D.output d ∧
    D.input (D.send d n).2 = D.input d
  closed : ∀ d, (D.input (D.signal d .closed)).Sublist (D.input d) ∧
    (D.output (D.signal d .closed)).Sublist (D.output d)
  flushed : ∀ d, D.input (D.signal d .flushed) = [] ∧ D.output (D.signal d .flushed) = []
  configured : ∀ d, D.input (D.signal d .configured) = D.input d ∧
    D.output (D.signal d .configured) = D.output d

/-- All that comes over the wire is received: no byte is damaged, and there is always room for it. -/
def KeepsReceived (D : Driver δ) : Prop := ∀ d bytes, D.input (D.receive d bytes) = D.input d ++ bytes

/-- Nothing is ever lost but what a controlling call makes the driver drop. -/
structure Lossless (D : Driver δ) : Prop extends InOrder D where
  keepsReceived : D.KeepsReceived

/-- Nothing is received and not read, and nothing written and not sent. -/
def Idle (D : Driver δ) (d : δ) : Prop := D.input d = [] ∧ D.output d = []

theorem InOrder.signal {D : Driver δ} (h : D.InOrder) (d : δ) (s : Signal) :
    (D.input (D.signal d s)).Sublist (D.input d) ∧
      (D.output (D.signal d s)).Sublist (D.output d) := by
  cases s with
  | closed => exact h.closed d
  | flushed =>
    rw [(h.flushed d).1, (h.flushed d).2]
    exact ⟨List.nil_sublist _, List.nil_sublist _⟩
  | configured =>
    rw [(h.configured d).1, (h.configured d).2]
    exact ⟨List.Sublist.refl _, List.Sublist.refl _⟩

theorem InOrder.signals {D : Driver δ} (h : D.InOrder) (d : δ) (signals : List Signal) :
    (D.input (signals.foldl D.signal d)).Sublist (D.input d) ∧
      (D.output (signals.foldl D.signal d)).Sublist (D.output d) := by
  induction signals generalizing d with
  | nil => exact ⟨List.Sublist.refl _, List.Sublist.refl _⟩
  | cons s signals ih =>
    obtain ⟨hinput, houtput⟩ := h.signal d s
    obtain ⟨hinput', houtput'⟩ := ih (D.signal d s)
    exact ⟨hinput'.trans hinput, houtput'.trans houtput⟩

/-- Setting the port up moves nothing. -/
theorem InOrder.configures {D : Driver δ} (h : D.InOrder) {signals : List Signal}
    (hs : ∀ s ∈ signals, s = .configured) (d : δ) :
    D.input (signals.foldl D.signal d) = D.input d ∧
      D.output (signals.foldl D.signal d) = D.output d := by
  induction signals generalizing d with
  | nil => exact ⟨rfl, rfl⟩
  | cons s signals ih =>
    obtain rfl := hs s List.mem_cons_self
    obtain ⟨hinput, houtput⟩ := ih (fun s' hs' => hs s' (List.mem_cons_of_mem _ hs'))
      (D.signal d .configured)
    exact ⟨hinput.trans (h.configured d).1, houtput.trans (h.configured d).2⟩

end Driver

/-- What the system answers to one request: an error code, and how many bytes it would like to move. -/
structure TransferAnswer (ε : Type) where
  error : Option ε
  wanted : ℕ

abbrev TransferResult := Except (ℤ × String) ℕ

/-! ## The two operations

`refused` is the error that the system reports, if it does. -/

section
variable {δ : Type} (D : Driver δ)

/-- `read`: the result, the caller's buffer, and the driver. -/
def transferRead (limit : ℕ) (refused : Option (ℤ × String)) (buffer : List UInt8) (readsize : ℕ)
    (wanted : ℕ) (d : δ) : TransferResult × List UInt8 × δ :=
  let count := min buffer.length readsize
  let count := if limit < count then limit else count
  match refused with
  | some e => (.error e, buffer, d)
  | none =>
    let (bytes, d) := D.read d count wanted
    (.ok bytes.length, bytes ++ buffer.drop bytes.length, d)

def transferWrite (limit : ℕ) (refused : Option (ℤ × String)) (buffer : List UInt8) (wanted : ℕ)
    (d : δ) : TransferResult × δ :=
  let count := buffer.length
  let count := if limit < count then limit else count
  match refused with
  | some e => (.error e, d)
  | none =>
    let (n, d) := D.write d (buffer.take count) wanted
    (.ok n, d)

end

/-! ## Sessions -/

/-- `κ` are the calls that control the port, with the system's answers to them; `ε` are error codes. -/
inductive Action (κ ε : Type) where
  | control (call : κ)
  | read (buffer : List UInt8) (readsize : ℕ) (a : TransferAnswer ε)
  | write (buffer : List UInt8) (a : TransferAnswer ε)
  | receive (bytes : List UInt8)
  | send (n : ℕ)

/-- `read` returns with the buffer it was given. -/
inductive Outcome where
  | controlled (result : Option (Except (ℤ × String) Bool))
  | read (result : TransferResult) (buffer : List UInt8)
  | written (result : TransferResult)
  | received
  | sent (bytes : List UInt8)

/-- A kind of port: the most that a request can ask for, the error of a transfer, the calls that control
the port, and what they tell the driver. -/
structure PortKind (ω κ ε : Type) where
  limit : ℕ
  refusal : TransferAnswer ε → ω → Option (ℤ × String)
  machine : Mealy ω κ (Option (Except (ℤ × String) Bool))
  signals : ω → κ → List Signal

/-- The object with its handles, and the driver behind them. -/
structure Port (ω δ : Type) where
  world : ω
  driver : δ

variable {ω κ ε δ : Type}

section
variable (K : PortKind ω κ ε) (D : Driver δ)

def PortKind.read (buffer : List UInt8) (readsize : ℕ) (a : TransferAnswer ε) (p : Port ω δ) :
    TransferResult × List UInt8 × δ :=
  transferRead D K.limit (K.refusal a p.world) buffer readsize a.wanted p.driver

def PortKind.write (buffer : List UInt8) (a : TransferAnswer ε) (p : Port ω δ) : TransferResult × δ :=
  transferWrite D K.limit (K.refusal a p.world) buffer a.wanted p.driver

def portStep (p : Port ω δ) : Action κ ε → Port ω δ × Outcome
  | .control call =>
    let (world, result) := K.machine.step p.world call
    (⟨world, (K.signals p.world call).foldl D.signal p.driver⟩, .controlled result)
  | .read buffer readsize a =>
    let (result, buffer, driver) := K.read D buffer readsize a p
    ({ p with driver := driver }, .read result buffer)
  | .write buffer a =>
    let (result, driver) := K.write D buffer a p
    ({ p with driver := driver }, .written result)
  | .receive bytes => ({ p with driver := D.receive p.driver bytes }, .received)
  | .send n =>
    let (bytes, driver) := D.send p.driver n
    ({ p with driver := driver }, .sent bytes)

/-- A session on one port. -/
def portMachine : Mealy (Port ω δ) (Action κ ε) Outcome := ⟨portStep K D⟩

end

/-! What a step moves, as the program and the wire see it. -/

def arriving (x : Action κ ε × Outcome) : List UInt8 :=
  match x.1 with
  | .receive bytes => bytes
  | _ => []

def delivered (x : Action κ ε × Outcome) : List UInt8 :=
  match x.2 with
  | .read (.ok n) buffer => buffer.take n
  | _ => []

def accepted (x : Action κ ε × Outcome) : List UInt8 :=
  match x with
  | (.write buffer _, .written (.ok n)) => buffer.take n
  | _ => []

def leaving (x : Action κ ε × Outcome) : List UInt8 :=
  match x.2 with
  | .sent bytes => bytes
  | _ => []

/-- What a transfer does to the caller's buffer. -/
def Framed (x : Action κ ε × Outcome) : Prop :=
  match x with
  | (.read buffer readsize _, .read result after) =>
    match result with
    | .ok n => n ≤ readsize ∧ n ≤ buffer.length ∧ after.length = buffer.length ∧
        after.drop n = buffer.drop n
    | .error _ => after = buffer
  | (.write buffer _, .written (.ok n)) => n ≤ buffer.length
  | _ => True

/-- A transfer that succeeds is the driver's answer to the largest request there can be; one that fails
leaves the driver alone. -/
def Served (D : Driver δ) (limit : ℕ) (d : δ) (x : Action κ ε × Outcome) (d' : δ) : Prop :=
  match x with
  | (.read buffer readsize a, .read result after) =>
    match result with
    | .ok n => D.read d (min (min buffer.length readsize) limit) a.wanted = (after.take n, d')
    | .error _ => d' = d
  | (.write buffer a, .written result) =>
    match result with
    | .ok n => D.write d (buffer.take limit) a.wanted = (n, d')
    | .error _ => d' = d
  | _ => True

/-! ## One step -/

section
variable {K : PortKind ω κ ε} {D : Driver δ}

theorem clamp_eq (limit count : ℕ) : (if limit < count then limit else count) = min count limit := by
  split <;> omega

/-- A read that is not refused. -/
theorem transferRead_ok (limit : ℕ) (buffer : List UInt8) (readsize wanted : ℕ) {d : δ}
    {r : List UInt8 × δ} (hr : D.read d (min (min buffer.length readsize) limit) wanted = r) :
    transferRead D limit none buffer readsize wanted d =
      (.ok r.1.length, r.1 ++ buffer.drop r.1.length, r.2) := by
  rw [← hr, ← clamp_eq limit (min buffer.length readsize)]
  rfl

/-- A write that is not refused. -/
theorem transferWrite_ok (limit : ℕ) (buffer : List UInt8) (wanted : ℕ) {d : δ} {r : ℕ × δ}
    (hr : D.write d (buffer.take limit) wanted = r) :
    transferWrite D limit none buffer wanted d = (.ok r.1, r.2) := by
  have htake : buffer.take limit = buffer.take (min buffer.length limit) := by
    rw [Nat.min_comm, ← List.take_eq_take_min]
  rw [← hr, htake, ← clamp_eq limit buffer.length]
  rfl

theorem read_served (limit : ℕ) (refused : Option (ℤ × String)) (buffer : List UInt8) (readsize : ℕ)
    (a : TransferAnswer ε) (d : δ) :
    let r := transferRead D limit refused buffer readsize a.wanted d
    Served D limit d ((.read buffer readsize a, .read r.1 r.2.1) : Action κ ε × Outcome) r.2.2 := by
  cases refused with
  | some e => rfl
  | none =>
    rw [transferRead_ok limit buffer readsize a.wanted rfl]
    exact Prod.ext List.take_left.symm rfl

theorem write_served (limit : ℕ) (refused : Option (ℤ × String)) (buffer : List UInt8)
    (a : TransferAnswer ε) (d : δ) :
    let r := transferWrite D limit refused buffer a.wanted d
    Served D limit d ((.write buffer a, .written r.1) : Action κ ε × Outcome) r.2 := by
  cases refused with
  | some e => rfl
  | none =>
    rw [transferWrite_ok limit buffer a.wanted rfl]
    rfl

theorem portStep_served (p : Port ω δ) (c : Action κ ε) :
    Served D K.limit p.driver (c, (portStep K D p c).2) (portStep K D p c).1.driver := by
  cases c with
  | read buffer readsize a => exact read_served K.limit (K.refusal a p.world) buffer readsize a p.driver
  | write buffer a => exact write_served K.limit (K.refusal a p.world) buffer a p.driver
  | control | receive | send => trivial

/-- What comes in and goes out in a step of which the driver loses nothing. -/
structure Kept (D : Driver δ) (d : δ) (x : Action κ ε × Outcome) (d' : δ) : Prop where
  input : delivered x ++ D.input d' = D.input d ++ arriving x
  output : leaving x ++ D.output d' = D.output d ++ accepted x

theorem read_kept (hD : D.InOrder) (limit : ℕ) (refused : Option (ℤ × String)) (buffer : List UInt8)
    (readsize : ℕ) (a : TransferAnswer ε) (d : δ) :
    let r := transferRead D limit refused buffer readsize a.wanted d
    let x : Action κ ε × Outcome := (.read buffer readsize a, .read r.1 r.2.1)
    Kept D d x r.2.2 ∧ Framed x := by
  cases refused with
  | some e => exact ⟨⟨(List.append_nil _).symm, (List.append_nil _).symm⟩, rfl⟩
  | none =>
    obtain ⟨hle, hinput, houtput⟩ := hD.read d (min (min buffer.length readsize) limit) a.wanted
    rw [transferRead_ok limit buffer readsize a.wanted rfl]
    generalize D.read d (min (min buffer.length readsize) limit) a.wanted = r at hle hinput houtput ⊢
    have htake : (r.1 ++ buffer.drop r.1.length).take r.1.length = r.1 := List.take_left
    refine ⟨⟨?_, ?_⟩, ?_, ?_, ?_, ?_⟩
    · show (r.1 ++ buffer.drop r.1.length).take r.1.length ++ D.input r.2 = D.input d ++ []
      rw [htake, hinput, List.append_nil]
    · show [] ++ D.output r.2 = D.output d ++ []
      rw [houtput, List.append_nil, List.nil_append]
    · omega
    · omega
    · rw [List.length_append, List.length_drop]
      omega
    · exact List.drop_left

theorem write_kept (hD : D.InOrder) (limit : ℕ) (refused : Option (ℤ × String)) (buffer : List UInt8)
    (a : TransferAnswer ε) (d : δ) :
    let r := transferWrite D limit refused buffer a.wanted d
    let x : Action κ ε × Outcome := (.write buffer a, .written r.1)
    Kept D d x r.2 ∧ Framed x := by
  cases refused with
  | some e => exact ⟨⟨(List.append_nil _).symm, (List.append_nil _).symm⟩, trivial⟩
  | none =>
    obtain ⟨hle, houtput, hinput⟩ := hD.write d (buffer.take limit) a.wanted
    rw [transferWrite_ok limit buffer a.wanted rfl]
    generalize D.write d (buffer.take limit) a.wanted = r at hle hinput houtput ⊢
    rw [List.length_take] at hle
    refine ⟨⟨?_, ?_⟩, ?_⟩
    · show [] ++ D.input r.2 = D.input d ++ []
      rw [hinput, List.append_nil, List.nil_append]
    · show [] ++ D.output r.2 = D.output d ++ buffer.take r.1
      rw [houtput, List.take_take, List.nil_append, Nat.min_eq_left (by omega)]
    · show r.1 ≤ buffer.length
      omega

/-- Whatever the step is but a controlling call, nothing is lost if the driver keeps what it receives. -/
theorem transfer_kept (hD : D.Lossless) (p : Port ω δ) {c : Action κ ε}
    (hc : ∀ call, c ≠ .control call) :
    Kept D p.driver (c, (portStep K D p c).2) (portStep K D p c).1.driver := by
  cases c with
  | control call => exact absurd rfl (hc call)
  | read buffer readsize a =>
    exact (read_kept hD.toInOrder K.limit (K.refusal a p.world) buffer readsize a p.driver).1
  | write buffer a =>
    exact (write_kept hD.toInOrder K.limit (K.refusal a p.world) buffer a p.driver).1
  | receive bytes => exact ⟨hD.keepsReceived p.driver bytes, ((hD.receive p.driver bytes).2).trans
      (List.append_nil _).symm⟩
  | send n => exact ⟨((hD.send p.driver n).2).trans (List.append_nil _).symm,
      ((hD.send p.driver n).1).trans (List.append_nil _).symm⟩

theorem portStep_framed (hD : D.InOrder) (p : Port ω δ) (c : Action κ ε) :
    Framed (c, (portStep K D p c).2) := by
  cases c with
  | read buffer readsize a =>
    exact (read_kept hD K.limit (K.refusal a p.world) buffer readsize a p.driver).2
  | write buffer a => exact (write_kept hD K.limit (K.refusal a p.world) buffer a p.driver).2
  | control | receive | send => trivial

theorem Kept.ordered {d d' : δ} {x : Action κ ε × Outcome} (h : Kept D d x d') :
    (delivered x ++ D.input d').Sublist (D.input d ++ arriving x) ∧
      (leaving x ++ D.output d').Sublist (D.output d ++ accepted x) := by
  rw [h.input, h.output]
  exact ⟨List.Sublist.refl _, List.Sublist.refl _⟩

/-- What comes in and goes out in any step stays in order. -/
theorem portStep_ordered (hD : D.InOrder) (p : Port ω δ) (c : Action κ ε) :
    let x := (c, (portStep K D p c).2)
    let d := (portStep K D p c).1.driver
    (delivered x ++ D.input d).Sublist (D.input p.driver ++ arriving x) ∧
      (leaving x ++ D.output d).Sublist (D.output p.driver ++ accepted x) := by
  cases c with
  | control call =>
    obtain ⟨hinput, houtput⟩ := hD.signals p.driver (K.signals p.world call)
    exact ⟨hinput.trans (List.sublist_append_left _ _), houtput.trans (List.sublist_append_left _ _)⟩
  | read buffer readsize a =>
    exact (read_kept hD K.limit (K.refusal a p.world) buffer readsize a p.driver).1.ordered
  | write buffer a => exact (write_kept hD K.limit (K.refusal a p.world) buffer a p.driver).1.ordered
  | receive bytes =>
    obtain ⟨hinput, houtput⟩ := hD.receive p.driver bytes
    refine ⟨hinput, ?_⟩
    show (D.output (D.receive p.driver bytes)).Sublist (D.output p.driver ++ [])
    rw [houtput, List.append_nil]
  | send n =>
    obtain ⟨houtput, hinput⟩ := hD.send p.driver n
    exact Kept.ordered ⟨hinput.trans (List.append_nil _).symm, houtput.trans (List.append_nil _).symm⟩

end

/-! ## A session -/

section
variable (K : PortKind ω κ ε) (D : Driver δ)

/-- A controlling call leaves to the driver what it has. -/
def Undisturbed (p : Port ω δ) (call : κ) : Prop :=
  let d := (K.signals p.world call).foldl D.signal p.driver
  D.input d = D.input p.driver ∧ D.output d = D.output p.driver

/-- The books of a session. What has been read or can be read has come over the wire, in order; what has
been sent or will be sent has been written, in order. Where the driver keeps what it receives, nothing is
lost on either way if and only if no controlling call disturbs it. -/
structure StreamKept (p : Port ω δ) (actions : List (Action κ ε)) : Prop where
  input : (((portMachine K D).trace p actions).flatMap delivered ++
      D.input ((portMachine K D).run p actions).driver).Sublist
    (D.input p.driver ++ ((portMachine K D).trace p actions).flatMap arriving)
  output : (((portMachine K D).trace p actions).flatMap leaving ++
      D.output ((portMachine K D).run p actions).driver).Sublist
    (D.output p.driver ++ ((portMachine K D).trace p actions).flatMap accepted)
  whole : D.KeepsReceived →
    ((((portMachine K D).trace p actions).flatMap delivered ++
          D.input ((portMachine K D).run p actions).driver =
        D.input p.driver ++ ((portMachine K D).trace p actions).flatMap arriving ∧
      ((portMachine K D).trace p actions).flatMap leaving ++
          D.output ((portMachine K D).run p actions).driver =
        D.output p.driver ++ ((portMachine K D).trace p actions).flatMap accepted) ↔
      ∀ made call later, actions = made ++ .control call :: later →
        Undisturbed K D ((portMachine K D).run p made) call)
  transfers : ∀ made c later, actions = made ++ c :: later →
    let q := (portMachine K D).run p made
    let x := (c, (portStep K D q c).2)
    Served D K.limit q.driver x (portStep K D q c).1.driver ∧ Framed x

variable {K D}

/-- **The books of a session**, from those of its steps. -/
theorem streamKept (hD : D.InOrder) (p : Port ω δ) (actions : List (Action κ ε)) :
    StreamKept K D p actions := by
  have hinput : (portMachine K D).Ordered (fun p => D.input p.driver) arriving delivered :=
    fun p c => (portStep_ordered hD p c).1
  have houtput : (portMachine K D).Ordered (fun p => D.output p.driver) accepted leaving :=
    fun p c => (portStep_ordered hD p c).2
  refine ⟨hinput.run p actions, houtput.run p actions, fun hkeeps => ?_, ?_⟩
  · rw [hinput.whole_iff p actions, houtput.whole_iff p actions]
    constructor
    · rintro ⟨hin, hout⟩ made call later hsplit
      have hin' := hin made (.control call) later hsplit
      have hout' := hout made (.control call) later hsplit
      exact ⟨hin'.trans (List.append_nil _), hout'.trans (List.append_nil _)⟩
    · intro hcalls
      have hstep : ∀ made c later, actions = made ++ c :: later →
          let q := (portMachine K D).run p made
          Kept D q.driver (c, (portStep K D q c).2) (portStep K D q c).1.driver := by
        intro made c later hsplit
        cases c with
        | control call =>
          obtain ⟨hin, hout⟩ := hcalls made call later hsplit
          exact ⟨hin.trans (List.append_nil _).symm, hout.trans (List.append_nil _).symm⟩
        | read | write | receive | send => exact transfer_kept ⟨hD, hkeeps⟩ _ nofun
      exact ⟨fun made c later hsplit => (hstep made c later hsplit).input,
        fun made c later hsplit => (hstep made c later hsplit).output⟩
  · intro made c later hsplit
    exact ⟨portStep_served _ c, portStep_framed hD _ c⟩

/-! ## The calls of a session -/

/-- The calls that control the port. -/
def controls (actions : List (Action κ ε)) : List κ :=
  actions.filterMap fun c => match c with
    | .control call => some call
    | _ => none

theorem controls_append (u v : List (Action κ ε)) :
    controls (u ++ v) = controls u ++ controls v := List.filterMap_append

theorem mem_controls {call : κ} {actions : List (Action κ ε)} :
    call ∈ controls actions ↔ .control call ∈ actions := by
  rw [controls, List.mem_filterMap]
  constructor
  · rintro ⟨c, hmem, hc⟩
    cases c with
    | control call' => exact Option.some.inj hc ▸ hmem
    | read | write | receive | send => cases hc
  · exact fun hmem => ⟨.control call, hmem, rfl⟩

/-- Transfers and the wire leave the object as it is. -/
theorem run_world (p : Port ω δ) (actions : List (Action κ ε)) :
    ((portMachine K D).run p actions).world = K.machine.run p.world (controls actions) := by
  induction actions generalizing p with
  | nil => rfl
  | cons c actions ih =>
    rw [Mealy.run_cons, ih]
    cases c <;> rfl

end

/-! ## A driver without a bound -/

structure Buffers where
  input : List UInt8
  output : List UInt8

/-- Two queues; what was not read is discarded when the port is closed. -/
def queueDriver : Driver Buffers where
  input := Buffers.input
  output := Buffers.output
  read b count wanted :=
    (b.input.take (min count wanted), { b with input := b.input.drop (min count wanted) })
  write b data wanted :=
    (min data.length wanted, { b with output := b.output ++ data.take (min data.length wanted) })
  receive b bytes := { b with input := b.input ++ bytes }
  send b n := (b.output.take n, { b with output := b.output.drop n })
  signal b
    | .closed => { b with input := [] }
    | .flushed => ⟨[], []⟩
    | .configured => b

theorem queueDriver_inOrder : queueDriver.InOrder where
  read b count wanted := by
    refine ⟨?_, List.take_append_drop _ _, rfl⟩
    show (b.input.take (min count wanted)).length ≤ count
    rw [List.length_take]
    omega
  write b data wanted := ⟨Nat.min_le_left _ _, rfl, rfl⟩
  receive b bytes := ⟨List.Sublist.refl _, rfl⟩
  send b n := ⟨List.take_append_drop _ _, rfl⟩
  closed b := ⟨List.nil_sublist _, List.Sublist.refl _⟩
  flushed b := ⟨rfl, rfl⟩
  configured b := ⟨rfl, rfl⟩

theorem queueDriver_lossless : queueDriver.Lossless := ⟨queueDriver_inOrder, fun _ _ => rfl⟩

end Avionicpp.Uart
