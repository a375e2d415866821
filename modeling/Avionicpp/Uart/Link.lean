import Avionicpp.Uart.PosixTransfer
import Avionicpp.Uart.Win32Transfer

/-! # Two programs joined by a line

Each end of the line has a port and a program. The program writes the text it has to send piece by piece,
going on behind what `write` says was taken, and feeds what `read` returns to a consumer byte by byte. The
drivers put what they hold on the line and take off it what has come, whenever they like.

Like the drivers, the line is a parameter. `link_carries` says what holds across any interleaving if none
of the three loses anything: in both directions the consumer has been given the front of the other end's
text, and the rest is still on its way.
-/
namespace Avionicpp.Uart
open Foundations
set_option autoImplicit false

/-! ## The line -/

/-- One direction of the line, in states of its own. -/
structure Wire (ρ : Type) where
  /-- put on the line and not taken off it -/
  content : ρ → List UInt8
  put : ρ → List UInt8 → ρ
  take : ρ → ℕ → List UInt8 × ρ

/-- All that is put on the line comes, in order and as it is. -/
structure Wire.Lossless {ρ : Type} (W : Wire ρ) : Prop where
  put : ∀ l bytes, W.content (W.put l bytes) = W.content l ++ bytes
  take : ∀ l n, (W.take l n).1 ++ W.content (W.take l n).2 = W.content l

def queueWire : Wire (List UInt8) where
  content := id
  put l bytes := l ++ bytes
  take l n := (l.take n, l.drop n)

theorem queueWire_lossless : queueWire.Lossless where
  put _ _ := rfl
  take _ _ := List.take_append_drop _ _

/-! ## One end -/

/-- What stands at one end: the kind of its port, its driver and its consumer. -/
structure Station (ω κ ε δ φ : Type) where
  kind : PortKind ω κ ε
  driver : Driver δ
  consume : φ → UInt8 → φ

structure Party (ω δ φ : Type) where
  port : Port ω δ
  /-- what the program has still to write -/
  unsent : List UInt8
  program : φ

/-- The program calls `write` with the next `n` bytes, or `read`; the driver puts bytes on the line, or
takes bytes off it. -/
inductive Move (ε : Type) where
  | write (n : ℕ) (a : TransferAnswer ε)
  | read (buffer : List UInt8) (readsize : ℕ) (a : TransferAnswer ε)
  | send (n : ℕ)
  | receive (n : ℕ)

variable {ω κ ε δ φ ρ : Type}

/-- What a move takes off the line. -/
def Move.takes (W : Wire ρ) (incoming : ρ) : Move ε → List UInt8 × ρ
  | .receive n => W.take incoming n
  | _ => ([], incoming)

/-- What a move asks of the port, with the bytes that were taken off the line. -/
def Move.action (unsent taken : List UInt8) : Move ε → Action κ ε
  | .write n a => .write (unsent.take n) a
  | .read buffer readsize a => .read buffer readsize a
  | .send n => .send n
  | .receive _ => .receive taken

/-- The line behind a move that sends bytes. -/
def Move.puts (W : Wire ρ) (outgoing : ρ) (bytes : List UInt8) : Move ε → ρ
  | .send _ => W.put outgoing bytes
  | _ => outgoing

/-- The party afterwards, and both directions of the line. -/
def Party.move (S : Station ω κ ε δ φ) (W : Wire ρ) (e : Party ω δ φ) (incoming outgoing : ρ)
    (m : Move ε) : Party ω δ φ × ρ × ρ :=
  let (taken, incoming) := m.takes W incoming
  let c : Action κ ε := m.action e.unsent taken
  let r := portStep S.kind S.driver e.port c
  let x := (c, r.2)
  ({ port := r.1
     unsent := e.unsent.drop (accepted x).length
     program := (delivered x).foldl S.consume e.program },
    incoming, m.puts W outgoing (leaving x))

theorem action_transfers (unsent taken : List UInt8) (m : Move ε) (call : κ) :
    (m.action unsent taken : Action κ ε) ≠ .control call := by
  cases m <;> exact nofun

/-- Only what is next is accepted. -/
theorem action_front (unsent taken : List UInt8) (m : Move ε) (out : Outcome) :
    accepted ((m.action unsent taken : Action κ ε), out) <+: unsent := by
  cases m with
  | write n a =>
    show accepted (Action.write (unsent.take n) a, out) <+: unsent
    unfold accepted
    split
    · rename_i h
      obtain ⟨h, -⟩ := Prod.mk.inj h
      obtain ⟨rfl, -⟩ := Action.write.inj h
      exact (List.take_prefix _ _).trans (List.take_prefix n unsent)
    · exact List.nil_prefix
  | read buffer readsize a => exact List.nil_prefix
  | send n => exact List.nil_prefix
  | receive n => exact List.nil_prefix

theorem takes_content {W : Wire ρ} (hW : W.Lossless) (incoming : ρ) (m : Move ε) :
    (m.takes W incoming).1 ++ W.content (m.takes W incoming).2 = W.content incoming := by
  cases m with
  | receive n => exact hW.take incoming n
  | write | read | send => rfl

theorem arriving_action (unsent : List UInt8) (W : Wire ρ) (incoming : ρ) (m : Move ε)
    (out : Outcome) :
    arriving ((m.action unsent (m.takes W incoming).1 : Action κ ε), out) =
      (m.takes W incoming).1 := by
  cases m <;> rfl

theorem puts_content {W : Wire ρ} (hW : W.Lossless) (S : Station ω κ ε δ φ) (e : Party ω δ φ)
    (incoming outgoing : ρ) (m : Move ε) :
    let c : Action κ ε := m.action e.unsent (m.takes W incoming).1
    let x := (c, (portStep S.kind S.driver e.port c).2)
    W.content (m.puts W outgoing (leaving x)) = W.content outgoing ++ leaving x := by
  cases m with
  | send n => exact hW.put outgoing _
  | write | read | receive => exact (List.append_nil _).symm

section
variable {S : Station ω κ ε δ φ} (hD : S.driver.Lossless) {W : Wire ρ} (hW : W.Lossless)
  (e : Party ω δ φ) (incoming outgoing : ρ) (m : Move ε)
include hD hW

/-- What an end has to send is put on the line or kept. -/
theorem move_sends :
    let r := e.move S W incoming outgoing m
    W.content r.2.2 ++ (S.driver.output r.1.port.driver ++ r.1.unsent) =
      W.content outgoing ++ (S.driver.output e.port.driver ++ e.unsent) := by
  intro r
  let c : Action κ ε := m.action e.unsent (m.takes W incoming).1
  let x := (c, (portStep S.kind S.driver e.port c).2)
  have hput : W.content r.2.2 = W.content outgoing ++ leaving x :=
    puts_content hW S e incoming outgoing m
  have hkept : leaving x ++ S.driver.output r.1.port.driver =
      S.driver.output e.port.driver ++ accepted x :=
    (transfer_kept hD e.port (action_transfers _ _ m)).output
  obtain ⟨rest, hrest⟩ : accepted x <+: e.unsent := action_front e.unsent _ m _
  have hunsent : accepted x ++ r.1.unsent = e.unsent := by
    show accepted x ++ e.unsent.drop (accepted x).length = e.unsent
    conv_lhs => rw [← hrest]
    rw [List.drop_left]
    exact hrest
  rw [hput, List.append_assoc, ← List.append_assoc (leaving x), hkept, List.append_assoc, hunsent]

/-- What comes to an end is given to its consumer or kept. -/
theorem move_consumes (behind : List UInt8) :
    let r := e.move S W incoming outgoing m
    Consumed S.consume e.program
      (S.driver.input e.port.driver ++ (W.content incoming ++ behind)) r.1.program
      (S.driver.input r.1.port.driver ++ (W.content r.2.1 ++ behind)) := by
  intro r
  let c : Action κ ε := m.action e.unsent (m.takes W incoming).1
  let x := (c, (portStep S.kind S.driver e.port c).2)
  have hkept : delivered x ++ S.driver.input r.1.port.driver =
      S.driver.input e.port.driver ++ arriving x :=
    (transfer_kept hD e.port (action_transfers _ _ m)).input
  have htaken : arriving x = (m.takes W incoming).1 := arriving_action e.unsent W incoming m _
  have hline : (m.takes W incoming).1 ++ W.content r.2.1 = W.content incoming :=
    takes_content hW incoming m
  refine ⟨delivered x, ?_, rfl⟩
  rw [← List.append_assoc, hkept, htaken, ← hline]
  simp only [List.append_assoc]

end

/-! ## Both ends -/

variable {ω' κ' ε' δ' ψ : Type}

structure Link (ω δ φ ω' δ' ψ ρ : Type) where
  left : Party ω δ φ
  right : Party ω' δ' ψ
  toRight : ρ
  toLeft : ρ

section
variable (S : Station ω κ ε δ φ) (T : Station ω' κ' ε' δ' ψ) (W : Wire ρ)

def linkStep (l : Link ω δ φ ω' δ' ψ ρ) : Move ε ⊕ Move ε' → Link ω δ φ ω' δ' ψ ρ
  | .inl m =>
    let (left, toLeft, toRight) := l.left.move S W l.toLeft l.toRight m
    { l with left := left, toLeft := toLeft, toRight := toRight }
  | .inr m =>
    let (right, toRight, toLeft) := l.right.move T W l.toRight l.toLeft m
    { l with right := right, toRight := toRight, toLeft := toLeft }

def linkMachine : Mealy (Link ω δ φ ω' δ' ψ ρ) (Move ε ⊕ Move ε') Unit where
  step l m := (linkStep S T W l m, ())

/-- What is still on its way to the consumer on the right, and to the one on the left. -/
def Link.pendingRight (l : Link ω δ φ ω' δ' ψ ρ) : List UInt8 :=
  T.driver.input l.right.port.driver ++
    (W.content l.toRight ++ (S.driver.output l.left.port.driver ++ l.left.unsent))

def Link.pendingLeft (l : Link ω δ φ ω' δ' ψ ρ) : List UInt8 :=
  S.driver.input l.left.port.driver ++
    (W.content l.toLeft ++ (T.driver.output l.right.port.driver ++ l.right.unsent))

variable {S T W}

theorem linkStep_carries (hS : S.driver.Lossless) (hT : T.driver.Lossless) (hW : W.Lossless)
    (l : Link ω δ φ ω' δ' ψ ρ) (m : Move ε ⊕ Move ε') :
    Consumed T.consume l.right.program (l.pendingRight S T W) (linkStep S T W l m).right.program
        ((linkStep S T W l m).pendingRight S T W) ∧
      Consumed S.consume l.left.program (l.pendingLeft S T W) (linkStep S T W l m).left.program
        ((linkStep S T W l m).pendingLeft S T W) := by
  cases m with
  | inl m =>
    have hsends := move_sends hS hW l.left l.toLeft l.toRight m
    constructor
    · have hsame : (linkStep S T W l (.inl m)).pendingRight S T W = l.pendingRight S T W :=
        congrArg (T.driver.input l.right.port.driver ++ ·) hsends
      rw [hsame]
      exact Consumed.refl T.consume _ _
    · exact move_consumes hS hW l.left l.toLeft l.toRight m _
  | inr m =>
    have hsends := move_sends hT hW l.right l.toRight l.toLeft m
    constructor
    · exact move_consumes hT hW l.right l.toRight l.toLeft m _
    · have hsame : (linkStep S T W l (.inr m)).pendingLeft S T W = l.pendingLeft S T W :=
        congrArg (S.driver.input l.left.port.driver ++ ·) hsends
      rw [hsame]
      exact Consumed.refl S.consume _ _

/-- **The line carries both texts**: whatever the order of the moves, each consumer has been given the
front of what was to come to it, each byte once and in order, and the rest is still on its way. -/
theorem link_carries (hS : S.driver.Lossless) (hT : T.driver.Lossless) (hW : W.Lossless)
    (l : Link ω δ φ ω' δ' ψ ρ) (moves : List (Move ε ⊕ Move ε')) :
    Consumed T.consume l.right.program (l.pendingRight S T W)
        ((linkMachine S T W).run l moves).right.program
        (((linkMachine S T W).run l moves).pendingRight S T W) ∧
      Consumed S.consume l.left.program (l.pendingLeft S T W)
        ((linkMachine S T W).run l moves).left.program
        (((linkMachine S T W).run l moves).pendingLeft S T W) := by
  induction moves generalizing l with
  | nil => exact ⟨Consumed.refl .., Consumed.refl ..⟩
  | cons m moves ih =>
    obtain ⟨hright, hleft⟩ := linkStep_carries hS hT hW l m
    obtain ⟨hright', hleft'⟩ := ih (linkStep S T W l m)
    exact ⟨hright.trans hright', hleft.trans hleft'⟩

variable (S T W)

/-- Nothing is on the way. -/
structure Clear (p : Port ω δ) (q : Port ω' δ') (toRight toLeft : ρ) : Prop where
  left : S.driver.Idle p.driver
  right : T.driver.Idle q.driver
  toRight : W.content toRight = []
  toLeft : W.content toLeft = []

/-- Two ends with a text each. -/
def linkStart (p : Port ω δ) (q : Port ω' δ') (toRight toLeft : ρ) (text text' : List UInt8) (s : φ)
    (t : ψ) : Link ω δ φ ω' δ' ψ ρ :=
  ⟨⟨p, text, s⟩, ⟨q, text', t⟩, toRight, toLeft⟩

variable {S T W}

theorem link_start {p : Port ω δ} {q : Port ω' δ'} {toRight toLeft : ρ}
    (h : Clear S T W p q toRight toLeft) (text text' : List UInt8) (s : φ) (t : ψ) :
    (linkStart p q toRight toLeft text text' s t).pendingRight S T W = text ∧
      (linkStart p q toRight toLeft text text' s t).pendingLeft S T W = text' := by
  constructor
  · simp [Link.pendingRight, linkStart, h.right.1, h.toRight, h.left.2]
  · simp [Link.pendingLeft, linkStart, h.left.1, h.toLeft, h.right.2]

end

/-! ## A sample line -/

def openedPort : Port World Buffers :=
  (portStep (posixPort fun _ => "") queueDriver (.new "/dev/ttyS0" .zero ⟨[], []⟩)
    (.control (.openPort, obliging))).1

def openedWin32Port : Port Win32.World Buffers :=
  (portStep (Win32.win32Port fun _ => "") queueDriver ⟨.new "COM1" ⟨0, 0, 0, 0, 0⟩ .zero, ⟨[], []⟩⟩
    (.control (.openPort, Win32.obliging))).1

/-- The left end writes once, and the right end reads in two pieces. -/
def sampleMoves : List (Move ε ⊕ Move ε') :=
  [.inl (.write 100 ⟨none, 100⟩), .inl (.send 100), .inr (.receive 100),
    .inr (.read (List.replicate 100 0) 100 ⟨none, 30⟩),
    .inr (.read (List.replicate 100 0) 100 ⟨none, 100⟩)]

end Avionicpp.Uart
