import Avionicpp.Foundations.Mealy

/-! # The coroutine hand-shake of the framers

`Framer`, its nested `promise_type` and `InputAwaiter` are the same text in `nmea0183/framer.hpp` and
`mavlink/framer.hpp`, up to the byte type and the yielded value, so they are modelled once for a
coroutine body `B`. A body is given by the code it runs between two suspension points; the locals and
the place of the pending `co_await` are its state `σ`.

`exec` runs a body literally: `co_yield` stores the output, sets the flag and suspends; `co_await`
asks `awaitReady`, which finds and clears the flag or suspends. The list of events is not part of the
program: it records which `co_await` returned which byte and which `co_yield` was executed.

`pushByte_settle` is the one fact about a push that everything else rests on.
-/
namespace Avionicpp.Coroutine
open Foundations
set_option autoImplicit false

variable {σ ι ο : Type}

/-- Code of a body from a program point on: the `co_yield`s it executes, then the `co_await` of the
state `s` it stops at. The bodies loop for ever, so there is no end of code. -/
inductive Code (σ ο : Type) where
  | coAwait (s : σ)
  | coYield (value : ο) (rest : Code σ ο)
  deriving DecidableEq

/-- A coroutine body: the code from its opening brace, and the code after the `co_await` of `s` has
returned the byte `c`. -/
structure Body (σ ι ο : Type) where
  start : Code σ ο
  resume : σ → ι → Code σ ο

structure PromiseType (ι ο : Type) where
  currentInput : ι
  currentOutput : Option ο
  justYielded : Bool

namespace PromiseType

/-- `yield_value`, in both overloads -/
def yieldValue (p : PromiseType ι ο) (value : ο) : PromiseType ι ο :=
  { p with currentOutput := some value, justYielded := true }

/-- `InputAwaiter::await_ready`: true, and the flag consumed, when a value was just yielded. -/
def awaitReady (p : PromiseType ι ο) : Bool × PromiseType ι ο :=
  if p.justYielded then (true, { p with justYielded := false }) else (false, p)

def awaitResume (p : PromiseType ι ο) : ι := p.currentInput

end PromiseType

/-- Where a coroutine is suspended: at a `co_await`, or at a `co_yield` with the code after it. -/
inductive Suspended (σ ο : Type) where
  | atAwait (s : σ)
  | atYield (rest : Code σ ο)

/-- `Framer`: the promise and the suspended coroutine behind the handle. -/
structure Framer (σ ι ο : Type) where
  promise : PromiseType ι ο
  suspended : Suspended σ ο

/-- What happens on the two sides of the hand-shake while a body runs. -/
inductive Event (ι ο : Type) where
  | returned (c : ι)
  | yielded (value : ο)
  deriving DecidableEq

theorem flag_consumed {p q : PromiseType ι ο} (h : p.awaitReady = (true, q)) :
    q.justYielded.toNat < p.justYielded.toNat := by
  unfold PromiseType.awaitReady at h
  by_cases hp : p.justYielded = true
  · rw [if_pos hp, Prod.mk.injEq] at h
    rw [← h.2, hp]
    exact Nat.one_pos
  · rw [if_neg hp] at h
    cases h

def exec (B : Body σ ι ο) (p : PromiseType ι ο) : Code σ ο → Framer σ ι ο × List (Event ι ο)
  | .coYield value rest => (⟨p.yieldValue value, .atYield rest⟩, [.yielded value])
  | .coAwait s =>
    match _h : p.awaitReady with
    | (true, q) =>
      let r := exec B q (B.resume s q.awaitResume)
      (r.1, .returned q.awaitResume :: r.2)
    | (false, q) => (⟨q, .atAwait s⟩, [])
termination_by p.justYielded.toNat
decreasing_by exact flag_consumed _h

def resume (B : Body σ ι ο) (f : Framer σ ι ο) : Framer σ ι ο × List (Event ι ο) :=
  match f.suspended with
  | .atAwait s =>
    let r := exec B f.promise (B.resume s f.promise.awaitResume)
    (r.1, .returned f.promise.awaitResume :: r.2)
  | .atYield rest => exec B f.promise rest

/-- Calling the coroutine: `initial_suspend` never suspends, so the body runs to its first
suspension. `current_input` has no initializer; nothing reads it before the first push. -/
def create [Inhabited ι] (B : Body σ ι ο) : Framer σ ι ο :=
  (exec B ⟨default, none, false⟩ B.start).1

/-- `Framer::push_byte`, with the events of the push. The coroutine is never done. -/
def pushByte (B : Body σ ι ο) (f : Framer σ ι ο) (c : ι) :
    Framer σ ι ο × Option ο × List (Event ι ο) :=
  let r := resume B { f with promise := { f.promise with currentInput := c, currentOutput := none } }
  (r.1, r.1.promise.currentOutput, r.2)

def machine (B : Body σ ι ο) : Mealy (Framer σ ι ο) ι (Option ο) where
  step f c := ((pushByte B f c).1, (pushByte B f c).2.1)

def events (B : Body σ ι ο) : Framer σ ι ο → List ι → List (Event ι ο)
  | _, [] => []
  | f, c :: u => (pushByte B f c).2.2 ++ events B (pushByte B f c).1 u

def returnedBytes (es : List (Event ι ο)) : List ι :=
  es.filterMap fun e => match e with
    | .returned c => some c
    | .yielded _ => none

def yieldedValues (es : List (Event ι ο)) : List ο :=
  es.filterMap fun e => match e with
    | .returned _ => none
    | .yielded value => some value

/-! ## The machine without the hand-shake -/

/-- The state at the next `co_await` and the value yielded on the way there. -/
def Code.settle : Code σ ο → σ × Option ο
  | .coAwait s => (s, none)
  | .coYield value rest => (rest.settle.1, some value)

def Code.Single : Code σ ο → Prop
  | .coAwait _ => True
  | .coYield _ (.coAwait _) => True
  | .coYield _ (.coYield _ _) => False

/-- A body that first awaits, and whose every `co_yield` is followed by a `co_await`. -/
structure Body.Alternates (B : Body σ ι ο) : Prop where
  start : ∃ s, B.start = .coAwait s
  resume : ∀ s c, (B.resume s c).Single

def plain (B : Body σ ι ο) : Mealy σ ι (Option ο) where
  step s c := (B.resume s c).settle

/-- The locals of a framer: those at its pending `co_await`, or at the one it reaches next. -/
def Framer.locals (f : Framer σ ι ο) : σ :=
  match f.suspended with
  | .atAwait s => s
  | .atYield rest => rest.settle.1

/-- The flag is set exactly when the framer waits behind a `co_yield`, and a `co_await` follows. -/
def Framer.Ready (f : Framer σ ι ο) : Prop :=
  match f.suspended with
  | .atAwait _ => f.promise.justYielded = false
  | .atYield rest => f.promise.justYielded = true ∧ ∃ s, rest = .coAwait s

theorem exec_settle (B : Body σ ι ο) (p : PromiseType ι ο) (hp : p.justYielded = false)
    (hout : p.currentOutput = none) (code : Code σ ο) (hcode : code.Single) :
    (exec B p code).1.Ready ∧ (exec B p code).1.locals = code.settle.1 ∧
      (exec B p code).1.promise.currentOutput = code.settle.2 ∧
      (exec B p code).2 = code.settle.2.toList.map .yielded := by
  cases code with
  | coAwait s =>
    have hready : p.awaitReady = (false, p) := by simp [PromiseType.awaitReady, hp]
    have he : exec B p (.coAwait s) = (⟨p, .atAwait s⟩, []) := by
      rw [exec]
      split
      · next h => rw [hready] at h; cases h
      · next h => rw [hready, Prod.mk.injEq] at h; rw [← h.2]
    rw [he]
    exact ⟨hp, rfl, hout, rfl⟩
  | coYield value rest =>
    have he : exec B p (.coYield value rest) =
        (⟨p.yieldValue value, .atYield rest⟩, [.yielded value]) := by rw [exec]
    rw [he]
    cases rest with
    | coAwait s => exact ⟨⟨rfl, s, rfl⟩, rfl, rfl, rfl⟩
    | coYield _ _ => exact hcode.elim

theorem exec_flagged (B : Body σ ι ο) (p : PromiseType ι ο) (hp : p.justYielded = true) (s : σ) :
    exec B p (.coAwait s) =
      ((exec B { p with justYielded := false } (B.resume s p.currentInput)).1,
        .returned p.currentInput ::
          (exec B { p with justYielded := false } (B.resume s p.currentInput)).2) := by
  have hready : p.awaitReady = (true, { p with justYielded := false }) := by
    simp [PromiseType.awaitReady, hp]
  rw [exec]
  split
  · next h =>
    rw [hready, Prod.mk.injEq] at h
    rw [← h.2]
    rfl
  · next h => rw [hready] at h; cases h

/-- **One push**: one `co_await` returns, with the pushed byte, and the body steps as the plain
machine does; the value returned is that of the `co_yield` executed on the way, if there is one. -/
theorem pushByte_settle (B : Body σ ι ο) (hB : B.Alternates) (f : Framer σ ι ο) (hf : f.Ready)
    (c : ι) :
    (pushByte B f c).1.Ready ∧
      (pushByte B f c).1.locals = (B.resume f.locals c).settle.1 ∧
      (pushByte B f c).2.1 = (B.resume f.locals c).settle.2 ∧
      (pushByte B f c).2.2 =
        .returned c :: (B.resume f.locals c).settle.2.toList.map .yielded := by
  obtain ⟨⟨input, output, flag⟩, suspended⟩ := f
  cases suspended with
  | atAwait s =>
    have hflag : flag = false := hf
    subst hflag
    obtain ⟨hr, hl, ho, he⟩ := exec_settle B ⟨c, none, false⟩ rfl rfl (B.resume s c) (hB.resume s c)
    exact ⟨hr, hl, ho, congrArg (List.cons _) he⟩
  | atYield rest =>
    obtain ⟨hflag, s, hs⟩ : flag = true ∧ ∃ s, rest = .coAwait s := hf
    subst hflag
    subst hs
    obtain ⟨hr, hl, ho, he⟩ := exec_settle B ⟨c, none, false⟩ rfl rfl (B.resume s c) (hB.resume s c)
    have hpush : resume B ⟨⟨c, none, true⟩, .atYield (.coAwait s)⟩ =
        ((exec B ⟨c, none, false⟩ (B.resume s c)).1,
          .returned c :: (exec B ⟨c, none, false⟩ (B.resume s c)).2) :=
      exec_flagged B ⟨c, none, true⟩ rfl s
    simp only [pushByte, hpush]
    exact ⟨hr, hl, ho, congrArg (List.cons _) he⟩

theorem create_ready [Inhabited ι] (B : Body σ ι ο) (hB : B.Alternates) : (create B).Ready := by
  obtain ⟨s, hs⟩ := hB.start
  exact (exec_settle B ⟨default, none, false⟩ rfl rfl B.start (by rw [hs]; trivial)).1

theorem create_locals [Inhabited ι] (B : Body σ ι ο) (hB : B.Alternates) :
    (create B).locals = B.start.settle.1 := by
  obtain ⟨s, hs⟩ := hB.start
  exact (exec_settle B ⟨default, none, false⟩ rfl rfl B.start (by rw [hs]; trivial)).2.1

/-! ## Whole streams -/

theorem machine_simulates (B : Body σ ι ο) (hB : B.Alternates) :
    (machine B).Simulates (plain B) fun f s => f.Ready ∧ f.locals = s := by
  rintro f s c ⟨hf, rfl⟩
  obtain ⟨hr, hl, ho, _⟩ := pushByte_settle B hB f hf c
  exact ⟨ho, hr, hl⟩

/-- A simulation of the plain machine, its values read over the locals, is one of the framer. -/
theorem Body.Alternates.simulates {B : Body σ ι ο} (hB : B.Alternates) {τ ω : Type}
    {read : σ → Option ο → ω} {N : Mealy τ ι ω} {R : σ → τ → Prop}
    (h : ((plain B).observe read).Simulates N R) :
    ((machine B).observe fun f o => read f.locals o).Simulates N
      fun f t => f.Ready ∧ R f.locals t := by
  have hplain := (machine_simulates B hB).observe (fun f o => read f.locals o) read
    (by rintro f s o ⟨-, rfl⟩; rfl)
  rintro f t c ⟨hf, hR⟩
  obtain ⟨ho, hr, hl⟩ := hplain f f.locals c ⟨hf, rfl⟩
  obtain ⟨ho', hR'⟩ := h f.locals t c hR
  rw [← hl] at hR'
  exact ⟨ho.trans ho', hr, hR'⟩

theorem run_ready (B : Body σ ι ο) (hB : B.Alternates) {f : Framer σ ι ο} (hf : f.Ready)
    (u : List ι) : ((machine B).run f u).Ready :=
  ((machine_simulates B hB).run ⟨hf, rfl⟩ u).1

theorem outputs_plain (B : Body σ ι ο) (hB : B.Alternates) {f : Framer σ ι ο} (hf : f.Ready)
    (u : List ι) : (machine B).outputs f u = (plain B).outputs f.locals u :=
  (machine_simulates B hB).outputs ⟨hf, rfl⟩ u

theorem returnedBytes_events (B : Body σ ι ο) (hB : B.Alternates) {f : Framer σ ι ο} (hf : f.Ready)
    (u : List ι) : returnedBytes (events B f u) = u := by
  induction u generalizing f with
  | nil => rfl
  | cons c u ih =>
    obtain ⟨hr, _, _, he⟩ := pushByte_settle B hB f hf c
    have hone : returnedBytes (pushByte B f c).2.2 = [c] := by
      rw [he]
      cases (B.resume f.locals c).settle.2 <;> rfl
    have ih' := ih hr
    simp only [returnedBytes] at hone ih' ⊢
    rw [events, List.filterMap_append, hone, ih', List.singleton_append]

/-- What the hand-shake owes a caller, for the framer after any bytes `u` and the next byte `c`. -/
structure HandsOver [Inhabited ι] (B : Body σ ι ο) : Prop where
  consumed : ∀ u c, returnedBytes (pushByte B ((machine B).run (create B) u) c).2.2 = [c]
  in_order : ∀ u, returnedBytes (events B (create B) u) = u
  produced : ∀ u c, yieldedValues (pushByte B ((machine B).run (create B) u) c).2.2 =
    (pushByte B ((machine B).run (create B) u) c).2.1.toList
  mealy : ∀ u, (machine B).outputs (create B) u = (plain B).outputs B.start.settle.1 u

/-- **A body whose yields and awaits alternate hands every byte over once.** -/
theorem Body.Alternates.handsOver [Inhabited ι] {B : Body σ ι ο} (hB : B.Alternates) :
    HandsOver B := by
  have hready := create_ready B hB
  constructor
  · intro u c
    obtain ⟨-, -, -, he⟩ := pushByte_settle B hB _ (run_ready B hB hready u) c
    rw [he]
    cases (B.resume ((machine B).run (create B) u).locals c).settle.2 <;> rfl
  · intro u
    exact returnedBytes_events B hB hready u
  · intro u c
    obtain ⟨-, -, ho, he⟩ := pushByte_settle B hB _ (run_ready B hB hready u) c
    rw [he, ho]
    cases (B.resume ((machine B).run (create B) u).locals c).settle.2 <;> rfl
  · intro u
    rw [outputs_plain B hB hready, create_locals B hB]

end Avionicpp.Coroutine
