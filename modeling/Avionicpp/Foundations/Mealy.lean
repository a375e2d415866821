import Mathlib.Data.List.Basic
import Mathlib.Data.List.Induction
import Mathlib.Data.Nat.Notation

/-! # Input-driven machines

A machine consumes one input per step and answers each input with one output. Everything here is
generic: runs and output sequences over a list of inputs, the invariant rule in two forms (over the
state alone, and over the state together with the inputs consumed so far), observation of an output
in the state reached with it, and simulation between two machines.
-/
namespace Avionicpp.Foundations
set_option autoImplicit false

structure Mealy (σ ι ο : Type) where
  step : σ → ι → σ × ο

namespace Mealy
variable {σ τ ι ο ω : Type}

def run (M : Mealy σ ι ο) : σ → List ι → σ
  | s, [] => s
  | s, c :: u => run M (M.step s c).1 u

def outputs (M : Mealy σ ι ο) : σ → List ι → List ο
  | _, [] => []
  | s, c :: u => (M.step s c).2 :: outputs M (M.step s c).1 u

@[simp] theorem run_nil (M : Mealy σ ι ο) (s : σ) : M.run s [] = s := rfl

@[simp] theorem run_cons (M : Mealy σ ι ο) (s : σ) (c : ι) (u : List ι) :
    M.run s (c :: u) = M.run (M.step s c).1 u := rfl

@[simp] theorem outputs_nil (M : Mealy σ ι ο) (s : σ) : M.outputs s [] = [] := rfl

@[simp] theorem outputs_cons (M : Mealy σ ι ο) (s : σ) (c : ι) (u : List ι) :
    M.outputs s (c :: u) = (M.step s c).2 :: M.outputs (M.step s c).1 u := rfl

theorem run_append (M : Mealy σ ι ο) (s : σ) (u v : List ι) :
    M.run s (u ++ v) = M.run (M.run s u) v := by
  induction u generalizing s with
  | nil => rfl
  | cons c u ih => exact ih _

theorem outputs_append (M : Mealy σ ι ο) (s : σ) (u v : List ι) :
    M.outputs s (u ++ v) = M.outputs s u ++ M.outputs (M.run s u) v := by
  induction u generalizing s with
  | nil => rfl
  | cons c u ih => simp only [List.cons_append, outputs_cons, run_cons, ih]

theorem run_concat (M : Mealy σ ι ο) (s : σ) (u : List ι) (c : ι) :
    M.run s (u ++ [c]) = (M.step (M.run s u) c).1 := by
  rw [run_append]; rfl

theorem outputs_concat (M : Mealy σ ι ο) (s : σ) (u : List ι) (c : ι) :
    M.outputs s (u ++ [c]) = M.outputs s u ++ [(M.step (M.run s u) c).2] := by
  rw [outputs_append]; rfl

@[simp] theorem outputs_length (M : Mealy σ ι ο) (s : σ) (u : List ι) :
    (M.outputs s u).length = u.length := by
  induction u generalizing s with
  | nil => rfl
  | cons c u ih => rw [outputs_cons, List.length_cons, List.length_cons, ih]

/-- Where only the last input is answered, no front of the inputs is. -/
theorem silent_front {M : Mealy σ ι (Option ο)} {s : σ} {u part : List ι} {x : Option ο}
    (h : M.outputs s u = List.replicate (u.length - 1) none ++ [x]) (hpart : part <+: u)
    (hlt : part.length < u.length) : M.outputs s part = List.replicate part.length none := by
  obtain ⟨rest, rfl⟩ := hpart
  have hfront := congrArg (List.take part.length) h
  rw [outputs_append, List.take_append_of_le_length (by simp), List.take_of_length_le (by simp),
    List.take_append_of_le_length (by rw [List.length_replicate]; omega), List.take_replicate,
    Nat.min_eq_left (by omega)] at hfront
  exact hfront

/-- The inputs, each with its output. -/
def trace (M : Mealy σ ι ο) (s : σ) (u : List ι) : List (ι × ο) := u.zip (M.outputs s u)

theorem trace_cons (M : Mealy σ ι ο) (s : σ) (c : ι) (u : List ι) :
    M.trace s (c :: u) = (c, (M.step s c).2) :: M.trace (M.step s c).1 u := rfl

theorem trace_concat (M : Mealy σ ι ο) (s : σ) (u : List ι) (c : ι) :
    M.trace s (u ++ [c]) = M.trace s u ++ [(c, (M.step (M.run s u) c).2)] := by
  induction u generalizing s with
  | nil => rfl
  | cons d u ih =>
    rw [List.cons_append, trace_cons, trace_cons, run_cons, ih]
    rfl

/-- An output of the trace is that of its input in the state reached before. -/
theorem mem_trace {M : Mealy σ ι ο} {s : σ} {u : List ι} {x : ι × ο} (h : x ∈ M.trace s u) :
    x.1 ∈ u ∧ ∃ made, made <+: u ∧ x.2 = (M.step (M.run s made) x.1).2 := by
  induction u generalizing s with
  | nil => cases h
  | cons c u ih =>
    rw [trace_cons, List.mem_cons] at h
    obtain rfl | h := h
    · exact ⟨List.mem_cons_self, [], List.nil_prefix, rfl⟩
    · obtain ⟨hmem, made, hfront, hout⟩ := ih h
      exact ⟨List.mem_cons_of_mem c hmem, c :: made, List.cons_prefix_cons.mpr ⟨rfl, hfront⟩, hout⟩

/-! ## Invariants -/

/-- What one step preserves on inputs of a kind, a run preserves on such inputs. -/
theorem run_invariant (M : Mealy σ ι ο) (Inv : σ → Prop) {Kind : ι → Prop}
    (step : ∀ s c, Kind c → Inv s → Inv (M.step s c).1) {s : σ} (h : Inv s) {u : List ι}
    (hu : ∀ c ∈ u, Kind c) : Inv (M.run s u) := by
  induction u generalizing s with
  | nil => exact h
  | cons c u ih =>
    have hstep := step s c (hu c (List.mem_cons_self ..)) h
    exact ih hstep fun x hx => hu x (List.mem_cons_of_mem c hx)

/-- The same rule for an invariant that relates the state to the inputs consumed so far. -/
theorem history_invariant (M : Mealy σ ι ο) (Inv : List ι → σ → Prop) {s : σ} (start : Inv [] s)
    (step : ∀ u c, Inv u (M.run s u) → Inv (u ++ [c]) (M.step (M.run s u) c).1) (u : List ι) :
    Inv u (M.run s u) := by
  induction u using List.reverseRecOn with
  | nil => exact start
  | append_singleton u c ih =>
    rw [run_concat]
    exact step u c ih

/-! ## Observation -/

/-- The machine whose outputs are read in the state that was reached together with them. -/
def observe (M : Mealy σ ι ο) (f : σ → ο → ω) : Mealy σ ι ω where
  step s c := ((M.step s c).1, f (M.step s c).1 (M.step s c).2)

theorem observe_step (M : Mealy σ ι ο) (f : σ → ο → ω) (s : σ) (c : ι) :
    (M.observe f).step s c = ((M.step s c).1, f (M.step s c).1 (M.step s c).2) := rfl

/-! ## Simulation -/

/-- Related states give equal outputs on every input and are related again afterwards. -/
def Simulates (M : Mealy σ ι ο) (N : Mealy τ ι ο) (R : σ → τ → Prop) : Prop :=
  ∀ s t c, R s t → (M.step s c).2 = (N.step t c).2 ∧ R (M.step s c).1 (N.step t c).1

theorem Simulates.run {M : Mealy σ ι ο} {N : Mealy τ ι ο} {R : σ → τ → Prop}
    (h : Simulates M N R) {s : σ} {t : τ} (hst : R s t) (u : List ι) :
    R (M.run s u) (N.run t u) := by
  induction u generalizing s t with
  | nil => exact hst
  | cons c u ih => exact ih (h s t c hst).2

theorem Simulates.outputs {M : Mealy σ ι ο} {N : Mealy τ ι ο} {R : σ → τ → Prop}
    (h : Simulates M N R) {s : σ} {t : τ} (hst : R s t) (u : List ι) :
    M.outputs s u = N.outputs t u := by
  induction u generalizing s t with
  | nil => rfl
  | cons c u ih =>
    obtain ⟨ho, hr⟩ := h s t c hst
    rw [outputs_cons, outputs_cons, ho, ih hr]

theorem Simulates.observe {M : Mealy σ ι ο} {N : Mealy τ ι ο} {R : σ → τ → Prop}
    (h : Simulates M N R) (f : σ → ο → ω) (g : τ → ο → ω) (hfg : ∀ s t o, R s t → f s o = g t o) :
    Simulates (M.observe f) (N.observe g) R := by
  intro s t c hst
  obtain ⟨ho, hr⟩ := h s t c hst
  refine ⟨?_, hr⟩
  simp only [observe_step]
  rw [ho, hfg _ _ _ hr]

end Mealy
end Avionicpp.Foundations
