import Avionicpp.Mavlink.FramerBounds

/-! # After an overrun

A frame that the payload loop or the signature loop gives up is over for the framer: it waits for a
start byte, and what the frame has left in the buffer is overwritten before it is read.
-/
namespace Avionicpp.Mavlink
open Foundations Coroutine
set_option autoImplicit false

/-- A frame of which the header and the payload do not fit, or, if they and the CRC do, the
signature. -/
structure Overruns (N : ℕ) (f : List UInt8) : Prop where
  frame : IsFrame f
  exceeds : N < headerLength f + (lenByte f).toNat ∨
    Signed f ∧ headerLength f + (lenByte f).toNat + 2 ≤ N ∧ N < frameLength f

/-- The byte with the index of the buffer's size is the first that is refused. -/
theorem Overruns.checked {N : ℕ} {f : List UInt8} (hN : 12 ≤ N) (h : Overruns N f) :
    N < f.length ∧ Checked (f.take N) := by
  obtain ⟨⟨-, hlength⟩, hexceeds⟩ := h
  have hframe := frameLength_eq f
  have hheader := headerLength_cases f
  have hlong : N < f.length := by
    obtain hpayload | ⟨-, -, hsignature⟩ := hexceeds
    · omega
    · omega
  have htake : (f.take N).length = N := by
    rw [List.length_take]
    omega
  have hh : headerLength (f.take N) = headerLength f := by
    have happ := headerLength_append (f.drop N) (f := f.take N) (by omega)
    rw [List.take_append_drop] at happ
    exact happ.symm
  have hl : lenByte (f.take N) = lenByte f := by
    have happ := lenByte_append (f.drop N) (f := f.take N) (by omega)
    rw [List.take_append_drop] at happ
    exact happ.symm
  refine ⟨hlong, ?_⟩
  rw [Checked, hh, hl, htake]
  obtain hpayload | ⟨-, hcrc, -⟩ := hexceeds
  · omega
  · omega

theorem overrun_run {N : ℕ} (hN : 12 ≤ N) {f : List UInt8} (h : Overruns N f) :
    (frameMachine N).run .idle (f.take N) = .frame (f.take N) ∧
      (frameMachine N).outputs .idle (f.take N) = List.replicate N none := by
  obtain ⟨hlong, -⟩ := h.checked hN
  obtain ⟨hstx, hlength⟩ := h.frame
  obtain ⟨c, g, rfl⟩ := List.exists_cons_of_length_pos (show 0 < f.length by omega)
  obtain ⟨n, rfl⟩ : ∃ n, N = n + 1 := ⟨N - 1, by omega⟩
  rw [List.length_cons] at hlong hlength
  have hsplit : c :: g = (c :: g.take n) ++ g.drop n := by simp
  have hshort : (c :: g.take n).length < frameLength (c :: g.take n) := by
    apply (lt_frameLength_append (c :: g.take n) (g.drop n)).mp
    rw [← hsplit, List.length_cons, List.length_take]
    omega
  have hcount : (g.take n).length = n := by
    rw [List.length_take]
    omega
  have hfront := front_silent (n + 1) (c := c) hstx (g.take n) hshort (by omega)
  rw [hcount] at hfront
  exact hfront

theorem overrun_step {N : ℕ} (hN : 12 ≤ N) {f : List UInt8} (h : Overruns N f) (x : UInt8) :
    phaseStep N (.frame (f.take N)) x = (.idle, some (.error bufferOverrun)) := by
  obtain ⟨hlong, hchecked⟩ := h.checked hN
  exact if_pos ⟨hchecked, by rw [List.length_take]; omega⟩

theorem split_byte {N : ℕ} {f : List UInt8} (h : N < f.length) :
    f = f.take N ++ f[N] :: f.drop (N + 1) := by
  rw [List.getElem_cons_drop, List.take_append_drop]

/-- What the framer returns for a frame that is given up: one error, on that byte. -/
def overrunResults (N : ℕ) (f : List UInt8) : List (Option (Except ErrorType FrameView)) :=
  List.replicate N none ++ some (.error bufferOverrun) :: List.replicate (f.length - (N + 1)) none

theorem machine_overrun {N : ℕ} (hN : 12 ≤ N) {f : List UInt8} (h : Overruns N f)
    (hrest : Noise (f.drop (N + 1))) :
    (frameMachine N).run .idle f = .idle ∧
      (frameMachine N).outputs .idle f = overrunResults N f := by
  obtain ⟨hlong, -⟩ := h.checked hN
  obtain ⟨hrun, hout⟩ := overrun_run hN h
  obtain ⟨hquiet, hnone⟩ := noise_silent N _ hrest
  have hsplit := split_byte hlong
  have hstep := overrun_step hN h f[N]
  rw [List.length_drop] at hnone
  rw [hsplit, Mealy.run_append, Mealy.outputs_append, ← hsplit, hrun, hout, Mealy.run_cons,
    Mealy.outputs_cons, frameMachine_step, hstep, hquiet, hnone]
  exact ⟨rfl, rfl⟩

/-- The error is on the byte with the index of the buffer's size. -/
theorem overrun_reported {buffer : Region UInt8} (hN : 12 ≤ buffer.size) {u : List UInt8}
    (hidle : (framerAfter buffer u).locals.site = .stx) {f : List UInt8}
    (h : Overruns buffer.size f) (x : UInt8) :
    resultAfter buffer (u ++ f.take buffer.size) x = some (.error bufferOverrun) := by
  obtain ⟨hrun, -⟩ := overrun_run hN h
  have hphase : phaseAfter buffer.size (u ++ f.take buffer.size) = .frame (f.take buffer.size) := by
    rw [phaseAfter, Mealy.run_append]
    have hbefore := phaseAfter_idle hidle
    rw [phaseAfter] at hbefore
    rw [hbefore, hrun]
  rw [resultAfter_eq, hphase, overrun_step hN h]

/-- **Recovery**: a frame that does not fit, with no start byte behind the byte on which that is
reported, and then a frame that fits give one error and the second frame, on its last byte. -/
theorem overrun_recovered (buffer : Region UInt8) (hN : 12 ≤ buffer.size) (u : List UInt8)
    (hidle : (framerAfter buffer u).locals.site = .stx) (f1 f2 : List UInt8)
    (h1 : Overruns buffer.size f1)
    (hrest : ∀ v x w, f1 = v ++ x :: w →
      resultAfter buffer (u ++ v) x = some (.error bufferOverrun) → Noise w)
    (h2 : IsFrame f2) (hfits : f2.length ≤ buffer.size) :
    resultsAfter buffer u (f1 ++ f2) = overrunResults buffer.size f1 ++
      (List.replicate (f2.length - 1) none ++ [some (.ok (frameView f2))]) := by
  obtain ⟨hlong, -⟩ := h1.checked hN
  have hnoise : Noise (f1.drop (buffer.size + 1)) :=
    hrest _ _ _ (split_byte hlong) (overrun_reported hN hidle h1 _)
  obtain ⟨hrun1, hout1⟩ := machine_overrun hN h1 hnoise
  obtain ⟨-, hout2⟩ := frame_read buffer.size f2 h2 hfits
  rw [resultsAfter_eq, phaseAfter_idle hidle, Mealy.outputs_append, hout1, hrun1, hout2]

/-- A version 2 frame of 17 bytes over a buffer of 12, and a version 1 frame of 9. -/
theorem long_frame_recovered :
    resultsAfter (Region.ofList 0 (List.replicate 12 0)) []
        ([0xFD, 5, 0, 0, 7, 1, 200, 30, 0, 0, 1, 2, 3, 4, 5, 0x12, 0x34] ++
          [0xFE, 1, 8, 1, 200, 30, 0x55, 0xAA, 0xBB]) =
      overrunResults 12 [0xFD, 5, 0, 0, 7, 1, 200, 30, 0, 0, 1, 2, 3, 4, 5, 0x12, 0x34] ++
        (List.replicate 8 none ++
          [some (.ok { msgid := 30, sysid := 1, compid := 200, seq := 8, payload := [0x55] })]) := by
  apply overrun_recovered (Region.ofList 0 (List.replicate 12 0)) (by decide) []
  · exact congrArg State.site (create_locals _ (body_alternates _))
  · exact ⟨⟨Or.inl rfl, by decide⟩, Or.inl (by decide)⟩
  · -- no byte behind the first starts a frame
    intro v x w hvw _ c hc
    have htail : Noise [5, 0, 0, 7, 1, 200, 30, 0, 0, 1, 2, 3, 4, 5, 0x12, 0x34] := by
      simp [Noise, IsStx]
    apply htail c
    cases v with
    | nil =>
      obtain ⟨-, rfl⟩ := List.cons.inj hvw
      exact hc
    | cons y v =>
      obtain ⟨-, htl⟩ := List.cons.inj hvw
      rw [htl]
      exact List.mem_append_right v (List.mem_cons_of_mem x hc)
  · exact ⟨Or.inr rfl, by decide⟩
  · decide

end Avionicpp.Mavlink
