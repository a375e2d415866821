import Avionicpp.Foundations.LittleEndian
import Avionicpp.Mavlink.Framer
import Mathlib.Data.List.GetD

/-! # The frame machine

What the framer does, told from the bytes of the frame that is being read: nothing else is remembered.
A frame is a version 1 frame behind `0xFE` and a version 2 frame behind `0xFD`. The working buffer of
size `N` shows in one place only: a payload byte or a signature byte that finds the buffer full ends
the frame with an error.

All readings of a frame are made so that they may be taken of an unfinished one: a byte that has not
come yet reads as zero, as the variables of the coroutine do.
-/
namespace Avionicpp.Mavlink
open Foundations
set_option autoImplicit false

def IsStx (c : UInt8) : Prop := c = 0xFD ∨ c = 0xFE

instance (c : UInt8) : Decidable (IsStx c) := inferInstanceAs (Decidable (_ ∨ _))

/-- Bytes that start no frame. -/
def Noise (v : List UInt8) : Prop := ∀ c ∈ v, ¬ IsStx c

/-! ## Reading a frame -/

def magic (f : List UInt8) : UInt8 := f.getD 0 0

def lenByte (f : List UInt8) : UInt8 := f.getD 1 0

def headerLength (f : List UInt8) : ℕ := if magic f = 0xFD then 10 else 6

/-- Version 2, with bit 0 of the incompatibility flags. -/
def Signed (f : List UInt8) : Prop := magic f = 0xFD ∧ f.getD 2 0 &&& 0x01 ≠ 0

instance (f : List UInt8) : Decidable (Signed f) := inferInstanceAs (Decidable (_ ∧ _))

def frameLength (f : List UInt8) : ℕ :=
  if magic f = 0xFD then 12 + (lenByte f).toNat + (if f.getD 2 0 &&& 0x01 ≠ 0 then 13 else 0)
  else 8 + (lenByte f).toNat

/-- The fields of the header, and where the payload lies once the header is complete. -/
def headerView (f : List UInt8) : MessageView :=
  let payload : Span := if headerLength f ≤ f.length then ⟨headerLength f, (lenByte f).toNat⟩ else ⟨0, 0⟩
  if magic f = 0xFD then
    ⟨UInt32.ofNat (ofBytes ((f.drop 7).take 3)), f.getD 5 0, f.getD 6 0, f.getD 4 0, payload⟩
  else ⟨UInt32.ofNat (ofBytes ((f.drop 5).take 1)), f.getD 3 0, f.getD 4 0, f.getD 2 0, payload⟩

/-- What a complete frame says: version 2 has a three-byte message id, version 1 one of one byte. -/
def frameView (f : List UInt8) : FrameView :=
  if magic f = 0xFD then
    { seq := f.getD 4 0
      sysid := f.getD 5 0
      compid := f.getD 6 0
      msgid := UInt32.ofNat (ofBytes ((f.drop 7).take 3))
      payload := (f.drop 10).take (lenByte f).toNat }
  else
    { seq := f.getD 2 0
      sysid := f.getD 3 0
      compid := f.getD 4 0
      msgid := UInt32.ofNat (ofBytes ((f.drop 5).take 1))
      payload := (f.drop 6).take (lenByte f).toNat }

/-! ## The machine -/

inductive Phase where
  | idle
  | frame (f : List UInt8)
  deriving DecidableEq

/-- The next byte belongs to the payload or to the signature. -/
def Checked (f : List UInt8) : Prop :=
  headerLength f ≤ f.length ∧ f.length ≠ headerLength f + (lenByte f).toNat ∧
    f.length ≠ headerLength f + (lenByte f).toNat + 1

instance (f : List UInt8) : Decidable (Checked f) := inferInstanceAs (Decidable (_ ∧ _ ∧ _))

def phaseStep (N : ℕ) (ph : Phase) (c : UInt8) : Phase × Option (Except ErrorType FrameView) :=
  match ph with
  | .idle => if IsStx c then (.frame [c], none) else (.idle, none)
  | .frame f =>
    if Checked f ∧ N ≤ f.length then (.idle, some (.error bufferOverrun))
    else if f.length + 1 = frameLength (f ++ [c]) then (.idle, some (.ok (frameView (f ++ [c]))))
    else (.frame (f ++ [c]), none)

def frameMachine (N : ℕ) : Mealy Phase UInt8 (Option (Except ErrorType FrameView)) where
  step := phaseStep N

@[simp] theorem frameMachine_step (N : ℕ) (ph : Phase) (c : UInt8) :
    (frameMachine N).step ph c = phaseStep N ph c := rfl

/-! ## Longer and shorter frames -/

theorem getD_append_of_lt {f g : List UInt8} {k : ℕ} (h : k < f.length) :
    (f ++ g).getD k 0 = f.getD k 0 := List.getD_append f g 0 k h

section
variable {f : List UInt8} (g : List UInt8)

theorem magic_append (h : 0 < f.length) : magic (f ++ g) = magic f := getD_append_of_lt h

theorem headerLength_append (h : 0 < f.length) : headerLength (f ++ g) = headerLength f := by
  simp only [headerLength, magic_append g h]

theorem lenByte_append (h : 1 < f.length) : lenByte (f ++ g) = lenByte f := getD_append_of_lt h

theorem frameLength_append (h : 2 < f.length) : frameLength (f ++ g) = frameLength f := by
  have hmagic : magic (f ++ g) = magic f := magic_append g (by omega)
  have hlen : lenByte (f ++ g) = lenByte f := lenByte_append g (by omega)
  simp only [frameLength, hmagic, hlen, getD_append_of_lt h]

end

theorem headerLength_cases (f : List UInt8) : headerLength f = 6 ∨ headerLength f = 10 := by
  unfold headerLength
  split
  · exact Or.inr rfl
  · exact Or.inl rfl

theorem frameLength_eq (f : List UInt8) :
    frameLength f = headerLength f + (lenByte f).toNat + 2 + if Signed f then 13 else 0 := by
  unfold frameLength headerLength Signed
  by_cases hm : magic f = 0xFD
  · simp only [hm, if_true, true_and]
    omega
  · simp only [hm, if_false, false_and]
    omega

theorem frameLength_le (f : List UInt8) : frameLength f ≤ 280 := by
  have hlen := (lenByte f).toNat_lt
  have hheader := headerLength_cases f
  rw [frameLength_eq]
  split <;> omega

theorem eight_le_frameLength (f : List UInt8) : 8 ≤ frameLength f := by
  have hheader := headerLength_cases f
  rw [frameLength_eq]
  omega

theorem lt_frameLength_append (f g : List UInt8) :
    f.length < frameLength (f ++ g) ↔ f.length < frameLength f := by
  by_cases h : 2 < f.length
  · rw [frameLength_append g h]
  · have h1 := eight_le_frameLength f
    have h2 := eight_le_frameLength (f ++ g)
    omega

theorem headerView_payload {f : List UInt8} (h : headerLength f ≤ f.length) :
    (headerView f).payload = ⟨headerLength f, (lenByte f).toNat⟩ := by
  simp only [headerView, if_pos h]
  split <;> rfl

theorem frameView_eq (f : List UInt8) :
    frameView f = ⟨(headerView f).msgid, (headerView f).sysid, (headerView f).compid,
      (headerView f).seq, (f.drop (headerLength f)).take (lenByte f).toNat⟩ := by
  by_cases hm : magic f = 0xFD
  · simp only [frameView, headerView, headerLength, if_pos hm]
  · simp only [frameView, headerView, headerLength, if_neg hm]

theorem headerView_append {f : List UInt8} (g : List UInt8) (h : headerLength f ≤ f.length) :
    headerView (f ++ g) = headerView f := by
  have hheader := headerLength_cases f
  have hle : headerLength f ≤ (f ++ g).length := by
    rw [List.length_append]
    omega
  unfold headerView
  rw [headerLength_append g (by omega), magic_append g (by omega), lenByte_append g (by omega),
    if_pos h, if_pos hle]
  by_cases hm : magic f = 0xFD
  · have h10 : headerLength f = 10 := if_pos hm
    have hid : ((f ++ g).drop 7).take 3 = (f.drop 7).take 3 := by
      rw [List.drop_append_of_le_length (by omega),
        List.take_append_of_le_length (by rw [List.length_drop]; omega)]
    rw [if_pos hm, if_pos hm, hid, getD_append_of_lt (by omega), getD_append_of_lt (by omega),
      getD_append_of_lt (by omega)]
  · have hid : ((f ++ g).drop 5).take 1 = (f.drop 5).take 1 := by
      rw [List.drop_append_of_le_length (by omega),
        List.take_append_of_le_length (by rw [List.length_drop]; omega)]
    rw [if_neg hm, if_neg hm, hid, getD_append_of_lt (by omega), getD_append_of_lt (by omega),
      getD_append_of_lt (by omega)]

theorem phaseStep_frame {N : ℕ} {ph : Phase} {c : UInt8} {f : List UInt8}
    (h : (phaseStep N ph c).1 = .frame f) : f = [c] ∨ ∃ g, ph = .frame g ∧ f = g ++ [c] := by
  cases ph with
  | idle =>
    rw [phaseStep] at h
    split at h
    · exact Or.inl (Phase.frame.inj h).symm
    · cases h
  | frame g =>
    rw [phaseStep] at h
    split at h
    · cases h
    · split at h
      · cases h
      · exact Or.inr ⟨g, rfl, (Phase.frame.inj h).symm⟩

/-! ## Runs over a frame -/

/-- Nothing is returned until the frame is complete, as long as the buffer holds what has come. -/
theorem frame_silent (N : ℕ) (f v : List UInt8) (hshort : f.length + v.length < frameLength (f ++ v))
    (hroom : f.length + v.length ≤ N) :
    (frameMachine N).run (.frame f) v = .frame (f ++ v) ∧
      (frameMachine N).outputs (.frame f) v = List.replicate v.length none := by
  induction v generalizing f with
  | nil => simp
  | cons c v ih =>
    have hsplit : f ++ c :: v = (f ++ [c]) ++ v := by simp
    have hlen : (f ++ [c]).length = f.length + 1 := by simp
    rw [List.length_cons] at hshort hroom
    rw [hsplit] at hshort ⊢
    have hmore : f.length + 1 < frameLength (f ++ [c]) := by
      have h := (lt_frameLength_append (f ++ [c]) v).mp (by omega)
      omega
    have hcheck : ¬ (Checked f ∧ N ≤ f.length) := fun h => absurd h.2 (by omega)
    have hstep : phaseStep N (.frame f) c = (.frame (f ++ [c]), none) := by
      rw [phaseStep, if_neg hcheck, if_neg (Nat.ne_of_lt hmore)]
    obtain ⟨hrun, hout⟩ := ih (f ++ [c]) (by omega) (by omega)
    rw [Mealy.run_cons, Mealy.outputs_cons, frameMachine_step, hstep]
    exact ⟨hrun, congrArg (List.cons none) hout⟩

theorem noise_silent (N : ℕ) (v : List UInt8) (hv : Noise v) :
    (frameMachine N).run .idle v = .idle ∧
      (frameMachine N).outputs .idle v = List.replicate v.length none := by
  induction v with
  | nil => exact ⟨rfl, rfl⟩
  | cons c v ih =>
    have hstep : phaseStep N .idle c = (.idle, none) := if_neg (hv c (List.mem_cons_self ..))
    obtain ⟨hrun, hout⟩ := ih fun x hx => hv x (List.mem_cons_of_mem c hx)
    rw [Mealy.run_cons, Mealy.outputs_cons, frameMachine_step, hstep]
    exact ⟨hrun, congrArg (List.cons none) hout⟩

structure IsFrame (f : List UInt8) : Prop where
  stx : IsStx (magic f)
  length : f.length = frameLength f

/-- The front of a frame, from its start byte on. -/
theorem front_silent (N : ℕ) {c : UInt8} (hc : IsStx c) (v : List UInt8)
    (hshort : v.length + 1 < frameLength (c :: v)) (hroom : v.length + 1 ≤ N) :
    (frameMachine N).run .idle (c :: v) = .frame (c :: v) ∧
      (frameMachine N).outputs .idle (c :: v) = List.replicate (v.length + 1) none := by
  have hfirst : phaseStep N .idle c = (.frame [c], none) := if_pos hc
  obtain ⟨hrun, hout⟩ := frame_silent N [c] v
    (by rw [List.length_singleton, List.singleton_append]; omega)
    (by rw [List.length_singleton]; omega)
  rw [Mealy.run_cons, Mealy.outputs_cons, frameMachine_step, hfirst]
  exact ⟨hrun, congrArg (List.cons none) hout⟩

/-- A frame that the buffer holds is returned on its last byte. -/
theorem frame_read (N : ℕ) (f : List UInt8) (hf : IsFrame f) (hroom : f.length ≤ N) :
    (frameMachine N).run .idle f = .idle ∧
      (frameMachine N).outputs .idle f =
        List.replicate (f.length - 1) none ++ [some (.ok (frameView f))] := by
  obtain ⟨hstx, hlength⟩ := hf
  have hlong := eight_le_frameLength f
  -- the frame is its start byte, the bytes between, and its last byte
  obtain ⟨c, g, rfl⟩ := List.exists_cons_of_length_pos (show 0 < f.length by omega)
  have hgne : g ≠ [] := by
    rintro rfl
    rw [List.length_singleton] at hlength
    omega
  obtain ⟨v, x, rfl⟩ : ∃ v x, g = v ++ [x] := ⟨_, _, (List.dropLast_append_getLast hgne).symm⟩
  have hsplit : c :: (v ++ [x]) = (c :: v) ++ [x] := rfl
  rw [hsplit] at hlength hroom hstx ⊢
  have hlen : (c :: v ++ [x]).length = v.length + 2 := by simp
  have hshort : v.length + 1 < frameLength (c :: v) := by
    have h := (lt_frameLength_append (c :: v) [x]).mp (by rw [List.length_cons]; omega)
    rwa [List.length_cons] at h
  obtain ⟨hrun, hout⟩ := front_silent N (c := c) hstx v hshort (by omega)
  have hcheck : ¬ (Checked (c :: v) ∧ N ≤ (c :: v).length) := by
    intro h
    rw [List.length_cons] at h
    omega
  have hlast : phaseStep N (.frame (c :: v)) x = (.idle, some (.ok (frameView (c :: v ++ [x])))) := by
    rw [phaseStep, if_neg hcheck, if_pos (by rw [List.length_cons]; omega)]
  constructor
  · rw [Mealy.run_concat, hrun, frameMachine_step, hlast]
  · rw [Mealy.outputs_concat, hrun, hout, frameMachine_step, hlast, hlen]
    rfl

end Avionicpp.Mavlink
