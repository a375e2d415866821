import Avionicpp.Mavlink.PeerFrames
import Avionicpp.Mavlink.Truncation

/-! # How long a view lasts

A view points into the working buffer. The bytes that follow it are stored from the front of the buffer
on, and noise is not stored, so its payload stands until the next frame has come as far as the place
where it starts, and from then on the next frame's bytes are read through it.
-/
namespace Avionicpp.Mavlink
open Foundations Coroutine
set_option autoImplicit false

/-! ## One byte -/

theorem payloadLoop_buffer (s : State) : (payloadLoop s).settle.1.buffer = s.buffer := by
  unfold payloadLoop
  split <;> rfl

theorem signatureLoop_buffer (s : State) : (signatureLoop s).settle.1.buffer = s.buffer := by
  unfold signatureLoop
  split <;> rfl

theorem checkSignature_buffer (s : State) : (checkSignature s).settle.1.buffer = s.buffer := by
  unfold checkSignature
  split
  · exact signatureLoop_buffer s
  · rfl

/-- A byte changes the place it is stored at, and no other. -/
theorem resumeWith_buffer (s : State) (c : UInt8) :
    (storeIndex s c = none ∧ (resumeWith s c).settle.1.buffer = s.buffer) ∨
      ∃ x, storeIndex s c = some s.idx ∧
        (resumeWith s c).settle.1.buffer = s.buffer.store s.idx x := by
  unfold resumeWith storeIndex
  cases s.site with
  | stx =>
    by_cases hc : IsStx c
    · have hnot : ¬ (c ≠ 0xFD ∧ c ≠ 0xFE) := by
        rcases hc with rfl | rfl <;> decide
      simp only [if_neg hnot, if_pos hc]
      exact Or.inr ⟨c, trivial, rfl⟩
    · simp only [if_pos (not_or.mp hc), if_neg hc]
      exact Or.inl ⟨trivial, rfl⟩
  | len =>
    right
    refine ⟨c, rfl, ?_⟩
    dsimp only
    split <;> rfl
  | msgid =>
    right
    refine ⟨(c.toUInt32 &&& 0xFF).toUInt8, rfl, ?_⟩
    dsimp only
    split
    · rfl
    · exact payloadLoop_buffer _
  | idHi => exact Or.inr ⟨c, rfl, payloadLoop_buffer _⟩
  | payload =>
    by_cases hfull : s.buffer.size ≤ s.idx
    · simp only [if_pos hfull]
      exact Or.inl ⟨trivial, rfl⟩
    · simp only [if_neg hfull]
      exact Or.inr ⟨c, trivial, payloadLoop_buffer _⟩
  | crc2 => exact Or.inr ⟨c, rfl, checkSignature_buffer _⟩
  | signature =>
    by_cases hfull : s.buffer.size ≤ s.idx
    · simp only [if_pos hfull]
      exact Or.inl ⟨trivial, rfl⟩
    · simp only [if_neg hfull]
      exact Or.inr ⟨c, trivial, signatureLoop_buffer _⟩
  | incFlags | cmpFlags | seq | sys | comp | idMid | crc1 => exact Or.inr ⟨c, rfl, rfl⟩

/-- The working buffer after the bytes `u`. -/
def bufferAfter (buffer : Region UInt8) (u : List UInt8) : Region UInt8 :=
  (framerAfter buffer u).locals.buffer

theorem bufferAfter_cell {buffer : Region UInt8} {u : List UInt8} {c : UInt8} {i : ℕ}
    (h : storeIndex (framerAfter buffer u).locals c ≠ some i) :
    (bufferAfter buffer (u ++ [c])).cell i = (bufferAfter buffer u).cell i := by
  rw [bufferAfter, framerAfter_locals_concat]
  obtain ⟨-, hsame⟩ | ⟨x, hindex, hstore⟩ := resumeWith_buffer (framerAfter buffer u).locals c
  · rw [hsame]
    rfl
  · rw [hstore]
    apply Region.store_cell_ne
    rintro rfl
    exact h hindex

theorem storeIndex_idle {s : State} (h : Idles s) (c : UInt8) :
    storeIndex s c = if IsStx c then some 0 else none := by
  rw [storeIndex, h.site, h.idx]

/-! ## Many bytes -/

theorem bufferAfter_noise {buffer : Region UInt8} {u : List UInt8}
    (hidle : phaseAfter buffer.size u = .idle) {v : List UInt8} (hv : Noise v) (i : ℕ) :
    (bufferAfter buffer (u ++ v)).cell i = (bufferAfter buffer u).cell i := by
  induction v using List.reverseRecOn with
  | nil => rw [List.append_nil]
  | append_singleton v c ih =>
    have hquiet : Noise v := fun x hx => hv x (List.mem_append_left _ hx)
    have hc : ¬ IsStx c := hv c (List.mem_append_right _ (List.mem_singleton_self c))
    have hphase : phaseAfter buffer.size (u ++ v) = .idle := by
      rw [phaseAfter_append, hidle]
      exact (noise_silent buffer.size v hquiet).1
    obtain ⟨-, -, hidles⟩ := framerAfter_tracks buffer (u ++ v)
    rw [hphase] at hidles
    rw [← List.append_assoc, bufferAfter_cell, ih hquiet]
    rw [storeIndex_idle hidles, if_neg hc]
    exact (Option.some_ne_none i).symm

/-- A frame that began after `u` is no longer than what came after `u`. -/
theorem phaseAfter_length {N : ℕ} {u : List UInt8} (hidle : phaseAfter N u = .idle)
    (w : List UInt8) {f : List UInt8} (h : phaseAfter N (u ++ w) = .frame f) :
    f.length ≤ w.length := by
  induction w using List.reverseRecOn generalizing f with
  | nil =>
    rw [List.append_nil, hidle] at h
    cases h
  | append_singleton w c ih =>
    rw [← List.append_assoc, phaseAfter_concat] at h
    rw [List.length_append, List.length_singleton]
    obtain rfl | ⟨g, hg, rfl⟩ := phaseStep_frame h
    · rw [List.length_singleton]
      omega
    · have hle := ih hg
      rw [List.length_append, List.length_singleton]
      omega

/-- **What the next bytes cannot reach**: places as far behind as there are bytes. -/
theorem bufferAfter_behind {buffer : Region UInt8} {u : List UInt8}
    (hidle : phaseAfter buffer.size u = .idle) (w : List UInt8) {i : ℕ} (hi : w.length ≤ i) :
    (bufferAfter buffer (u ++ w)).cell i = (bufferAfter buffer u).cell i := by
  induction w using List.reverseRecOn with
  | nil => rw [List.append_nil]
  | append_singleton w c ih =>
    rw [List.length_append, List.length_singleton] at hi
    obtain ⟨-, -, hph⟩ := framerAfter_tracks buffer (u ++ w)
    rw [← List.append_assoc, bufferAfter_cell, ih (by omega)]
    cases hphase : phaseAfter buffer.size (u ++ w) with
    | idle =>
      rw [hphase] at hph
      rw [storeIndex_idle hph]
      split
      · rw [Ne, Option.some.injEq]
        omega
      · exact (Option.some_ne_none i).symm
    | frame f =>
      rw [hphase] at hph
      obtain ⟨-, hs, -⟩ := hph
      have hle := phaseAfter_length hidle w hphase
      rw [hs, storeIndex_frame]
      split
      · exact (Option.some_ne_none i).symm
      · rw [Ne, Option.some.injEq]
        omega

/-! ## Views -/

theorem idle_after_result {buffer : Region UInt8} {u : List UInt8} {c : UInt8} {r : ParseResult}
    (h : yieldedAfter buffer u c = some r) : phaseAfter buffer.size (u ++ [c]) = .idle := by
  have hresult := resultAfter_eq buffer u c
  rw [resultAfter, h] at hresult
  rw [phaseAfter_concat]
  cases hphase : phaseAfter buffer.size u with
  | idle =>
    rw [hphase, phaseStep] at hresult
    split at hresult <;> cases hresult
  | frame f =>
    rw [hphase, phaseStep] at hresult
    rw [phaseStep]
    by_cases hcheck : Checked f ∧ buffer.size ≤ f.length
    · rw [if_pos hcheck]
    · rw [if_neg hcheck] at hresult ⊢
      by_cases hlast : f.length + 1 = frameLength (f ++ [c])
      · rw [if_pos hlast]
      · rw [if_neg hlast] at hresult
        cases hresult

/-- A returned view is that of the frame which was being read. -/
theorem yielded_payload {buffer : Region UInt8} {u : List UInt8} {c : UInt8} {view : MessageView}
    (h : yieldedAfter buffer u c = some (.ok view)) :
    ∃ f, phaseAfter buffer.size u = .frame f ∧
      view.payload = ⟨headerLength f, (lenByte f).toNat⟩ := by
  obtain ⟨hready, -, hph⟩ := framerAfter_tracks buffer u
  have hvalue := (pushByte_settle (body buffer) (body_alternates buffer) _ hready c).2.2.1
  rw [yieldedAfter, hvalue] at h
  obtain ⟨rfl, hsite⟩ := resumeWith_view h
  cases hphase : phaseAfter buffer.size u with
  | idle =>
    rw [hphase] at hph
    rw [hph.site] at hsite
    rcases hsite with h | h <;> cases h
  | frame f =>
    rw [hphase] at hph
    obtain ⟨-, hs, -⟩ := hph
    rw [hs] at hsite ⊢
    have hbehind := site_behind hsite
    exact ⟨f, rfl, headerView_payload (by omega)⟩

theorem deserialize_same (m : MessageT) {buffer buffer' : Region UInt8} {view : MessageView}
    (h : payloadBytes buffer' view = payloadBytes buffer view) :
    deserialize m buffer' view = deserialize m buffer view := by
  by_cases hid : view.msgid = m.messageId
  · apply deserialize_congr m hid hid
    rw [h]
    exact Or.inr rfl
  · rw [deserialize_other m buffer view hid, deserialize_other m buffer' view hid]

/-- **The lifetime of a view**: through any noise, and through as many bytes behind it as lie in front
of the payload, every message is read from the view as it was when it was returned. -/
theorem view_lasts (buffer : Region UInt8) (u : List UInt8) (c : UInt8) (view : MessageView)
    (hview : yieldedAfter buffer u c = some (.ok view)) (noise w : List UInt8) (hnoise : Noise noise)
    (hw : w.length ≤ view.payload.start) (m : MessageT) :
    deserialize m (bufferAfter buffer (u ++ [c] ++ noise ++ w)) view =
      deserialize m (bufferAfter buffer (u ++ [c])) view := by
  have hidle := idle_after_result hview
  have hquiet : phaseAfter buffer.size (u ++ [c] ++ noise) = .idle := by
    rw [phaseAfter_append, hidle]
    exact (noise_silent buffer.size noise hnoise).1
  apply deserialize_same
  apply Region.read_congr
  intro j hj _
  rw [bufferAfter_behind hquiet w (by omega), bufferAfter_noise hidle hnoise]

/-- **What is read through a view that is kept too long**: of the next frame, the bytes that have come,
from the place on where the view's payload starts, and behind them what is left of its own. -/
theorem view_overwritten (buffer : Region UInt8) (u : List UInt8) (c : UInt8) (view : MessageView)
    (hview : yieldedAfter buffer u c = some (.ok view)) (noise f : List UInt8) (hnoise : Noise noise)
    (hf : Unfinished f) (hroom : f.length ≤ buffer.size) :
    payloadBytes (bufferAfter buffer (u ++ [c] ++ noise ++ f)) view =
      (f.drop view.payload.start).take view.payload.length ++
        (payloadBytes (bufferAfter buffer (u ++ [c])) view).drop (f.length - view.payload.start) := by
  have hidle := idle_after_result hview
  have hquiet : phaseAfter buffer.size (u ++ [c] ++ noise) = .idle := by
    rw [phaseAfter_append, hidle]
    exact (noise_silent buffer.size noise hnoise).1
  obtain ⟨d, g, rfl⟩ := List.exists_cons_of_length_pos hf.pos
  have hshort := hf.short
  rw [List.length_cons] at hshort hroom
  have hphase : phaseAfter buffer.size (u ++ [c] ++ noise ++ d :: g) = .frame (d :: g) := by
    rw [phaseAfter_append, hquiet]
    exact (front_silent buffer.size hf.stx g hshort hroom).1
  obtain ⟨-, -, hph⟩ := framerAfter_tracks buffer (u ++ [c] ++ noise ++ d :: g)
  rw [hphase] at hph
  obtain ⟨-, -, hread⟩ := hph
  have hfront : (bufferAfter buffer (u ++ [c] ++ noise ++ d :: g)).read 0 (d :: g).length = d :: g :=
    hread
  apply Region.read_overwritten hfront
  intro i hi
  rw [bufferAfter_behind hquiet _ hi, bufferAfter_noise hidle hnoise]

/-- A version 1 frame with one byte of payload. -/
def shortFront : List UInt8 := [0xFE, 1, 7, 1, 2, 30, 0x55, 0xAA]

theorem shortFront_yielded :
    ∃ view, yieldedAfter (Region.ofList 0 (List.replicate 12 0)) shortFront 0xBB = some (.ok view) ∧
      view.payload = ⟨6, 1⟩ := by
  have hresult : resultAfter (Region.ofList 0 (List.replicate 12 0)) shortFront 0xBB =
      some (.ok ⟨30, 1, 2, 7, [0x55]⟩) := by
    rw [resultAfter_eq]
    decide
  obtain ⟨view, hview, -⟩ := yielded_of_result hresult
  obtain ⟨f, hphase, hpayload⟩ := yielded_payload hview
  have hfront : phaseAfter 12 shortFront = .frame shortFront := by decide
  obtain rfl := Phase.frame.inj (hfront.symm.trans hphase)
  exact ⟨view, hview, hpayload⟩

/-- A line feed, and then the header of another frame. -/
theorem shortFront_lasts :
    ∃ view, yieldedAfter (Region.ofList 0 (List.replicate 12 0)) shortFront 0xBB = some (.ok view) ∧
      deserialize Payloads.attitude (bufferAfter (Region.ofList 0 (List.replicate 12 0))
          (shortFront ++ [0xBB] ++ [0x0A] ++ [0xFE, 4, 8, 1, 200, 30])) view =
        deserialize Payloads.attitude (bufferAfter (Region.ofList 0 (List.replicate 12 0))
          (shortFront ++ [0xBB])) view := by
  obtain ⟨view, hview, hpayload⟩ := shortFront_yielded
  refine ⟨view, hview, ?_⟩
  apply view_lasts _ shortFront 0xBB view hview [0x0A] _ (by simp [Noise, IsStx])
  rw [hpayload]
  decide

/-- One byte later the payload is the other frame's. -/
theorem shortFront_overwritten :
    ∃ view, yieldedAfter (Region.ofList 0 (List.replicate 12 0)) shortFront 0xBB = some (.ok view) ∧
      payloadBytes (bufferAfter (Region.ofList 0 (List.replicate 12 0))
          (shortFront ++ [0xBB] ++ [0x0A] ++ [0xFE, 4, 8, 1, 200, 30, 0x66])) view = [0x66] := by
  obtain ⟨view, hview, hpayload⟩ := shortFront_yielded
  refine ⟨view, hview, ?_⟩
  have hread := view_overwritten _ shortFront 0xBB view hview [0x0A] [0xFE, 4, 8, 1, 200, 30, 0x66]
    (by simp [Noise, IsStx]) ⟨Or.inr rfl, by decide, by decide⟩ (by decide)
  have hbehind : (payloadBytes (bufferAfter (Region.ofList 0 (List.replicate 12 0))
      (shortFront ++ [0xBB])) view).drop 1 = [] := by
    apply List.drop_of_length_le
    rw [payloadBytes, Region.read_length, hpayload]
  rw [hread, hpayload]
  exact congrArg ([0x66] ++ ·) hbehind

end Avionicpp.Mavlink
