import Avionicpp.Nmea0183.FramerBounds
import Avionicpp.Nmea0183.LineErrors

/-! # How long tokens last

The tokens of a view, and the members bound to them, point into the working buffer. Noise and start
delimiters are not stored there, the characters of the next body are, from the front on: a token is read
as it was until the next body has come as far as the token starts.
-/
namespace Avionicpp.Nmea0183
open Foundations Coroutine
set_option autoImplicit false

/-- The working buffer after the bytes `u`. -/
def bufferAfter (buffer : Region UInt8) (u : List UInt8) : Region UInt8 :=
  (framerAfter buffer u).locals.buffer

/-! ## What a byte does to the buffer -/

theorem storeChar_buffer (s : State) (c : UInt8) : (storeChar s c).settle.1.buffer =
    if s.buffer.size ≤ s.bufferIdx then s.buffer else s.buffer.store s.bufferIdx c := by
  unfold storeChar
  split <;> rfl

/-- Only characters of a body are stored. -/
theorem resumeWith_buffer (s : State) (c : UInt8) : (resumeWith s c).settle.1.buffer =
    if storeIndex s c = some s.bufferIdx then s.buffer.store s.bufferIdx c else s.buffer := by
  have hskip (h : storeIndex s c = none) (b b' : Region UInt8) :
      (if storeIndex s c = some s.bufferIdx then b else b') = b' := by
    rw [h, if_neg (Option.some_ne_none _).symm]
  cases hsite : s.site with
  | payload =>
    by_cases hstar : c = ascii '*'
    · rw [hskip (if_neg fun h => h.2.1 hstar), resumeWith_star hsite hstar]
      rfl
    · by_cases hlf : c = ascii '\n'
      · rw [hskip (if_neg fun h => h.2.2.1 hlf), resumeWith_newline hsite hlf]
        rfl
      · have hstored : (resumeWith s c).settle.1.buffer =
            if s.buffer.size ≤ s.bufferIdx then s.buffer else s.buffer.store s.bufferIdx c := by
          by_cases hcomma : c = ascii ','
          · rw [resumeWith_comma hsite hcomma, storeChar_buffer]
            rfl
          · rw [resumeWith_other hsite hstar hlf hcomma, storeChar_buffer]
        rw [hstored]
        by_cases hfull : s.buffer.size ≤ s.bufferIdx
        · rw [if_pos hfull, hskip (if_neg fun h => Nat.not_lt.mpr hfull h.2.2.2)]
        · have hindex : storeIndex s c = some s.bufferIdx :=
            if_pos ⟨hsite, hstar, hlf, Nat.lt_of_not_le hfull⟩
          rw [if_neg hfull, if_pos hindex]
  | search =>
    rw [hskip (if_neg fun h => by rw [hsite] at h; cases h.1)]
    simp only [resumeWith, hsite]
    split <;> rfl
  | hex1 | hex2 =>
    rw [hskip (if_neg fun h => by rw [hsite] at h; cases h.1)]
    simp only [resumeWith, hsite, Code.settle]
  | cr =>
    rw [hskip (if_neg fun h => by rw [hsite] at h; cases h.1)]
    simp only [resumeWith, hsite]
    split <;> rfl
  | lf =>
    rw [hskip (if_neg fun h => by rw [hsite] at h; cases h.1)]
    simp only [resumeWith, hsite]
    split
    · rfl
    · rw [validateChecksum_frame]

theorem bufferAfter_concat (buffer : Region UInt8) (u : List UInt8) (c : UInt8) :
    bufferAfter buffer (u ++ [c]) =
      if storeIndex (framerAfter buffer u).locals c = some (framerAfter buffer u).locals.bufferIdx then
        (bufferAfter buffer u).store (framerAfter buffer u).locals.bufferIdx c
      else bufferAfter buffer u := by
  rw [bufferAfter, framerAfter_locals_concat, resumeWith_buffer]
  rfl

theorem bufferAfter_searching {buffer : Region UInt8} {u : List UInt8}
    (hphase : phaseAfter buffer.size u = .searching) (c : UInt8) :
    bufferAfter buffer (u ++ [c]) = bufferAfter buffer u := by
  obtain ⟨-, -, hsite⟩ := framerAfter_tracks buffer u
  rw [hphase] at hsite
  have hsearch : (framerAfter buffer u).locals.site = .search := hsite
  have hnone : storeIndex (framerAfter buffer u).locals c = none := by
    rw [storeIndex, hsearch]
    exact if_neg fun h => by cases h.1
  rw [bufferAfter_concat, hnone, if_neg (Option.some_ne_none _).symm]

/-! ## What many bytes do -/

theorem phaseAfter_append (N : ℕ) (u v : List UInt8) :
    phaseAfter N (u ++ v) = (sentenceMachine N).run (phaseAfter N u) v := Mealy.run_append _ _ _ _

theorem bufferAfter_noise {buffer : Region UInt8} {u : List UInt8}
    (hphase : phaseAfter buffer.size u = .searching) {v : List UInt8} (hv : Noise v) :
    bufferAfter buffer (u ++ v) = bufferAfter buffer u := by
  induction v using List.reverseRecOn with
  | nil => rw [List.append_nil]
  | append_singleton v c ih =>
    have hquiet : Noise v := fun x hx => hv x (List.mem_append_left _ hx)
    have hbefore : phaseAfter buffer.size (u ++ v) = .searching := by
      rw [phaseAfter_append, hphase]
      exact (noise_run buffer.size v hquiet).1
    rw [← List.append_assoc, bufferAfter_searching hbefore, ih hquiet]

/-- **A body is stored from the front of the buffer on**, one character after the other. -/
theorem bufferAfter_body {buffer : Region UInt8} {u : List UInt8}
    (hphase : phaseAfter buffer.size u = .searching) {d : UInt8} (hd : IsStart d) (b : List UInt8)
    (hb : BodyText b) (hfits : b.length ≤ buffer.size) :
    bufferAfter buffer (u ++ d :: b) = (bufferAfter buffer u).storeList 0 b := by
  induction b using List.reverseRecOn with
  | nil => exact bufferAfter_searching hphase d
  | append_singleton b c ih =>
    have hfront : BodyText b := fun x hx => hb x (List.mem_append_left _ hx)
    obtain ⟨hstar, hlf⟩ := hb c (List.mem_append_right _ (List.mem_singleton_self c))
    rw [List.length_append, List.length_singleton] at hfits
    have hbody : phaseAfter buffer.size (u ++ d :: b) = .body b := by
      rw [phaseAfter_append, hphase, Mealy.run_cons, sentenceMachine_step,
        phaseStep_start buffer.size hd]
      exact (body_run buffer.size [] b hfront (by rw [List.length_nil]; omega)).1
    obtain ⟨-, hsize, hph⟩ := framerAfter_tracks buffer (u ++ d :: b)
    rw [hbody] at hph
    obtain ⟨hsite, init, cur, hreads⟩ := hph
    have hidx := hreads.idx
    have hindex : storeIndex (framerAfter buffer (u ++ d :: b)).locals c =
        some (framerAfter buffer (u ++ d :: b)).locals.bufferIdx :=
      if_pos ⟨hsite, hstar, hlf, by omega⟩
    have hsplit : u ++ d :: (b ++ [c]) = (u ++ d :: b) ++ [c] := by simp
    rw [hsplit, bufferAfter_concat, if_pos hindex, ih hfront (by omega), hidx,
      Region.storeList_append, Nat.zero_add]
    rfl

/-! ## Views -/

theorem searching_after_view {buffer : Region UInt8} {u : List UInt8} {c : UInt8} {view : MessageView}
    (h : yieldedAfter buffer u c = some (.ok view)) :
    phaseAfter buffer.size (u ++ [c]) = .searching := by
  have hresult := resultAfter_eq buffer u c
  rw [resultAfter_read, h] at hresult
  obtain ⟨sum, h1, h2, hlf⟩ := view_at_lf hresult.symm
  rw [hlf] at hresult
  rw [phaseAfter_append, hlf]
  show (phaseStep buffer.size (.lf sum _ h1 h2) c).1 = .searching
  simp only [phaseStep]
  split <;> rfl

/-- **The lifetime of a view**: through any noise and the next start delimiter its tokens are read as
when it was returned. -/
theorem tokens_last (buffer : Region UInt8) (u : List UInt8) (c : UInt8) (view : MessageView)
    (hview : yieldedAfter buffer u c = some (.ok view)) (noise : List UInt8) (hnoise : Noise noise)
    (d : UInt8) :
    view.text (bufferAfter buffer (u ++ [c] ++ noise)) = view.text (bufferAfter buffer (u ++ [c])) ∧
      view.text (bufferAfter buffer (u ++ [c] ++ noise ++ [d])) =
        view.text (bufferAfter buffer (u ++ [c])) := by
  have hphase := searching_after_view hview
  have hquiet : phaseAfter buffer.size (u ++ [c] ++ noise) = .searching := by
    rw [phaseAfter_append, hphase]
    exact (noise_run buffer.size noise hnoise).1
  rw [bufferAfter_searching hquiet, bufferAfter_noise hphase hnoise]
  exact ⟨rfl, rfl⟩

/-- **What is read through a token that is kept too long**: of the next body, the characters that have
come, from the place on where the token starts, and behind them what is left of its own. -/
theorem token_overwritten (buffer : Region UInt8) (u : List UInt8) (c : UInt8) (view : MessageView)
    (hview : yieldedAfter buffer u c = some (.ok view)) (noise : List UInt8) (hnoise : Noise noise)
    (d : UInt8) (hd : IsStart d) (b : List UInt8) (hb : BodyText b) (hfits : b.length ≤ buffer.size)
    (token : StringView) :
    token.text (bufferAfter buffer (u ++ [c] ++ noise ++ d :: b)) =
      (b.drop token.start).take token.length ++
        (token.text (bufferAfter buffer (u ++ [c]))).drop (b.length - token.start) := by
  have hphase := searching_after_view hview
  have hquiet : phaseAfter buffer.size (u ++ [c] ++ noise) = .searching := by
    rw [phaseAfter_append, hphase]
    exact (noise_run buffer.size noise hnoise).1
  rw [bufferAfter_body hquiet hd b hb hfits, bufferAfter_noise hphase hnoise]
  apply Region.read_overwritten
  · exact Region.read_storeList_self _ 0 b
  · intro i hi
    rw [Region.storeList_cell, if_pos (Nat.zero_le i), Nat.sub_zero, List.getElem?_eq_none hi,
      Option.getD_none]

theorem shortSentence_view :
    ∃ view, yieldedAfter (Region.ofList 0 (List.replicate 8 0)) shortSentence.front (ascii '\n') =
        some (.ok view) := by
  have hsearch : phaseAfter 8 [] = .searching := rfl
  obtain ⟨view, hview, -⟩ := @sentence_yielded (Region.ofList 0 (List.replicate 8 0)) [] hsearch
    shortSentence ⟨by decide, by decide, by decide, by decide⟩
  exact ⟨view, hview⟩

theorem shortSentence_lasts :
    ∃ view, yieldedAfter (Region.ofList 0 (List.replicate 8 0)) shortSentence.front (ascii '\n') =
        some (.ok view) ∧
      view.text (bufferAfter (Region.ofList 0 (List.replicate 8 0))
          (shortSentence.front ++ [ascii '\n'] ++ [0x55])) =
        view.text (bufferAfter (Region.ofList 0 (List.replicate 8 0))
          (shortSentence.front ++ [ascii '\n'])) := by
  obtain ⟨view, hview⟩ := shortSentence_view
  have hquiet : Noise [0x55] := by decide
  exact ⟨view, hview, (tokens_last _ _ _ view hview [0x55] hquiet (ascii '!')).1⟩

/-- The first character of the address is that of the next body. -/
theorem shortSentence_overwritten :
    (⟨0, 1⟩ : StringView).text (bufferAfter (Region.ofList 0 (List.replicate 8 0))
      (shortSentence.front ++ [ascii '\n'] ++ [0x55] ++ ascii '!' :: asciiText "XY")) =
        asciiText "X" := by
  obtain ⟨view, hview⟩ := shortSentence_view
  have hquiet : Noise [0x55] := by decide
  rw [token_overwritten _ _ _ view hview [0x55] hquiet (ascii '!') (Or.inr rfl) (asciiText "XY")
    (by decide) (by decide)]
  have hbehind : ((⟨0, 1⟩ : StringView).text (bufferAfter (Region.ofList 0 (List.replicate 8 0))
      (shortSentence.front ++ [ascii '\n']))).drop ((asciiText "XY").length - 0) = [] := by
    apply List.drop_of_length_le
    rw [StringView.text, Region.read_length]
    decide
  exact congrArg (asciiText "X" ++ ·) hbehind

end Avionicpp.Nmea0183
