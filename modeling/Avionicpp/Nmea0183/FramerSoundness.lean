import Avionicpp.Nmea0183.SentenceStream

/-! # What the framer accepts

The history of the bytes pushed so far fixes what each phase of the sentence machine stands for
(`Explains`). Behind a body there are two cases: the body was closed by its `*` (`Closed`), or the
sentence was given up inside the payload loop (`Abandoned`) and the code went on to the checksum
characters all the same. A view of the first kind is sound. A view of the second kind never is, and
it is given exactly when the four bytes after the reported error pass for the end of a sentence.
-/
namespace Avionicpp.Nmea0183
open Foundations Coroutine
set_option autoImplicit false

/-! ## Statements about the framer -/

/-- A view returned on the byte `c` after the bytes `u` is sound: these bytes end in a sentence whose
body fits, with the right checksum, the view shows its tokens, and nothing was returned on an earlier
byte of it. -/
def SoundView (buffer : Region UInt8) (u : List UInt8) (c : UInt8) (view : TextView) : Prop :=
  ∃ p : List UInt8, ∃ s : Sentence, u ++ [c] = p ++ s.bytes ∧ s.Valid buffer.size ∧ view = s.view ∧
    resultsAfter buffer p s.front = List.replicate s.front.length none

/-- The byte makes the payload loop report an error: a newline, or a byte that would be stored in a
full buffer. -/
def GivesUp (s : State) (c : UInt8) : Prop :=
  s.site = .payload ∧ (c = ascii '\n' ∨ c ≠ ascii '*' ∧ s.buffer.size ≤ s.bufferIdx)

/-- Somewhere in the bytes `u` the payload loop gives up a sentence, and the next four bytes are the
checksum of the part read so far and an end of line. -/
def StaleVerdict (buffer : Region UInt8) (u : List UInt8) : Prop :=
  ∃ (p : List UInt8) (x h1 h2 : UInt8), p ++ [x, h1, h2, ascii '\r', ascii '\n'] <+: u ∧
    GivesUp (framerAfter buffer p).locals x ∧
    hexByte h1 h2 = some (framerAfter buffer p).locals.calculatedChecksum

/-! ## The same on the sentence machine -/

/-- The bytes `u` end in a body closed by its `*`, and nothing was returned since its start. -/
def Closed (N : ℕ) (u : List UInt8) (sum : UInt8) (view : TextView) : Prop :=
  ∃ (p : List UInt8) (d : UInt8) (b : List UInt8), u = p ++ d :: b ++ [ascii '*'] ∧
    phaseAfter N p = .searching ∧ IsStart d ∧ BodyText b ∧ b.length ≤ N ∧ sum = checksum b ∧
    view = viewOf (tokens b)

/-- The last byte of `u` made the payload loop give up the body read so far. -/
def Abandoned (N : ℕ) (u : List UInt8) (sum : UInt8) : Prop :=
  ∃ (p : List UInt8) (x : UInt8) (b : List UInt8), u = p ++ [x] ∧ phaseAfter N p = .body b ∧
    (x = ascii '\n' ∨ x ≠ ascii '*' ∧ N ≤ b.length) ∧ sum = checksum b

def AtChecksum (N : ℕ) (u : List UInt8) (sum : UInt8) (view : TextView) : Prop :=
  Closed N u sum view ∨ Abandoned N u sum

/-- What a phase says about the bytes pushed so far. -/
def Explains (N : ℕ) (u : List UInt8) : Phase → Prop
  | .searching => True
  | .body b => ∃ (p : List UInt8) (d : UInt8), u = p ++ d :: b ∧ phaseAfter N p = .searching ∧
      IsStart d ∧ BodyText b ∧ b.length ≤ N
  | .hex1 sum view => AtChecksum N u sum view
  | .hex2 sum view h1 => ∃ v, u = v ++ [h1] ∧ AtChecksum N v sum view
  | .cr sum view h1 h2 => ∃ v, u = v ++ [h1, h2] ∧ AtChecksum N v sum view
  | .lf sum view h1 h2 => ∃ v, u = v ++ [h1, h2, ascii '\r'] ∧ AtChecksum N v sum view

theorem phaseAfter_concat (N : ℕ) (u : List UInt8) (c : UInt8) :
    phaseAfter N (u ++ [c]) = (phaseStep N (phaseAfter N u) c).1 :=
  Mealy.run_concat _ _ _ _

theorem explains_body {N : ℕ} {u b : List UInt8} {c : UInt8} (hphase : phaseAfter N u = .body b)
    (h : Explains N u (.body b)) : Explains N (u ++ [c]) (bodyStep N b c).1 := by
  obtain ⟨p, d, hu, hsearch, hd, hb, hfits⟩ := h
  by_cases hstar : c = ascii '*'
  · subst hstar
    rw [bodyStep, if_pos rfl]
    exact Or.inl ⟨p, d, b, by rw [hu], hsearch, hd, hb, hfits, rfl, rfl⟩
  · by_cases hlf : c = ascii '\n'
    · subst hlf
      rw [bodyStep, if_neg hstar, if_pos rfl]
      exact Or.inr ⟨u, _, b, rfl, hphase, Or.inl rfl, rfl⟩
    · by_cases hfull : N ≤ b.length
      · rw [bodyStep, if_neg hstar, if_neg hlf, if_pos hfull]
        exact Or.inr ⟨u, c, b, rfl, hphase, Or.inr ⟨hstar, hfull⟩, rfl⟩
      · rw [bodyStep, if_neg hstar, if_neg hlf, if_neg hfull]
        refine ⟨p, d, by rw [hu]; simp, hsearch, hd, ?_, by simp; omega⟩
        intro x hx
        obtain hx | hx := List.mem_append.mp hx
        · exact hb x hx
        · rw [List.mem_singleton.mp hx]
          exact ⟨hstar, hlf⟩

theorem phaseAfter_explains (N : ℕ) (u : List UInt8) : Explains N u (phaseAfter N u) := by
  apply Mealy.history_invariant (sentenceMachine N) (Explains N) (s := .searching) trivial
  intro u c h
  have hphase : (sentenceMachine N).run .searching u = phaseAfter N u := rfl
  rw [hphase] at h ⊢
  rw [sentenceMachine_step]
  cases hph : phaseAfter N u with
  | searching =>
    by_cases hc : IsStart c
    · rw [phaseStep_start N hc]
      exact ⟨u, c, rfl, hph, hc, by simp [BodyText], Nat.zero_le N⟩
    · rw [phaseStep_noise N hc]
      trivial
  | body b =>
    rw [hph] at h
    exact explains_body hph h
  | hex1 sum view =>
    rw [hph] at h
    exact ⟨u, rfl, h⟩
  | hex2 sum view h1 =>
    rw [hph] at h
    obtain ⟨v, rfl, hv⟩ := h
    exact ⟨v, by simp, hv⟩
  | cr sum view h1 h2 =>
    rw [hph] at h
    obtain ⟨v, rfl, hv⟩ := h
    simp only [phaseStep]
    by_cases hc : c = ascii '\r'
    · rw [if_pos hc, hc]
      exact ⟨v, by simp, hv⟩
    · rw [if_neg hc]
      trivial
  | lf sum view h1 h2 =>
    simp only [phaseStep]
    by_cases hc : c = ascii '\n'
    · rw [if_pos hc]
      trivial
    · rw [if_neg hc]
      trivial

theorem view_given {N : ℕ} {ph : Phase} {c : UInt8} {view : TextView}
    (h : (phaseStep N ph c).2 = some (.ok view)) :
    ∃ sum h1 h2, ph = .lf sum view h1 h2 ∧ c = ascii '\n' ∧ hexByte h1 h2 = some sum := by
  cases ph with
  | searching => simp [phaseStep] at h
  | body b =>
    simp only [phaseStep, bodyStep] at h
    split_ifs at h <;> simp at h
  | hex1 sum v => simp [phaseStep] at h
  | hex2 sum v h1 => simp [phaseStep] at h
  | cr sum v h1 h2 =>
    simp only [phaseStep] at h
    split_ifs at h
    simp at h
  | lf sum v h1 h2 =>
    simp only [phaseStep] at h
    by_cases hc : c = ascii '\n'
    · rw [if_pos hc] at h
      simp only [verdict, Option.some.injEq] at h
      cases hx : hexByte h1 h2 with
      | none => simp [hx] at h
      | some x =>
        simp only [hx] at h
        by_cases hxs : x = sum
        · rw [if_pos hxs, Except.ok.injEq] at h
          subst h
          exact ⟨sum, h1, h2, rfl, hc, by rw [hx, hxs]⟩
        · rw [if_neg hxs] at h
          cases h
    · rw [if_neg hc] at h
      simp at h

/-! ## From the machine to the framer -/

theorem givesUp_iff (buffer : Region UInt8) (p : List UInt8) (x : UInt8) :
    GivesUp (framerAfter buffer p).locals x ↔
      ∃ b, phaseAfter buffer.size p = .body b ∧
        (x = ascii '\n' ∨ x ≠ ascii '*' ∧ buffer.size ≤ b.length) ∧
        (framerAfter buffer p).locals.calculatedChecksum = checksum b := by
  obtain ⟨-, hsize, hph⟩ := framerAfter_tracks buffer p
  unfold GivesUp
  rw [hsize]
  cases hphase : phaseAfter buffer.size p with
  | body b =>
    rw [hphase] at hph
    obtain ⟨hsite, init, cur, hreads⟩ := hph
    simp only [hsite, hreads.idx, hreads.sum, true_and, Phase.body.injEq]
    exact ⟨fun h => ⟨b, rfl, h, rfl⟩, by rintro ⟨_, rfl, h, -⟩; exact h⟩
  | searching =>
    rw [hphase] at hph
    have hsite : (framerAfter buffer p).locals.site = .search := hph
    simp [hsite]
  | hex1 sum view =>
    rw [hphase] at hph
    simp [hph.1]
  | hex2 sum view h1 =>
    rw [hphase] at hph
    simp [hph.1]
  | cr sum view h1 h2 =>
    rw [hphase] at hph
    simp [hph.1]
  | lf sum view h1 h2 =>
    rw [hphase] at hph
    simp [hph.1]

theorem closed_sound (buffer : Region UInt8) {v : List UInt8} {sum h1 h2 : UInt8} {view : TextView}
    (h : Closed buffer.size v sum view) (hsum : hexByte h1 h2 = some sum) :
    SoundView buffer (v ++ [h1, h2, ascii '\r']) (ascii '\n') view := by
  obtain ⟨p, d, b, rfl, hsearch, hd, hb, hfits, rfl, rfl⟩ := h
  refine ⟨p, ⟨d, b, h1, h2⟩, by simp [Sentence.bytes, Sentence.front], ⟨hd, hb, hfits, hsum⟩, rfl,
    ?_⟩
  rw [resultsAfter_eq, hsearch]
  exact (front_run buffer.size ⟨d, b, h1, h2⟩ hd hb hfits).2

theorem abandoned_run {N : ℕ} {p b : List UInt8} {x : UInt8} (hphase : phaseAfter N p = .body b)
    (hx : x = ascii '\n' ∨ x ≠ ascii '*' ∧ N ≤ b.length) (h1 h2 : UInt8) :
    ∃ view, phaseAfter N (p ++ [x, h1, h2, ascii '\r']) = .lf (checksum b) view h1 h2 := by
  have hstep : ∃ view, (bodyStep N b x).1 = .hex1 (checksum b) view := by
    obtain rfl | ⟨hstar, hfull⟩ := hx
    · exact ⟨_, by rw [bodyStep, if_neg (by decide), if_pos rfl]⟩
    · by_cases hlf : x = ascii '\n'
      · exact ⟨_, by rw [bodyStep, if_neg hstar, if_pos hlf]⟩
      · exact ⟨_, by rw [bodyStep, if_neg hstar, if_neg hlf, if_pos hfull]⟩
  obtain ⟨view, hview⟩ := hstep
  refine ⟨view, ?_⟩
  have hrun : phaseAfter N (p ++ [x, h1, h2, ascii '\r']) =
      (sentenceMachine N).run (phaseAfter N p) [x, h1, h2, ascii '\r'] := Mealy.run_append _ _ _ _
  rw [hrun, hphase]
  simp only [Mealy.run_cons, Mealy.run_nil, sentenceMachine_step, phaseStep, hview, if_true]

theorem sentence_star {p q : List UInt8} {x h1 h2 : UInt8} {s : Sentence}
    (h : p ++ [x, h1, h2, ascii '\r', ascii '\n'] = q ++ s.bytes) : x = ascii '*' := by
  have hbytes : q ++ s.bytes =
      (q ++ s.delimiter :: s.body) ++ [ascii '*', s.h1, s.h2, ascii '\r', ascii '\n'] := by
    simp [Sentence.bytes, Sentence.front]
  rw [hbytes] at h
  have htail := (List.append_inj' h rfl).2
  exact (List.cons.inj htail).1

/-- **Soundness of the framer, and its exact limit**: over a run, every view returned is sound if and
only if no sentence given up in the payload loop is followed by its stale verdict. -/
theorem views_sound_iff (buffer : Region UInt8) (u : List UInt8) :
    (∀ p c view, p ++ [c] <+: u → resultAfter buffer p c = some (.ok view) →
      SoundView buffer p c view) ↔ ¬ StaleVerdict buffer u := by
  constructor
  · rintro hsound ⟨p, x, h1, h2, hprefix, hgives, hsum⟩
    obtain ⟨b, hphase, hx, hcheck⟩ := (givesUp_iff buffer p x).mp hgives
    obtain ⟨view, hlf⟩ := abandoned_run hphase hx h1 h2
    have hresult : resultAfter buffer (p ++ [x, h1, h2, ascii '\r']) (ascii '\n') =
        some (.ok view) := by
      rw [hcheck] at hsum
      rw [resultAfter_eq, hlf]
      simp only [phaseStep, if_true, verdict, hsum]
    obtain ⟨q, s, hbytes, -⟩ := hsound _ _ view (by simpa using hprefix) hresult
    have hstar : x = ascii '*' := sentence_star (q := q) (s := s) (by simpa using hbytes)
    subst hstar
    obtain hlf | hne := hx
    · exact absurd hlf (by decide)
    · exact hne.1 rfl
  · intro hstale p c view hprefix hresult
    rw [resultAfter_eq] at hresult
    obtain ⟨sum, h1, h2, hphase, rfl, hsum⟩ := view_given hresult
    have hexplains := phaseAfter_explains buffer.size p
    rw [hphase] at hexplains
    obtain ⟨v, rfl, hclosed | habandoned⟩ := hexplains
    · exact closed_sound buffer hclosed hsum
    · obtain ⟨q, x, b, rfl, hbody, hx, rfl⟩ := habandoned
      have hgives : GivesUp (framerAfter buffer q).locals x := by
        obtain ⟨-, hsize, htracks⟩ := framerAfter_tracks buffer q
        rw [hbody] at htracks
        obtain ⟨hsite, init, cur, hreads⟩ := htracks
        exact ⟨hsite, by rw [hsize, hreads.idx]; exact hx⟩
      obtain ⟨b', hbody', -, hcheck⟩ := (givesUp_iff buffer q x).mp hgives
      rw [hbody, Phase.body.injEq] at hbody'
      subst hbody'
      exact absurd ⟨q, x, h1, h2, by simpa using hprefix, hgives, by rw [hcheck]; exact hsum⟩ hstale

/-- The framer returns a view for a sentence it has already refused: `$`, a newline, and `00` with an
end of line. -/
theorem stale_view_returned :
    ∃ view, resultAfter (Region.ofList 0 (List.replicate 82 0)) (asciiText "$\n00\r") (ascii '\n') =
        some (.ok view) ∧
      ¬ SoundView (Region.ofList 0 (List.replicate 82 0)) (asciiText "$\n00\r") (ascii '\n') view := by
  refine ⟨viewOf [[]], ?_, ?_⟩
  · rw [resultAfter_eq]
    decide
  · rintro ⟨q, s, hbytes, -⟩
    have hstar : ascii '\n' = ascii '*' :=
      @sentence_star (asciiText "$") q (ascii '\n') (ascii '0') (ascii '0') s hbytes
    exact absurd hstar (by decide)

end Avionicpp.Nmea0183
