import Avionicpp.Nmea0183.SentenceStream

/-! # Recovery after an error, and self-synchronisation

An error reported behind the `*` of a sentence leaves the framer searching, so it goes on as a new one
would. An error reported inside the payload loop does not: the code goes on with state 3 and takes the
next bytes for checksum characters (`recovery_iff`).

That detour is short. Whatever the framer was doing, one whole sentence of ordinary text brings it
back to the search, so the sentence after it is delivered (`resynchronised`). The detour reads two
characters and refuses the third one unless it is a carriage return; the proof follows the sentence
through it wherever in the sentence it begins.
-/
namespace Avionicpp.Nmea0183
open Foundations Coroutine
set_option autoImplicit false

/-! ## After an error -/

/-- After the bytes `u` the framer is ready for the next sentence: it gives the results of a new
framer, so it delivers a valid sentence, and it is silent until the next start delimiter. -/
structure ReadyForNext (buffer : Region UInt8) (u : List UInt8) : Prop where
  fresh : ∀ v, resultsAfter buffer u v = resultsAfter buffer [] v
  delivers : ∀ s : Sentence, s.Valid buffer.size →
    resultsAfter buffer u s.bytes = List.replicate s.front.length none ++ [some (.ok s.view)]
  silent : ∀ v, Noise v → resultsAfter buffer u v = List.replicate v.length none

theorem searching_ready (buffer : Region UInt8) (u : List UInt8)
    (h : phaseAfter buffer.size u = .searching) : ReadyForNext buffer u := by
  constructor
  · intro v
    rw [resultsAfter_eq, resultsAfter_eq, h]
    rfl
  · intro s hs
    rw [resultsAfter_eq, h]
    exact (sentence_delivered buffer.size s hs).2
  · intro v hv
    rw [resultsAfter_eq, h]
    exact (noise_run buffer.size v hv).2

theorem phase_of_error {N : ℕ} {ph : Phase} {c : UInt8} {e : ErrorType}
    (h : (phaseStep N ph c).2 = some (.error e)) :
    (∃ b, ph = .body b ∧ ∃ sum view, (phaseStep N ph c).1 = .hex1 sum view) ∨
      (¬ (∃ b, ph = .body b) ∧ (phaseStep N ph c).1 = .searching) := by
  cases ph with
  | searching => simp [phaseStep] at h
  | body b =>
    refine Or.inl ⟨b, rfl, ?_⟩
    simp only [phaseStep, bodyStep] at h ⊢
    split_ifs at h ⊢ <;> exact ⟨_, _, rfl⟩
  | hex1 sum view => simp [phaseStep] at h
  | hex2 sum view h1 => simp [phaseStep] at h
  | cr sum view h1 h2 =>
    refine Or.inr ⟨by simp, ?_⟩
    simp only [phaseStep] at h ⊢
    split_ifs at h ⊢
    rfl
  | lf sum view h1 h2 =>
    refine Or.inr ⟨by simp, ?_⟩
    simp only [phaseStep]
    split_ifs <;> rfl

theorem site_payload_iff (buffer : Region UInt8) (u : List UInt8) :
    (framerAfter buffer u).locals.site = .payload ↔ ∃ b, phaseAfter buffer.size u = .body b := by
  obtain ⟨-, -, hph⟩ := framerAfter_tracks buffer u
  cases hphase : phaseAfter buffer.size u with
  | searching =>
    rw [hphase] at hph
    have hsite : (framerAfter buffer u).locals.site = .search := hph
    simp [hsite]
  | body b => rw [hphase] at hph; simp [hph.1]
  | hex1 sum view => rw [hphase] at hph; simp [hph.1]
  | hex2 sum view h1 => rw [hphase] at hph; simp [hph.1]
  | cr sum view h1 h2 => rw [hphase] at hph; simp [hph.1]
  | lf sum view h1 h2 => rw [hphase] at hph; simp [hph.1]

/-- **Recovery**: after an error the framer is ready for the next sentence if and only if the error
was not reported from the payload loop. -/
theorem recovery_iff (buffer : Region UInt8) (u : List UInt8) (c : UInt8) (e : ErrorType)
    (herror : resultAfter buffer u c = some (.error e)) :
    ReadyForNext buffer (u ++ [c]) ↔ (framerAfter buffer u).locals.site ≠ .payload := by
  rw [resultAfter_eq] at herror
  have hnext : phaseAfter buffer.size (u ++ [c]) =
      (phaseStep buffer.size (phaseAfter buffer.size u) c).1 := Mealy.run_concat _ _ _ _
  rw [ne_eq, site_payload_iff]
  obtain ⟨b, hb, sum, view, hhex⟩ | ⟨hnot, hsearch⟩ := phase_of_error herror
  · constructor
    · intro hready
      -- three characters that are no end of a line: the third one is refused a second time
      have hfresh := hready.fresh (asciiText "AAA")
      have hlost : (sentenceMachine buffer.size).outputs (.hex1 sum view) (asciiText "AAA") =
          [none, none, some (.error (ErrorCode.protocolViolation.toInt, msgBadCrlf))] := rfl
      have hsilent : (sentenceMachine buffer.size).outputs .searching (asciiText "AAA") =
          List.replicate 3 none := (noise_run buffer.size (asciiText "AAA") (by decide)).2
      rw [resultsAfter_eq, resultsAfter_eq, hnext, hhex, hlost] at hfresh
      have hsame := hfresh.trans hsilent
      exact absurd hsame (by decide)
    · intro hnot
      exact absurd ⟨b, hb⟩ hnot
  · exact ⟨fun _ => hnot, fun _ => searching_ready buffer _ (by rw [hnext, hsearch])⟩

/-- A missing carriage return is reported behind the `*`. -/
theorem recovery_after_bad_crlf :
    ReadyForNext (Region.ofList 0 (List.replicate 8 0)) (asciiText "$A*41" ++ [ascii 'x']) ↔
      (framerAfter (Region.ofList 0 (List.replicate 8 0)) (asciiText "$A*41")).locals.site ≠
        .payload :=
  recovery_iff _ _ _ (ErrorCode.protocolViolation.toInt, msgBadCrlf)
    (by rw [resultAfter_eq]; decide)

/-- After a newline in the payload the next sentence, whole and valid, is lost, and a second error is
reported on its `*`. -/
theorem sentence_lost_after_newline :
    resultAfter (Region.ofList 0 (List.replicate 8 0)) (asciiText "$") (ascii '\n') =
        some (.error (ErrorCode.protocolViolation.toInt, msgProtocol)) ∧
      resultsAfter (Region.ofList 0 (List.replicate 8 0)) [] (asciiText "$A*41\r\n") =
        [none, none, none, none, none, none, some (.ok (viewOf [asciiText "A"]))] ∧
      resultsAfter (Region.ofList 0 (List.replicate 8 0)) (asciiText "$\n") (asciiText "$A*41\r\n") =
        [none, none, some (.error (ErrorCode.protocolViolation.toInt, msgBadCrlf)), none, none, none,
          none] ∧
      ¬ ReadyForNext (Region.ofList 0 (List.replicate 8 0)) (asciiText "$\n") := by
  have hfresh : resultsAfter (Region.ofList 0 (List.replicate 8 0)) [] (asciiText "$A*41\r\n") =
      [none, none, none, none, none, none, some (.ok (viewOf [asciiText "A"]))] := by
    rw [resultsAfter_eq]; decide
  have hlost : resultsAfter (Region.ofList 0 (List.replicate 8 0)) (asciiText "$\n")
      (asciiText "$A*41\r\n") =
      [none, none, some (.error (ErrorCode.protocolViolation.toInt, msgBadCrlf)), none, none, none,
        none] := by
    rw [resultsAfter_eq]; decide
  refine ⟨by rw [resultAfter_eq]; decide, hfresh, hlost, fun hready => ?_⟩
  have hsame := hready.fresh (asciiText "$A*41\r\n")
  rw [hfresh, hlost] at hsame
  exact absurd hsame (by decide)

/-! ## Self-synchronisation -/

/-- Printable ASCII without a start delimiter and without `*`. -/
def PlainText (b : List UInt8) : Prop :=
  ∀ c ∈ b, 0x20 ≤ c.toNat ∧ c.toNat ≤ 0x7E ∧ ¬ IsStart c ∧ c ≠ ascii '*'

instance (b : List UInt8) : Decidable (PlainText b) := List.decidableBAll _ b

/-- A well-formed sentence with a non-empty plain body, of any length. -/
structure Sentence.Plain (s : Sentence) : Prop where
  delimiter : IsStart s.delimiter
  body : PlainText s.body
  nonempty : s.body ≠ []
  sum : hexByte s.h1 s.h2 = some (checksum s.body)

theorem PlainText.bodyText {b : List UInt8} (h : PlainText b) : BodyText b := by
  intro c hc
  obtain ⟨hlo, -, -, hstar⟩ := h c hc
  refine ⟨hstar, ?_⟩
  rintro rfl
  exact absurd hlo (by decide)

theorem PlainText.noise {b : List UInt8} (h : PlainText b) : Noise b := fun c hc => (h c hc).2.2.1

theorem PlainText.ne_cr {b : List UInt8} (h : PlainText b) : ∀ c ∈ b, c ≠ ascii '\r' := by
  rintro c hc rfl
  exact absurd (h _ hc).1 (by decide)

theorem Sentence.Plain.valid {s : Sentence} (h : s.Plain) {N : ℕ} (hfits : s.body.length ≤ N) :
    s.Valid N :=
  ⟨h.delimiter, h.body.bodyText, hfits, h.sum⟩

theorem hexDigit_plain {h1 h2 x : UInt8} (h : hexByte h1 h2 = some x) :
    (¬ IsStart h1 ∧ h1 ≠ ascii '\r') ∧ ¬ IsStart h2 ∧ h2 ≠ ascii '\r' := by
  have hdigit : ∀ c, ¬ IsStart c ∧ c ≠ ascii '\r' ∨ digitIn 16 c = none := by
    intro c
    by_cases hc : c = ascii '$' ∨ c = ascii '!' ∨ c = ascii '\r'
    · rcases hc with rfl | rfl | rfl <;> exact Or.inr (by decide)
    · simp only [not_or] at hc
      exact Or.inl ⟨fun hs => hs.elim hc.1 hc.2.1, hc.2.2⟩
  unfold hexByte at h
  obtain hp1 | hn1 := hdigit h1
  · obtain hp2 | hn2 := hdigit h2
    · exact ⟨hp1, hp2⟩
    · rw [hn2] at h
      cases h1' : digitIn 16 h1 <;> simp [h1'] at h
  · rw [hn1] at h
    simp at h

def sentenceEnd (h1 h2 : UInt8) : List UInt8 := [ascii '*', h1, h2, ascii '\r', ascii '\n']

/-- The detour through the checksum states ends at a character that is no carriage return, if only
noise follows it. -/
theorem detour_cr (N : ℕ) (sum : UInt8) (view : TextView) (h1 h2 z : UInt8) (rest : List UInt8)
    (hz : z ≠ ascii '\r') (hrest : Noise rest) :
    (sentenceMachine N).run (.cr sum view h1 h2) (z :: rest) = .searching := by
  rw [Mealy.run_cons, sentenceMachine_step]
  simp only [phaseStep, if_neg hz]
  exact (noise_run N rest hrest).1

/-- Text that leads through the detour: its third character is no carriage return. -/
def Detour (u : List UInt8) : Prop :=
  ∃ x y z rest, u = x :: y :: z :: rest ∧ z ≠ ascii '\r' ∧ Noise rest

/-- A sentence's rest begins with a character of the body or with the `*`. -/
theorem rest_cons (h1 h2 : UInt8) (b : List UInt8) (hb : PlainText b) :
    ∃ y rest, b ++ sentenceEnd h1 h2 = y :: rest ∧ y ≠ ascii '\r' := by
  cases b with
  | nil => exact ⟨ascii '*', _, rfl, by decide⟩
  | cons c b => exact ⟨c, _, rfl, hb.ne_cr c (List.mem_cons_self ..)⟩

theorem Sentence.bytes_eq (s : Sentence) :
    s.bytes = s.delimiter :: (s.body ++ sentenceEnd s.h1 s.h2) := by
  simp [Sentence.bytes, Sentence.front, sentenceEnd]

theorem IsStart.plain {d : UInt8} (hd : IsStart d) :
    d ≠ ascii '\r' ∧ d ≠ ascii '\n' ∧ d ≠ ascii '*' := by
  rcases hd with h | h <;> rw [h] <;> decide

theorem detour_hex1 (N : ℕ) (sum : UInt8) (view : TextView) (u : List UInt8) (hu : Detour u) :
    (sentenceMachine N).run (.hex1 sum view) u = .searching := by
  obtain ⟨x, y, z, rest, rfl, hz, hrest⟩ := hu
  exact detour_cr N sum view x y z rest hz hrest

section
variable {h1 h2 : UInt8} (hh1 : ¬ IsStart h1 ∧ h1 ≠ ascii '\r') (hh2 : ¬ IsStart h2 ∧ h2 ≠ ascii '\r')
include hh1 hh2

theorem sentenceEnd_noise : Noise (sentenceEnd h1 h2) := by
  intro c hc
  simp only [sentenceEnd, List.mem_cons, List.not_mem_nil, or_false] at hc
  obtain rfl | rfl | rfl | rfl | rfl := hc
  · decide
  · exact hh1.1
  · exact hh2.1
  · decide
  · decide

theorem rest_noise (b : List UInt8) (hb : PlainText b) : Noise (b ++ sentenceEnd h1 h2) := by
  intro c hc
  obtain hc | hc := List.mem_append.mp hc
  · exact hb.noise c hc
  · exact sentenceEnd_noise hh1 hh2 c hc

theorem rest_detour (b : List UInt8) (hb : PlainText b) : Detour (b ++ sentenceEnd h1 h2) := by
  have hend := sentenceEnd_noise hh1 hh2
  match b with
  | [] =>
    have hline : Noise [ascii '\r', ascii '\n'] := by decide
    exact ⟨ascii '*', h1, h2, _, rfl, hh2.2, hline⟩
  | [x] =>
    refine ⟨x, ascii '*', h1, [h2, ascii '\r', ascii '\n'], rfl, hh1.2, ?_⟩
    intro c hc
    exact hend c (List.mem_cons_of_mem _ (List.mem_cons_of_mem _ hc))
  | [x, y] =>
    refine ⟨x, y, ascii '*', [h1, h2, ascii '\r', ascii '\n'], rfl, by decide, ?_⟩
    intro c hc
    exact hend c (List.mem_cons_of_mem _ hc)
  | x :: y :: z :: b =>
    have hrest : PlainText b := fun c hc => hb c (by simp [hc])
    exact ⟨x, y, z, b ++ sentenceEnd h1 h2, rfl, hb.ne_cr z (by simp), rest_noise hh1 hh2 b hrest⟩

/-- From a body, the rest of a plain sentence leads back to the search: its line ends, or the body
overruns the buffer on the way and the detour begins there. -/
theorem body_resync (N : ℕ) (b0 b : List UInt8) (hb : PlainText b) :
    (sentenceMachine N).run (.body b0) (b ++ sentenceEnd h1 h2) = .searching := by
  induction b generalizing b0 with
  | nil => simp [sentenceEnd, phaseStep, bodyStep]
  | cons c b ih =>
    obtain ⟨hstar, hlf⟩ := hb.bodyText c (List.mem_cons_self ..)
    have hrest : PlainText b := fun x hx => hb x (List.mem_cons_of_mem c hx)
    rw [List.cons_append, Mealy.run_cons, sentenceMachine_step]
    by_cases hfull : N ≤ b0.length
    · simp only [phaseStep, bodyStep, if_neg hstar, if_neg hlf, if_pos hfull]
      exact detour_hex1 N _ _ _ (rest_detour hh1 hh2 b hrest)
    · simp only [phaseStep, bodyStep, if_neg hstar, if_neg hlf, if_neg hfull]
      exact ih (b0 ++ [c]) hrest

end

/-- **A plain sentence of any length brings the machine back to the search, from any phase.** -/
theorem plain_resync (N : ℕ) (ph : Phase) (s : Sentence) (hs : s.Plain) :
    (sentenceMachine N).run ph s.bytes = .searching := by
  obtain ⟨hh1, hh2⟩ := hexDigit_plain hs.sum
  have hd := hs.delimiter
  obtain ⟨hcr, hlf, hstar⟩ := hd.plain
  have hnoise := rest_noise hh1 hh2 s.body hs.body
  obtain ⟨x, b, hcons⟩ := List.exists_cons_of_ne_nil hs.nonempty
  have hrest : PlainText b := fun y hy => hs.body y (by rw [hcons]; exact List.mem_cons_of_mem x hy)
  rw [s.bytes_eq]
  cases ph with
  | searching =>
    rw [Mealy.run_cons, sentenceMachine_step, phaseStep_start N hd]
    exact body_resync hh1 hh2 N [] s.body hs.body
  | body b0 =>
    rw [Mealy.run_cons, sentenceMachine_step]
    simp only [phaseStep, bodyStep, if_neg hstar, if_neg hlf]
    by_cases hfull : N ≤ b0.length
    · simp only [if_pos hfull]
      exact detour_hex1 N _ _ _ (rest_detour hh1 hh2 s.body hs.body)
    · simp only [if_neg hfull]
      exact body_resync hh1 hh2 N _ s.body hs.body
  | hex1 sum view =>
    -- the delimiter and the first character of the body are read as checksum characters
    obtain ⟨y, rest, hu, hy⟩ := rest_cons s.h1 s.h2 b hrest
    rw [hcons, List.cons_append, hu] at hnoise ⊢
    refine detour_hex1 N sum view _ ⟨s.delimiter, x, y, rest, rfl, hy, ?_⟩
    intro c hc
    exact hnoise c (List.mem_cons_of_mem _ (List.mem_cons_of_mem _ hc))
  | hex2 sum view h1 =>
    rw [hcons, List.cons_append] at hnoise ⊢
    rw [Mealy.run_cons, sentenceMachine_step]
    refine detour_cr N sum view h1 s.delimiter x _ (hs.body.ne_cr x (by rw [hcons]; simp)) ?_
    exact fun c hc => hnoise c (List.mem_cons_of_mem _ hc)
  | cr sum view h1 h2 => exact detour_cr N sum view h1 h2 _ _ hcr hnoise
  | lf sum view h1 h2 =>
    rw [Mealy.run_cons, sentenceMachine_step]
    simp only [phaseStep, if_neg hlf]
    exact (noise_run N _ hnoise).1

/-- **Self-synchronisation.** After any bytes whatever, and one plain sentence of any length, the next
plain sentence whose body fits is delivered, on its last byte. -/
theorem resynchronised (buffer : Region UInt8) (u : List UInt8) (s1 s2 : Sentence) (h1 : s1.Plain)
    (h2 : s2.Plain) (hfits : s2.body.length ≤ buffer.size) :
    resultsAfter buffer (u ++ s1.bytes) s2.bytes =
      List.replicate s2.front.length none ++ [some (.ok s2.view)] := by
  have hsearch : phaseAfter buffer.size (u ++ s1.bytes) = .searching := by
    rw [phaseAfter, Mealy.run_append]
    exact plain_resync buffer.size _ s1 h1
  rw [resultsAfter_eq, hsearch]
  exact (sentence_delivered buffer.size s2 (h2.valid hfits)).2

theorem resynchronised_after_overrun :
    resultsAfter (Region.ofList 0 (List.replicate 2 0))
        (asciiText "$" ++ Sentence.bytes ⟨ascii '$', asciiText "AB", ascii '0', ascii '3'⟩)
        (Sentence.bytes ⟨ascii '!', asciiText "AB", ascii '0', ascii '3'⟩) =
      List.replicate 7 none ++ [some (.ok (viewOf [asciiText "AB"]))] :=
  resynchronised (Region.ofList 0 (List.replicate 2 0)) (asciiText "$")
    ⟨ascii '$', asciiText "AB", ascii '0', ascii '3'⟩ ⟨ascii '!', asciiText "AB", ascii '0', ascii '3'⟩
    ⟨by decide, by decide, by decide, by decide⟩
    ⟨by decide, by decide, by decide, by decide⟩ (by decide)

end Avionicpp.Nmea0183
