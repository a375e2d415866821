import Avionicpp.Nmea0183.FramerRefinement

/-! # Streams of sentences

What the framer delivers from a stream of well-formed sentences, with noise before and between them.
The lemmas follow a sentence through the phases of the sentence machine: the noise, the body, the end
of the line. `stream_delivered` puts them together for the framer.
-/
namespace Avionicpp.Nmea0183
open Foundations Coroutine
set_option autoImplicit false

def IsStart (d : UInt8) : Prop := d = ascii '$' ∨ d = ascii '!'

def Noise (u : List UInt8) : Prop := ∀ c ∈ u, ¬ IsStart c

/-- Text that can stand in a body: neither `*` nor a newline. -/
def BodyText (b : List UInt8) : Prop := ∀ c ∈ b, c ≠ ascii '*' ∧ c ≠ ascii '\n'

structure Sentence where
  delimiter : UInt8
  body : List UInt8
  h1 : UInt8
  h2 : UInt8

def Sentence.front (s : Sentence) : List UInt8 :=
  s.delimiter :: s.body ++ [ascii '*', s.h1, s.h2, ascii '\r']

def Sentence.bytes (s : Sentence) : List UInt8 := s.front ++ [ascii '\n']

/-- A well-formed sentence whose body fits a working buffer of size `N`. -/
structure Sentence.Valid (s : Sentence) (N : ℕ) : Prop where
  delimiter : IsStart s.delimiter
  body : BodyText s.body
  fits : s.body.length ≤ N
  sum : hexByte s.h1 s.h2 = some (checksum s.body)

def Sentence.view (s : Sentence) : TextView := viewOf (tokens s.body)

instance (d : UInt8) : Decidable (IsStart d) := inferInstanceAs (Decidable (_ ∨ _))

instance (u : List UInt8) : Decidable (Noise u) := List.decidableBAll _ u

instance (b : List UInt8) : Decidable (BodyText b) := List.decidableBAll _ b

theorem phaseStep_noise (N : ℕ) {c : UInt8} (hc : ¬ IsStart c) :
    phaseStep N .searching c = (.searching, none) := by
  simp only [phaseStep, if_neg (show ¬ (c = ascii '$' ∨ c = ascii '!') from hc)]

theorem phaseStep_start (N : ℕ) {d : UInt8} (hd : IsStart d) :
    phaseStep N .searching d = (.body [], none) := by
  simp only [phaseStep, if_pos (show d = ascii '$' ∨ d = ascii '!' from hd)]

theorem noise_run (N : ℕ) (u : List UInt8) (hu : Noise u) :
    (sentenceMachine N).run .searching u = .searching ∧
      (sentenceMachine N).outputs .searching u = List.replicate u.length none := by
  induction u with
  | nil => exact ⟨rfl, rfl⟩
  | cons c u ih =>
    have hc : ¬ IsStart c := hu c (List.mem_cons_self ..)
    obtain ⟨hrun, hout⟩ := ih fun x hx => hu x (List.mem_cons_of_mem c hx)
    simp only [Mealy.run_cons, Mealy.outputs_cons, sentenceMachine_step, phaseStep_noise N hc, hrun,
      hout, List.length_cons, List.replicate_succ, and_self]

theorem body_run (N : ℕ) (b u : List UInt8) (hu : BodyText u) (hfits : b.length + u.length ≤ N) :
    (sentenceMachine N).run (.body b) u = .body (b ++ u) ∧
      (sentenceMachine N).outputs (.body b) u = List.replicate u.length none := by
  induction u generalizing b with
  | nil => simp
  | cons c u ih =>
    obtain ⟨hstar, hlf⟩ := hu c (List.mem_cons_self ..)
    simp only [List.length_cons] at hfits
    obtain ⟨hrun, hout⟩ := ih (b ++ [c]) (fun x hx => hu x (List.mem_cons_of_mem c hx))
      (by simp; omega)
    have hstep : phaseStep N (.body b) c = (.body (b ++ [c]), none) := by
      simp only [phaseStep, bodyStep, if_neg hstar, if_neg hlf, if_neg (show ¬ N ≤ b.length by omega)]
    simp only [Mealy.run_cons, Mealy.outputs_cons, sentenceMachine_step, hstep, hrun, hout,
      List.length_cons, List.replicate_succ, List.append_assoc, List.singleton_append, and_self]

theorem front_run (N : ℕ) (s : Sentence) (hd : IsStart s.delimiter) (hb : BodyText s.body)
    (hfits : s.body.length ≤ N) :
    (sentenceMachine N).run .searching s.front = .lf (checksum s.body) s.view s.h1 s.h2 ∧
      (sentenceMachine N).outputs .searching s.front = List.replicate s.front.length none := by
  obtain ⟨hrun, hout⟩ := body_run N [] s.body hb (by simpa using hfits)
  have hend : (sentenceMachine N).run (.body s.body) [ascii '*', s.h1, s.h2, ascii '\r'] =
      .lf (checksum s.body) s.view s.h1 s.h2 := rfl
  have hquiet : (sentenceMachine N).outputs (.body s.body) [ascii '*', s.h1, s.h2, ascii '\r'] =
      List.replicate 4 none := rfl
  simp only [List.nil_append] at hrun
  have hlen : s.front.length = s.body.length + 4 + 1 := by
    simp [Sentence.front]
  constructor
  · simp only [Sentence.front, List.cons_append, Mealy.run_cons, sentenceMachine_step,
      phaseStep_start N hd, Mealy.run_append, hrun, hend]
  · rw [hlen, List.replicate_succ, List.replicate_add]
    simp only [Sentence.front, List.cons_append, Mealy.outputs_cons, sentenceMachine_step,
      phaseStep_start N hd, Mealy.outputs_append, hout, hrun, hquiet]

/-- A valid sentence is delivered on its last byte. -/
theorem sentence_delivered (N : ℕ) (s : Sentence) (hs : s.Valid N) :
    (sentenceMachine N).run .searching s.bytes = .searching ∧
      (sentenceMachine N).outputs .searching s.bytes =
        List.replicate s.front.length none ++ [some (.ok s.view)] := by
  obtain ⟨hrun, hout⟩ := front_run N s hs.delimiter hs.body hs.fits
  have hverdict : verdict (checksum s.body) s.view s.h1 s.h2 = .ok s.view := by
    simp only [verdict, hs.sum, if_true]
  have hstep : phaseStep N (.lf (checksum s.body) s.view s.h1 s.h2) (ascii '\n') =
      (.searching, some (.ok s.view)) := by
    simp only [phaseStep, if_true, hverdict]
  constructor
  · rw [Sentence.bytes, Mealy.run_concat, hrun, sentenceMachine_step, hstep]
  · rw [Sentence.bytes, Mealy.outputs_concat, hrun, hout, sentenceMachine_step, hstep]

theorem sentence_yielded {buffer : Region UInt8} {u : List UInt8}
    (hphase : phaseAfter buffer.size u = .searching) {s : Sentence} (hs : s.Valid buffer.size) :
    ∃ view, yieldedAfter buffer (u ++ s.front) (ascii '\n') = some (.ok view) ∧
      view.text (framerAfter buffer (u ++ s.bytes)).locals.buffer = s.view := by
  obtain ⟨-, hout⟩ := sentence_delivered buffer.size s hs
  rw [Sentence.bytes, Mealy.outputs_concat] at hout
  have hlast := (List.append_inj' hout rfl).2
  have hresult : resultAfter buffer (u ++ s.front) (ascii '\n') = some (.ok s.view) := by
    have hfront : phaseAfter buffer.size (u ++ s.front) =
        (sentenceMachine buffer.size).run .searching s.front := by
      rw [phaseAfter] at hphase ⊢
      rw [Mealy.run_append, hphase]
    rw [resultAfter_eq, hfront]
    exact (List.cons.inj hlast).1
  rw [resultAfter_read, readResult, List.append_assoc] at hresult
  obtain ⟨r, hr, hread⟩ := Option.map_eq_some_iff.mp hresult
  cases r with
  | error e => cases hread
  | ok view => exact ⟨view, hr, Except.ok.inj hread⟩

/-! ## Streams -/

def streamBytes (items : List (List UInt8 × Sentence)) (tail : List UInt8) : List UInt8 :=
  items.flatMap (fun item => item.1 ++ item.2.bytes) ++ tail

def streamResults (items : List (List UInt8 × Sentence)) (tail : List UInt8) :
    List (Option (Except ErrorType TextView)) :=
  items.flatMap (fun item =>
    List.replicate (item.1.length + item.2.front.length) none ++ [some (.ok item.2.view)]) ++
    List.replicate tail.length none

theorem machine_stream (N : ℕ) (items : List (List UInt8 × Sentence)) (tail : List UInt8)
    (hnoise : ∀ item ∈ items, Noise item.1) (hvalid : ∀ item ∈ items, item.2.Valid N)
    (htail : Noise tail) :
    (sentenceMachine N).outputs .searching (streamBytes items tail) = streamResults items tail := by
  induction items with
  | nil => simpa [streamBytes, streamResults] using (noise_run N tail htail).2
  | cons item items ih =>
    obtain ⟨hrun, hout⟩ := noise_run N item.1 (hnoise item (List.mem_cons_self ..))
    obtain ⟨hrun', hout'⟩ := sentence_delivered N item.2 (hvalid item (List.mem_cons_self ..))
    have ih' := ih (fun i hi => hnoise i (List.mem_cons_of_mem item hi))
      (fun i hi => hvalid i (List.mem_cons_of_mem item hi))
    have hsplit : streamBytes (item :: items) tail =
        item.1 ++ (item.2.bytes ++ streamBytes items tail) := by
      simp [streamBytes]
    have hresults : streamResults (item :: items) tail =
        List.replicate item.1.length none ++
          (List.replicate item.2.front.length none ++ [some (.ok item.2.view)] ++
            streamResults items tail) := by
      simp only [streamResults, List.flatMap_cons, List.replicate_add, List.append_assoc]
    rw [hsplit, hresults, Mealy.outputs_append, hout, hrun, Mealy.outputs_append, hout', hrun', ih']

/-- **Completeness.** A stream of valid sentences gives exactly one view for each, on its last byte
and in order, and no error. -/
theorem stream_delivered (buffer : Region UInt8) (items : List (List UInt8 × Sentence))
    (tail : List UInt8) (hnoise : ∀ item ∈ items, Noise item.1)
    (hvalid : ∀ item ∈ items, item.2.Valid buffer.size) (htail : Noise tail) :
    resultsAfter buffer [] (streamBytes items tail) = streamResults items tail := by
  rw [resultsAfter_eq]
  exact machine_stream buffer.size items tail hnoise hvalid htail

/-- A sentence without a comma, one with an empty field at either end, and noise around them, over a
buffer that the longer body exactly fills. -/
def sampleItems : List (List UInt8 × Sentence) :=
  [(asciiText "x*", ⟨ascii '!', asciiText "AB", ascii '0', ascii '3'⟩),
    ([], ⟨ascii '$', asciiText "GPROT,1,", ascii '6', ascii 'f'⟩)]

theorem sampleItems_delivered :
    resultsAfter (Region.ofList 0 (List.replicate 8 0)) [] (streamBytes sampleItems (asciiText "OT")) =
      streamResults sampleItems (asciiText "OT") :=
  stream_delivered _ sampleItems (asciiText "OT") (by decide)
    (by
      intro item hitem
      rcases List.mem_pair.mp hitem with rfl | rfl <;>
        exact ⟨by decide, by decide, by decide, by decide⟩)
    (by decide)

end Avionicpp.Nmea0183
