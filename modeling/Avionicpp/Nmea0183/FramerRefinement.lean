import Avionicpp.Nmea0183.SentenceMachine

/-! # The framer refines the sentence machine

`Tracks N s ph` relates the coroutine's variables to a phase of the sentence machine. While a body is
read (`Reads`), the text read so far has the tokens `init ++ [cur]`: the finished ones are in the
view, the last one lies between `field_start_idx` and `buffer_idx`. The one place where the relation
is broken inside a step is a comma, where `field_start_idx` runs ahead of `buffer_idx` until the comma
itself is stored; `stored_comma` closes the step.
-/
namespace Avionicpp.Nmea0183
open Foundations Coroutine
set_option autoImplicit false

/-! ## The relation -/

/-- The variables while the body `b` is read: `init` are its finished tokens and `cur` the last. -/
structure Reads (s : State) (b : List UInt8) (init : List (List UInt8)) (cur : List UInt8) :
    Prop where
  split : tokens b = init ++ [cur]
  idx : s.bufferIdx = b.length
  sum : s.calculatedChecksum = checksum b
  first : s.isFirstField = decide (init = [])
  start : s.fieldStartIdx + cur.length = b.length
  field : s.buffer.read s.fieldStartIdx cur.length = cur
  view : s.view.text s.buffer = viewOf init
  within : s.view.Within b.length

def Carries (s : State) (sum : UInt8) (view : TextView) : Prop :=
  s.calculatedChecksum = sum ∧ s.view.text s.buffer = view

def Tracks (N : ℕ) (s : State) (ph : Phase) : Prop :=
  s.buffer.size = N ∧
    match ph with
    | .searching => s.site = .search
    | .body b => s.site = .payload ∧ ∃ init cur, Reads s b init cur
    | .hex1 sum view => s.site = .hex1 ∧ Carries s sum view
    | .hex2 sum view h1 => s.site = .hex2 ∧ Carries s sum view ∧ s.hex1 = h1
    | .cr sum view h1 h2 => s.site = .cr ∧ Carries s sum view ∧ s.hex1 = h1 ∧ s.hex2 = h2
    | .lf sum view h1 h2 => s.site = .lf ∧ Carries s sum view ∧ s.hex1 = h1 ∧ s.hex2 = h2

/-- A result with its view read over the buffer of the state it was given with. -/
def readOver (s : State) (o : Option ParseResult) : Option (Except ErrorType TextView) :=
  o.map fun r => r.map fun view => view.text s.buffer

def Follows (N : ℕ) (code : Code State ParseResult)
    (r : Phase × Option (Except ErrorType TextView)) : Prop :=
  Tracks N code.settle.1 r.1 ∧ readOver code.settle.1 code.settle.2 = r.2

/-! ## Cutting a field -/

theorem current_text {s : State} {b : List UInt8} {init : List (List UInt8)} {cur : List UInt8}
    (h : Reads s b init cur) :
    sizeSub s.bufferIdx s.fieldStartIdx = cur.length ∧
      StringView.text s.buffer ⟨s.fieldStartIdx, cur.length⟩ = cur := by
  have hstart := h.start
  have hidx := h.idx
  refine ⟨?_, h.field⟩
  rw [sizeSub, if_pos (by omega)]
  omega

theorem cutField_address {s : State} {b : List UInt8} {cur : List UInt8} (h : Reads s b [] cur) :
    (cutField s).view.text s.buffer = viewOf [cur] ∧ (cutField s).view.Within b.length := by
  obtain ⟨hlen, htext⟩ := current_text h
  have hfirst : s.isFirstField = true := h.first
  have hin := h.within
  have hstart := h.start
  have hview := h.view
  by_cases h5 : 5 ≤ cur.length
  · have hcut : (cutField s).view =
        { s.view with
          talkerId := StringView.substr ⟨s.fieldStartIdx, cur.length⟩ 0 2
          messageType := StringView.substr ⟨s.fieldStartIdx, cur.length⟩ 2 3 } := by
      simp only [cutField, hlen, hfirst, h5, if_true]
    have htalker : (StringView.substr ⟨s.fieldStartIdx, cur.length⟩ 0 2).text s.buffer =
        cur.take 2 := by
      rw [StringView.substr_text _ _ _ _ (Nat.zero_le _), htext, List.drop_zero]
    have htype : (StringView.substr ⟨s.fieldStartIdx, cur.length⟩ 2 3).text s.buffer =
        (cur.drop 2).take 3 := by
      rw [StringView.substr_text _ _ _ _ (show 2 ≤ cur.length by omega), htext]
    rw [hcut]
    constructor
    · rw [viewOf_address, ← hview]
      simp only [MessageView.text, htalker, htype, if_pos h5]
    · exact ⟨by simp only [StringView.substr]; omega, by simp only [StringView.substr]; omega,
        hin.fields⟩
  · have hcut : (cutField s).view = s.view := by
      simp only [cutField, hlen, hfirst, h5, if_true, if_false]
    rw [hcut]
    refine ⟨?_, hin⟩
    rw [viewOf_address, hview]
    simp only [if_neg h5, viewOf]

theorem cutField_field {s : State} {b : List UInt8} {init : List (List UInt8)} {cur : List UInt8}
    (h : Reads s b init cur) (hinit : init ≠ []) :
    (cutField s).view.text s.buffer = viewOf (init ++ [cur]) ∧
      (cutField s).view.Within b.length := by
  obtain ⟨hlen, htext⟩ := current_text h
  have hfirst : s.isFirstField = false := by rw [h.first]; exact decide_eq_false hinit
  have hin := h.within
  have hstart := h.start
  have hview := h.view
  have hcount : s.view.fieldCount = (viewOf init).fieldCount := congrArg TextView.fieldCount hview
  by_cases hroom : s.view.fieldCount < maxFields
  · have hcut : (cutField s).view =
        { s.view with
          fields := s.view.fields.store s.view.fieldCount ⟨s.fieldStartIdx, cur.length⟩
          fieldCount := s.view.fieldCount + 1 } := by
      simp only [cutField, hlen, hfirst, hroom, if_true, Bool.false_eq_true, if_false]
    rw [hcut]
    constructor
    · have hread := s.view.fields.read_store_end 0 s.view.fieldCount ⟨s.fieldStartIdx, cur.length⟩
      rw [Nat.zero_add] at hread
      rw [viewOf_concat_room init hinit cur (by rw [← hcount]; exact hroom), ← hview]
      simp only [MessageView.text, hread, List.map_append, List.map_cons, List.map_nil, htext]
    · refine ⟨hin.talkerId, hin.messageType, fun i => ?_⟩
      by_cases hi : i = s.view.fieldCount
      · subst hi
        rw [Region.store_cell_self]
        exact Nat.le_of_eq hstart
      · rw [Region.store_cell_ne _ _ hi]
        exact hin.fields i
  · have hcut : (cutField s).view = s.view := by
      simp only [cutField, hlen, hfirst, hroom, Bool.false_eq_true, if_false]
    rw [hcut]
    refine ⟨?_, hin⟩
    rw [viewOf_concat_full init hinit cur (by rw [← hcount]; exact hroom), hview]

/-- After a cut the view shows every token of the text read so far. -/
theorem cutField_view {s : State} {b : List UInt8} {init : List (List UInt8)} {cur : List UInt8}
    (h : Reads s b init cur) :
    (cutField s).view.text s.buffer = viewOf (tokens b) ∧ (cutField s).view.Within b.length := by
  rw [h.split]
  by_cases hinit : init = []
  · subst hinit
    exact cutField_address h
  · exact cutField_field h hinit

/-! ## The payload loop -/

theorem storeChar_overrun {N : ℕ} {s : State} {c : UInt8} {sum : UInt8} {view : TextView}
    (hsize : s.buffer.size = N) (hover : N ≤ s.bufferIdx) (hcarry : Carries s sum view) :
    Follows N (storeChar s c)
      (.hex1 sum view, some (.error (ErrorCode.bufferOverrun.toInt, msgOverrun))) := by
  have hcode : storeChar s c =
      .coYield (.error (ErrorCode.bufferOverrun.toInt, msgOverrun)) (nextMessage s) := by
    rw [storeChar, if_pos (by rw [hsize]; exact hover)]
  rw [hcode]
  exact ⟨⟨hsize, rfl, hcarry⟩, rfl⟩

theorem stored_other {s : State} {b : List UInt8} {init : List (List UInt8)} {cur : List UInt8}
    {c : UInt8} (h : Reads s b init cur) (hc : c ≠ ascii ',') :
    Reads (stored s c) (b ++ [c]) init (cur ++ [c]) := by
  have hidx := h.idx
  have hstart := h.start
  have hend : s.bufferIdx = s.fieldStartIdx + cur.length := by omega
  constructor
  · simp only [tokens_other b c hc, h.split, List.dropLast_concat, List.getLast_concat]
  · simp [stored, hidx]
  · simp only [stored, h.sum, checksum_concat]
  · exact h.first
  · simp only [stored, List.length_append, List.length_singleton]
    omega
  · have hfield := h.field
    simp only [stored, List.length_append, List.length_singleton]
    rw [hend, Region.read_store_end, hfield]
  · have hin := h.within
    rw [← hidx] at hin
    exact (MessageView.text_store _ _ hin).trans h.view
  · exact h.within.mono (by simp)

theorem stored_comma {s : State} {b : List UInt8} {init : List (List UInt8)} {cur : List UInt8}
    (h : Reads s b init cur) :
    Reads (stored (cutField s) (ascii ',')) (b ++ [ascii ',']) (tokens b) [] := by
  have hidx := h.idx
  obtain ⟨hview, hin⟩ := cutField_view h
  constructor
  · exact tokens_comma b
  · simp [stored, cutField, hidx]
  · simp only [stored, cutField, h.sum, checksum_concat]
  · exact (decide_eq_false (tokens_ne_nil b)).symm
  · simp [stored, cutField, hidx]
  · rfl
  · rw [← hidx] at hin
    exact (MessageView.text_store s.buffer (ascii ',') hin).trans hview
  · exact hin.mono (by simp)

theorem storeChar_follows {N : ℕ} {s : State} {b : List UInt8} {init : List (List UInt8)}
    {cur : List UInt8} {c : UInt8} (hsize : s.buffer.size = N) (hroom : s.bufferIdx < N)
    (h : Reads (stored s c) b init cur) : Follows N (storeChar s c) (.body b, none) := by
  have hcode : storeChar s c = .coAwait (stored s c) := by
    rw [storeChar, if_neg (by omega)]
  rw [hcode]
  exact ⟨⟨hsize, rfl, init, cur, h⟩, rfl⟩

theorem payload_follows {N : ℕ} {s : State} {b : List UInt8} {init : List (List UInt8)}
    {cur : List UInt8} (c : UInt8) (hsize : s.buffer.size = N) (hsite : s.site = .payload)
    (h : Reads s b init cur) : Follows N (resumeWith s c) (bodyStep N b c) := by
  obtain ⟨hview, -⟩ := cutField_view h
  have hcut : Carries (cutField s) (checksum b) (viewOf (tokens b)) := ⟨h.sum, hview⟩
  have hidx := h.idx
  by_cases hstar : c = ascii '*'
  · subst hstar
    have hcode : resumeWith s (ascii '*') = .coAwait { cutField s with site := .hex1 } := by
      simp [resumeWith, hsite]
    rw [hcode, bodyStep, if_pos rfl]
    exact ⟨⟨hsize, rfl, hcut⟩, rfl⟩
  · by_cases hlf : c = ascii '\n'
    · subst hlf
      have hcode : resumeWith s (ascii '\n') =
          .coYield (.error (ErrorCode.protocolViolation.toInt, msgProtocol))
            (nextMessage (cutField s)) := by
        simp [resumeWith, hsite, hstar]
      rw [hcode, bodyStep, if_neg hstar, if_pos rfl]
      exact ⟨⟨hsize, rfl, hcut⟩, rfl⟩
    · by_cases hcomma : c = ascii ','
      · subst hcomma
        have hcode : resumeWith s (ascii ',') = storeChar (cutField s) (ascii ',') := by
          simp [resumeWith, hsite, hstar, hlf]
        rw [hcode, bodyStep, if_neg hstar, if_neg hlf]
        by_cases hroom : N ≤ b.length
        · rw [if_pos hroom, if_pos rfl]
          exact storeChar_overrun hsize (show N ≤ s.bufferIdx by omega) hcut
        · rw [if_neg hroom]
          exact storeChar_follows hsize (show s.bufferIdx < N by omega) (stored_comma h)
      · have hcode : resumeWith s c = storeChar s c := by
          simp [resumeWith, hsite, hstar, hlf, hcomma]
        rw [hcode, bodyStep, if_neg hstar, if_neg hlf]
        by_cases hroom : N ≤ b.length
        · have hcarry : Carries s (checksum b) (viewOf (tokens b).dropLast) := by
            rw [h.split, List.dropLast_concat]
            exact ⟨h.sum, h.view⟩
          rw [if_pos hroom, if_neg hcomma]
          exact storeChar_overrun hsize (by omega) hcarry
        · rw [if_neg hroom]
          exact storeChar_follows hsize (by omega) (stored_other h hcomma)

/-! ## The verdict -/

theorem digitIn_lt {c : UInt8} {d : ℕ} (h : digitIn 16 c = some d) : d < 16 := by
  unfold digitIn at h
  cases hv : digitValue c with
  | none => simp [hv] at h
  | some e =>
    simp only [hv] at h
    by_cases he : e < 16
    · rw [if_pos he, Option.some.injEq] at h
      omega
    · rw [if_neg he] at h
      cases h

/-- `std::from_chars` accepts exactly two hex digits as a whole. -/
theorem fromChars_hexByte (h1 h2 : UInt8) :
    let r := fromChars 16 0 255 0 [h1, h2]
    (hexByte h1 h2 = none → r.ec ≠ .ok ∨ r.ptr ≠ 2) ∧
      ∀ x, hexByte h1 h2 = some x → r.ec = .ok ∧ r.ptr = 2 ∧ UInt8.ofNat r.value.toNat = x := by
  simp only [fromChars, Int.lt_irrefl, false_and, decide_false, Bool.false_eq_true, if_false,
    scanDigits, hexByte]
  cases hd1 : digitIn 16 h1 with
  | none => simp
  | some d1 =>
    have hlt1 := digitIn_lt hd1
    cases hd2 : digitIn 16 h2 with
    | none =>
      refine ⟨fun _ => ?_, by simp⟩
      simp only [List.cons_ne_nil, if_false]
      split <;> simp
    | some d2 =>
      have hlt2 := digitIn_lt hd2
      have hval : ofDigits 16 [d1, d2] = 16 * d1 + d2 := by
        simp [ofDigits, Nat.ofDigits]
        omega
      refine ⟨by simp, fun x hx => ?_⟩
      rw [Option.some.injEq] at hx
      have hrange : (0 : ℤ) ≤ (16 * d1 + d2 : ℕ) ∧ ((16 * d1 + d2 : ℕ) : ℤ) ≤ 255 := by omega
      simp only [List.cons_ne_nil, if_false, hval, hrange, and_self, if_true, List.length_cons,
        List.length_nil, Int.toNat_natCast, hx]

theorem validateChecksum_follows {N : ℕ} {s : State} {sum : UInt8} {view : TextView}
    (hsize : s.buffer.size = N) (hcarry : Carries s sum view) :
    Follows N (validateChecksum s) (.searching, some (verdict sum view s.hex1 s.hex2)) := by
  obtain ⟨hsum, hview⟩ := hcarry
  obtain ⟨hnone, hsome⟩ := fromChars_hexByte s.hex1 s.hex2
  unfold validateChecksum verdict
  cases hx : hexByte s.hex1 s.hex2 with
  | none =>
    simp only [hnone hx, if_true]
    exact ⟨⟨hsize, rfl⟩, rfl⟩
  | some x =>
    obtain ⟨hec, hptr, hval⟩ := hsome x hx
    simp only [hec, hptr, hval, hsum, ne_eq, not_true_eq_false, or_self, if_false, ite_not]
    by_cases hxs : x = sum
    · simp only [hxs, if_true]
      exact ⟨⟨hsize, rfl⟩, congrArg (fun v => some (Except.ok v)) hview⟩
    · simp only [hxs, if_false]
      exact ⟨⟨hsize, rfl⟩, rfl⟩

/-! ## The simulation -/

/-- **One byte**: the body and the sentence machine stay related and give the same result. -/
theorem resumeWith_follows {N : ℕ} {s : State} {ph : Phase} (c : UInt8) (h : Tracks N s ph) :
    Follows N (resumeWith s c) (phaseStep N ph c) := by
  obtain ⟨hsize, hph⟩ := h
  cases ph with
  | searching =>
    have hsite : s.site = .search := hph
    by_cases hc : c = ascii '$' ∨ c = ascii '!'
    · have hnot : ¬ (c ≠ ascii '$' ∧ c ≠ ascii '!') := by tauto
      simp only [resumeWith, hsite, hnot, if_false, phaseStep, hc, if_true]
      refine ⟨⟨hsize, rfl, [], [], ?_⟩, rfl⟩
      exact ⟨tokens_nil, rfl, rfl, rfl, rfl, rfl, rfl, MessageView.empty_within 0⟩
    · have hnot : c ≠ ascii '$' ∧ c ≠ ascii '!' := by tauto
      simp only [resumeWith, hsite, if_pos hnot, phaseStep, hc, if_false]
      exact ⟨⟨hsize, hsite⟩, rfl⟩
  | body b =>
    obtain ⟨hsite, init, cur, hreads⟩ := hph
    exact payload_follows c hsize hsite hreads
  | hex1 sum view =>
    obtain ⟨hsite, hcarry⟩ := hph
    simp only [resumeWith, hsite, phaseStep]
    exact ⟨⟨hsize, rfl, hcarry, rfl⟩, rfl⟩
  | hex2 sum view h1 =>
    obtain ⟨hsite, hcarry, rfl⟩ := hph
    simp only [resumeWith, hsite, phaseStep]
    exact ⟨⟨hsize, rfl, hcarry, rfl, rfl⟩, rfl⟩
  | cr sum view h1 h2 =>
    obtain ⟨hsite, hcarry, rfl, rfl⟩ := hph
    by_cases hc : c = ascii '\r'
    · simp only [resumeWith, hsite, hc, ne_eq, not_true_eq_false, if_false, phaseStep, if_true]
      exact ⟨⟨hsize, rfl, hcarry, rfl, rfl⟩, rfl⟩
    · simp only [resumeWith, hsite, hc, ne_eq, not_false_eq_true, if_true, phaseStep, if_false]
      exact ⟨⟨hsize, rfl⟩, rfl⟩
  | lf sum view h1 h2 =>
    obtain ⟨hsite, hcarry, rfl, rfl⟩ := hph
    by_cases hc : c = ascii '\n'
    · simp only [resumeWith, hsite, hc, ne_eq, not_true_eq_false, if_false, phaseStep, if_true]
      exact validateChecksum_follows hsize hcarry
    · simp only [resumeWith, hsite, hc, ne_eq, not_false_eq_true, if_true, phaseStep, if_false]
      exact ⟨⟨hsize, rfl⟩, rfl⟩

def FramerTracks (N : ℕ) (f : Framer) (ph : Phase) : Prop := f.Ready ∧ Tracks N f.locals ph

theorem framer_simulates (buffer : Region UInt8) (N : ℕ) :
    (framerMachine buffer).Simulates (sentenceMachine N) (FramerTracks N) := by
  have hplain : ((plain (body buffer)).observe readOver).Simulates (sentenceMachine N) (Tracks N) :=
    fun _ _ c h => (resumeWith_follows c h).symm
  exact (body_alternates buffer).simulates hplain

theorem createFramer_tracks (buffer : Region UInt8) :
    FramerTracks buffer.size (createFramer buffer) .searching := by
  refine ⟨create_ready _ (body_alternates buffer), ?_⟩
  rw [createFramer, create_locals _ (body_alternates buffer)]
  exact ⟨rfl, rfl⟩

def phaseAfter (N : ℕ) (u : List UInt8) : Phase := (sentenceMachine N).run .searching u

theorem framerAfter_tracks (buffer : Region UInt8) (u : List UInt8) :
    FramerTracks buffer.size (framerAfter buffer u) (phaseAfter buffer.size u) :=
  (framer_simulates buffer buffer.size).run (createFramer_tracks buffer) u

theorem phaseAfter_of_search (buffer : Region UInt8) (u : List UInt8)
    (h : (framerAfter buffer u).locals.site = .search) : phaseAfter buffer.size u = .searching := by
  obtain ⟨-, -, hsite⟩ := framerAfter_tracks buffer u
  generalize phaseAfter buffer.size u = ph at hsite ⊢
  cases ph with
  | searching => rfl
  | body b | hex1 sum view | hex2 sum view h1 | cr sum view h1 h2 | lf sum view h1 h2 =>
    rw [h] at hsite
    cases hsite.1

/-- **The results of the framer are those of the sentence machine.** -/
theorem resultsAfter_eq (buffer : Region UInt8) (u v : List UInt8) :
    resultsAfter buffer u v =
      (sentenceMachine buffer.size).outputs (phaseAfter buffer.size u) v :=
  (framer_simulates buffer buffer.size).outputs (framerAfter_tracks buffer u) v

theorem resultAfter_eq (buffer : Region UInt8) (u : List UInt8) (c : UInt8) :
    resultAfter buffer u c = (phaseStep buffer.size (phaseAfter buffer.size u) c).2 :=
  (framer_simulates buffer buffer.size _ _ c (framerAfter_tracks buffer u)).1

end Avionicpp.Nmea0183
