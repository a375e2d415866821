import Avionicpp.Nmea0183.FramerRecovery

/-! # Single errors on the line

One wrong byte anywhere in a sentence, or one byte lost: the framer reports it, or hears nothing, or
delivers the sentence as it was sent, but never another one. The `*` is the delicate place. Without it
the body goes on into the checksum, and then no four bytes are left to end a sentence with, if only the
buffer has room for one more character.
-/
namespace Avionicpp.Nmea0183
open Foundations Coroutine
set_option autoImplicit false

/-- Every view among the results is of the given kind. -/
def Views (P : TextView → Prop) (outs : List (Option (Except ErrorType TextView))) : Prop :=
  ∀ v, some (.ok v) ∈ outs → P v

section
variable {P : TextView → Prop}

theorem Views.cons {o : Option (Except ErrorType TextView)}
    {outs : List (Option (Except ErrorType TextView))} (ho : ∀ v, o = some (.ok v) → P v)
    (h : Views P outs) : Views P (o :: outs) := by
  intro v hv
  obtain rfl | hv := List.mem_cons.mp hv
  · exact ho v rfl
  · exact h v hv

theorem Views.append {outs outs' : List (Option (Except ErrorType TextView))} (h : Views P outs)
    (h' : Views P outs') : Views P (outs ++ outs') := by
  intro v hv
  obtain hv | hv := List.mem_append.mp hv
  · exact h v hv
  · exact h' v hv

theorem views_silent (n : ℕ) : Views P (List.replicate n none) := by
  intro v hv
  cases List.eq_of_mem_replicate hv

theorem views_noise (N : ℕ) {u : List UInt8} (hu : Noise u) :
    Views P ((sentenceMachine N).outputs .searching u) := by
  rw [(noise_run N u hu).2]
  exact views_silent _

/-! ## Too short for a view -/

/-- How many bytes it takes at least until a view is returned. -/
def Phase.toGo : Phase → ℕ
  | .searching => 6
  | .body _ => 5
  | .hex1 _ _ => 4
  | .hex2 _ _ _ => 3
  | .cr _ _ _ _ => 2
  | .lf _ _ _ _ => 1

theorem toGo_step (N : ℕ) (ph : Phase) (c : UInt8) : ph.toGo ≤ (phaseStep N ph c).1.toGo + 1 := by
  cases ph with
  | searching =>
    simp only [phaseStep]
    split <;> simp [Phase.toGo]
  | body b =>
    simp only [phaseStep, bodyStep]
    split_ifs <;> simp [Phase.toGo]
  | hex1 sum view => exact Nat.le_refl 4
  | hex2 sum view h1 => exact Nat.le_refl 3
  | cr sum view h1 h2 =>
    simp only [phaseStep]
    split <;> simp [Phase.toGo]
  | lf sum view h1 h2 => exact Nat.succ_le_succ (Nat.zero_le _)

theorem view_at_lf {N : ℕ} {ph : Phase} {c : UInt8} {v : TextView}
    (h : (phaseStep N ph c).2 = some (.ok v)) : ∃ sum h1 h2, ph = .lf sum v h1 h2 := by
  cases ph with
  | searching => cases h
  | body b =>
    simp only [phaseStep, bodyStep] at h
    split_ifs at h <;> cases h
  | hex1 sum view => cases h
  | hex2 sum view h1 => cases h
  | cr sum view h1 h2 =>
    simp only [phaseStep] at h
    split at h <;> cases h
  | lf sum view h1 h2 =>
    simp only [phaseStep, verdict] at h
    split at h
    · split at h
      · cases h
      · split at h
        · cases h
          exact ⟨sum, h1, h2, rfl⟩
        · cases h
    · cases h

theorem views_short (N : ℕ) (ph : Phase) (q : List UInt8) (hq : q.length < ph.toGo) :
    Views P ((sentenceMachine N).outputs ph q) := by
  induction q generalizing ph with
  | nil => exact fun v hv => absurd hv List.not_mem_nil
  | cons c q ih =>
    rw [List.length_cons] at hq
    have hstep := toGo_step N ph c
    rw [Mealy.outputs_cons, sentenceMachine_step]
    refine Views.cons ?_ ?_
    · intro v hv
      obtain ⟨sum, h1, h2, rfl⟩ := view_at_lf hv
      exact absurd hq (by simp [Phase.toGo])
    · exact ih _ (by omega)

/-! ## Behind the body -/

/-- The view that a checksum state carries. -/
def Phase.Carries (view : TextView) : Phase → Prop
  | .searching | .body _ => False
  | .hex1 _ v | .hex2 _ v _ | .cr _ v _ _ | .lf _ v _ _ => v = view

theorem carries_step (N : ℕ) {view : TextView} {ph : Phase} (h : ph.Carries view) (c : UInt8) :
    (phaseStep N ph c).1.Carries view ∨ (phaseStep N ph c).1 = .searching := by
  cases ph with
  | searching => exact h.elim
  | body b => exact h.elim
  | hex1 sum v => exact Or.inl h
  | hex2 sum v h1 => exact Or.inl h
  | cr sum v h1 h2 =>
    simp only [phaseStep]
    split
    · exact Or.inl h
    · exact Or.inr rfl
  | lf sum v h1 h2 =>
    simp only [phaseStep]
    split <;> exact Or.inr rfl

/-- The view is the one that is carried: too few bytes are left for a second one. -/
theorem views_carried (N : ℕ) {view : TextView} (hview : P view) {ph : Phase} (h : ph.Carries view)
    (q : List UInt8) (hq : q.length ≤ 6) : Views P ((sentenceMachine N).outputs ph q) := by
  induction q generalizing ph with
  | nil => exact fun v hv => absurd hv List.not_mem_nil
  | cons c q ih =>
    rw [List.length_cons] at hq
    rw [Mealy.outputs_cons, sentenceMachine_step]
    refine Views.cons ?_ ?_
    · intro v hv
      obtain ⟨sum, h1, h2, rfl⟩ := view_at_lf hv
      obtain rfl : v = view := h
      exact hview
    · obtain hcarries | hsearch := carries_step N h c
      · exact ih hcarries (by omega)
      · rw [hsearch]
        exact views_short N _ q (by show q.length < 6; omega)

/-- The detour through the checksum states ends without a view. -/
theorem views_detour (N : ℕ) (sum : UInt8) (view : TextView) {u : List UInt8} (hu : Detour u) :
    Views P ((sentenceMachine N).outputs (.hex1 sum view) u) := by
  obtain ⟨x, y, z, rest, rfl, hz, hrest⟩ := hu
  have hstep : phaseStep N (.cr sum view x y) z =
      (.searching, some (.error (ErrorCode.protocolViolation.toInt, msgBadCrlf))) := if_neg hz
  have hout : (sentenceMachine N).outputs (.hex1 sum view) (x :: y :: z :: rest) =
      none :: none :: (phaseStep N (.cr sum view x y) z).2 ::
        (sentenceMachine N).outputs (phaseStep N (.cr sum view x y) z).1 rest := rfl
  rw [hout, hstep]
  have hquiet : Views P ((sentenceMachine N).outputs .searching rest) := views_noise N hrest
  exact ((hquiet.cons fun v hv => by cases hv).cons fun v hv => by cases hv).cons
    fun v hv => by cases hv

end

/-! ## The checksum -/

theorem checksum_append (u v : List UInt8) : checksum (u ++ v) = checksum u ^^^ checksum v := by
  induction v using List.reverseRecOn with
  | nil => rw [List.append_nil]; exact UInt8.xor_zero.symm
  | append_singleton v c ih =>
    rw [← List.append_assoc, checksum_concat, checksum_concat, ih, UInt8.xor_assoc]

theorem checksum_cons (c : UInt8) (v : List UInt8) : checksum (c :: v) = c ^^^ checksum v := by
  have hsplit : c :: v = [c] ++ v := rfl
  have hone : checksum [c] = c := UInt8.zero_xor
  rw [hsplit, checksum_append, hone]

/-- One byte in a known place is determined by the checksum. -/
theorem checksum_middle {u v : List UInt8} {x y : UInt8}
    (h : checksum (u ++ x :: v) = checksum (u ++ y :: v)) : x = y := by
  rw [checksum_append, checksum_append, checksum_cons, checksum_cons] at h
  exact (UInt8.xor_left_inj _).mp ((UInt8.xor_right_inj _).mp h)

/-- A byte that can be left out is zero. -/
theorem checksum_without {u v : List UInt8} {x : UInt8}
    (h : checksum (u ++ v) = checksum (u ++ x :: v)) : x = 0 := by
  rw [checksum_append, checksum_append, checksum_cons] at h
  have hrest := (UInt8.xor_right_inj _).mp h
  have hzero : 0 ^^^ checksum v = x ^^^ checksum v := by rw [UInt8.zero_xor, ← hrest]
  exact ((UInt8.xor_left_inj _).mp hzero).symm

/-! ## The steps of a sentence -/

section
variable {N : ℕ} {s : Sentence}

theorem start_steps (hs : s.Valid N) (q : List UInt8) :
    (sentenceMachine N).outputs .searching (s.delimiter :: q) =
      none :: (sentenceMachine N).outputs (.body []) q := by
  rw [Mealy.outputs_cons, sentenceMachine_step, phaseStep_start N hs.delimiter]

theorem body_steps (hs : s.Valid N) (q : List UInt8) :
    (sentenceMachine N).outputs (.body []) (s.body ++ q) =
      List.replicate s.body.length none ++ (sentenceMachine N).outputs (.body s.body) q := by
  have hfits := hs.fits
  obtain ⟨hrun, hout⟩ := body_run N [] s.body hs.body (by simpa using hfits)
  rw [Mealy.outputs_append, hrun, hout, List.nil_append]

/-- Of a sentence with another body, only the body's own checksum makes a view. -/
theorem views_other (hs : s.Valid N) {P : TextView → Prop} {b : List UInt8} (hb : BodyText b)
    (hfits : b.length ≤ N) (hsum : checksum b = checksum s.body → P (viewOf (tokens b))) :
    Views P ((sentenceMachine N).outputs .searching
      (s.delimiter :: (b ++ sentenceEnd s.h1 s.h2))) := by
  have hbytes := Sentence.bytes_eq ⟨s.delimiter, b, s.h1, s.h2⟩
  obtain ⟨hrun, hout⟩ := front_run N ⟨s.delimiter, b, s.h1, s.h2⟩ hs.delimiter hb hfits
  rw [← hbytes, Sentence.bytes, Mealy.outputs_concat, hrun, hout]
  refine (views_silent _).append ?_
  intro v hv
  have hverdict : verdict (checksum b) (viewOf (tokens b)) s.h1 s.h2 = .ok v :=
    (Option.some.inj (List.mem_singleton.mp hv)).symm
  have hdigits := hs.sum
  by_cases heq : checksum s.body = checksum b
  · simp only [verdict, hdigits, if_pos heq] at hverdict
    rw [← Except.ok.inj hverdict]
    exact hsum heq.symm
  · simp only [verdict, hdigits, if_neg heq] at hverdict
    cases hverdict

/-! ## A wrong byte -/

theorem wrong_delimiter (hs : s.Valid N) (hplain : PlainText s.body) (x : UInt8) :
    Views (· = s.view)
      ((sentenceMachine N).outputs .searching (x :: (s.body ++ sentenceEnd s.h1 s.h2))) := by
  by_cases hx : IsStart x
  · have hvalid : Sentence.Valid ⟨x, s.body, s.h1, s.h2⟩ N := ⟨hx, hs.body, hs.fits, hs.sum⟩
    exact views_other hvalid hs.body hs.fits fun _ => rfl
  · obtain ⟨hh1, hh2⟩ := hexDigit_plain hs.sum
    refine views_noise N ?_
    intro c hc
    obtain rfl | hc := List.mem_cons.mp hc
    · exact hx
    · exact rest_noise hh1 hh2 s.body hplain c hc

/-- A byte of the body that stays one: the checksum does not fit any more. -/
theorem wrong_text (hs : s.Valid N) {p : ℕ} (hp : p < s.body.length) {x : UInt8}
    (hx : x ≠ ascii '*' ∧ x ≠ ascii '\n') :
    Views (· = s.view) ((sentenceMachine N).outputs .searching
      (s.delimiter :: (s.body.set p x ++ sentenceEnd s.h1 s.h2))) := by
  refine views_other hs ?_ ?_ ?_
  · intro c hc
    obtain hc | rfl := List.mem_or_eq_of_mem_set hc
    · exact hs.body c hc
    · exact hx
  · rw [List.length_set]
    exact hs.fits
  · intro heq
    have hmiddle : s.body = s.body.take p ++ s.body[p] :: s.body.drop (p + 1) := by
      rw [List.getElem_cons_drop, List.take_append_drop]
    have hset : s.body.set p x = s.body := by
      rw [List.set_eq_take_append_cons_drop, if_pos hp] at heq ⊢
      nth_rewrite 3 [hmiddle] at heq
      rw [checksum_middle heq]
      exact hmiddle.symm
    rw [hset]
    rfl

/-- A byte of the body that ends it too early. -/
theorem wrong_end (hs : s.Valid N) (hplain : PlainText s.body) {p : ℕ} (hp : p < s.body.length)
    {x : UInt8} (hx : x = ascii '*' ∨ x = ascii '\n') :
    Views (· = s.view) ((sentenceMachine N).outputs .searching
      (s.delimiter :: (s.body.set p x ++ sentenceEnd s.h1 s.h2))) := by
  have hfront : BodyText (s.body.take p) := fun c hc => hs.body c (List.mem_of_mem_take hc)
  have hbehind : PlainText (s.body.drop (p + 1)) := fun c hc => hplain c (List.mem_of_mem_drop hc)
  have hfits := hs.fits
  have hlen : (s.body.take p).length ≤ N := by
    rw [List.length_take]
    omega
  obtain ⟨hh1, hh2⟩ := hexDigit_plain hs.sum
  obtain ⟨hrun, hout⟩ := body_run N [] (s.body.take p) hfront (by rw [List.length_nil]; omega)
  rw [List.set_eq_take_append_cons_drop, if_pos hp, start_steps hs, List.append_assoc,
    Mealy.outputs_append, hrun, hout, List.nil_append, List.cons_append, Mealy.outputs_cons,
    sentenceMachine_step]
  refine Views.cons (fun v hv => by cases hv) ?_
  refine (views_silent _).append ?_
  have hdetour := rest_detour hh1 hh2 _ hbehind
  obtain rfl | rfl := hx
  · exact (views_detour N _ _ hdetour).cons fun v hv => by cases hv
  · exact (views_detour N _ _ hdetour).cons fun v hv => by cases hv

/-- The `*` itself. -/
theorem wrong_star (hroom : s.body.length < N) (x : UInt8) : Views (· = s.view)
    ((sentenceMachine N).outputs (.body s.body) (x :: [s.h1, s.h2, ascii '\r', ascii '\n'])) := by
  rw [Mealy.outputs_cons, sentenceMachine_step]
  by_cases hx : x = ascii '*' ∨ x = ascii '\n'
  · have hcarries : (phaseStep N (.body s.body) x).1.Carries s.view := by
      obtain rfl | rfl := hx <;> exact rfl
    have hquiet : ∀ v, (phaseStep N (.body s.body) x).2 = some (.ok v) → v = s.view := by
      intro v hv
      obtain rfl | rfl := hx <;> cases hv
    exact (views_carried N (P := (· = s.view)) rfl hcarries _ (by show 4 ≤ 6; omega)).cons hquiet
  · obtain ⟨hstar, hlf⟩ := not_or.mp hx
    have hstep : phaseStep N (.body s.body) x = (.body (s.body ++ [x]), none) := by
      simp only [phaseStep, bodyStep, if_neg hstar, if_neg hlf, if_neg (Nat.not_le.mpr hroom)]
    rw [hstep]
    exact (views_short N _ _ (by show 4 < 5; omega)).cons fun v hv => by cases hv

theorem machine_wrong_byte (hs : s.Valid N) (hplain : PlainText s.body) (hroom : s.body.length < N)
    (p : ℕ) (x : UInt8) :
    Views (· = s.view) ((sentenceMachine N).outputs .searching (s.bytes.set p x)) := by
  rw [s.bytes_eq]
  cases p with
  | zero => exact wrong_delimiter hs hplain x
  | succ p =>
    rw [List.set_cons_succ]
    by_cases hp : p < s.body.length
    · rw [List.set_append_left _ _ hp]
      by_cases hx : x = ascii '*' ∨ x = ascii '\n'
      · exact wrong_end hs hplain hp hx
      · exact wrong_text hs hp (not_or.mp hx)
    · rw [List.set_append_right _ _ (Nat.not_lt.mp hp), start_steps hs, body_steps hs]
      refine Views.cons (fun v hv => by cases hv) ?_
      refine (views_silent _).append ?_
      cases p - s.body.length with
      | zero => exact wrong_star hroom x
      | succ k =>
        -- behind the `*` every view is the one that was read
        have hlen : ([s.h1, s.h2, ascii '\r', ascii '\n'].set k x).length ≤ 6 := by
          rw [List.length_set]
          show 4 ≤ 6
          omega
        have hcarries : Phase.Carries s.view (.hex1 (checksum s.body) s.view) := rfl
        exact (views_carried N (P := (· = s.view)) rfl hcarries _ hlen).cons fun v hv => by cases hv

/-! ## A lost byte -/

theorem lost_text (hs : s.Valid N) (hplain : PlainText s.body) {p : ℕ} (hp : p < s.body.length) :
    Views (fun _ => False) ((sentenceMachine N).outputs .searching
      (s.delimiter :: (s.body.eraseIdx p ++ sentenceEnd s.h1 s.h2))) := by
  refine views_other hs ?_ ?_ ?_
  · exact fun c hc => hs.body c (List.mem_of_mem_eraseIdx hc)
  · have hle := List.length_eraseIdx_le s.body p
    exact hle.trans hs.fits
  · intro heq
    have hmiddle : s.body = s.body.take p ++ s.body[p] :: s.body.drop (p + 1) := by
      rw [List.getElem_cons_drop, List.take_append_drop]
    rw [List.eraseIdx_eq_take_drop_succ] at heq
    nth_rewrite 3 [hmiddle] at heq
    have hzero := checksum_without heq
    obtain ⟨hprintable, -⟩ := hplain _ (List.getElem_mem hp)
    rw [hzero] at hprintable
    exact absurd hprintable (by decide)

theorem machine_lost_byte (hs : s.Valid N) (hplain : PlainText s.body) {p : ℕ}
    (hp : p < s.bytes.length) :
    Views (fun _ => False) ((sentenceMachine N).outputs .searching (s.bytes.eraseIdx p)) := by
  rw [s.bytes_eq] at hp ⊢
  cases p with
  | zero =>
    obtain ⟨hh1, hh2⟩ := hexDigit_plain hs.sum
    exact views_noise N (rest_noise hh1 hh2 s.body hplain)
  | succ p =>
    rw [List.eraseIdx_cons_succ]
    by_cases hbody : p < s.body.length
    · rw [List.eraseIdx_append_of_lt_length hbody]
      exact lost_text hs hplain hbody
    · rw [List.eraseIdx_append_of_length_le (Nat.not_lt.mp hbody), start_steps hs, body_steps hs]
      refine Views.cons (fun v hv => by cases hv) ?_
      refine (views_silent _).append ?_
      have hend : (sentenceEnd s.h1 s.h2).length = 5 := rfl
      rw [List.length_cons, List.length_append, hend] at hp
      cases hk : p - s.body.length with
      | zero => exact views_short N _ _ (by show 4 < 5; omega)
      | succ k =>
        refine Views.cons (fun v hv => by cases hv) (views_short N _ _ ?_)
        have htail : ([s.h1, s.h2, ascii '\r', ascii '\n'].eraseIdx k).length = 3 := by
          rw [List.length_eraseIdx_of_lt (by show k < 4; omega)]
          rfl
        rw [htail]
        show 3 < 4
        omega

end

/-! ## The framer -/

/-- **One wrong byte**: whatever it is and wherever it stands, no view is returned but the one of the
sentence that was sent. -/
theorem wrong_byte_harmless (buffer : Region UInt8) (u : List UInt8)
    (hsearch : (framerAfter buffer u).locals.site = .search) (s : Sentence)
    (hs : s.Valid buffer.size) (hplain : PlainText s.body) (hroom : s.body.length < buffer.size)
    (p : ℕ) (x : UInt8) : Views (· = s.view) (resultsAfter buffer u (s.bytes.set p x)) := by
  rw [resultsAfter_eq, phaseAfter_of_search buffer u hsearch]
  exact machine_wrong_byte hs hplain hroom p x

def shortSentence : Sentence := ⟨ascii '$', asciiText "AB", ascii '0', ascii '3'⟩

/-- The `*` becomes a `?`. -/
theorem wrong_star_harmless : Views (· = shortSentence.view)
    (resultsAfter (Region.ofList 0 (List.replicate 8 0)) [] (shortSentence.bytes.set 3 (ascii '?'))) :=
  wrong_byte_harmless (Region.ofList 0 (List.replicate 8 0)) []
    (congrArg State.site (create_locals _ (body_alternates _))) shortSentence
    ⟨by decide, by decide, by decide, by decide⟩ (by decide) (by decide) 3 (ascii '?')

/-- With no room for one more character the body is cut at a wrong `*`, and may have the checksum. -/
example : resultsAfter (Region.ofList 0 (List.replicate 4 0)) []
      (Sentence.bytes ⟨ascii '$', asciiText "A,,B", ascii '0', ascii '3'⟩ |>.set 5 (ascii 'x')) =
    List.replicate 5 none ++
      [some (.error (ErrorCode.bufferOverrun.toInt, msgOverrun)), none, none, none,
        some (.ok (viewOf [asciiText "A", []]))] := by
  rw [resultsAfter_eq]
  decide

/-- **One lost byte**: no view is returned at all. -/
theorem lost_byte_unseen (buffer : Region UInt8) (u : List UInt8)
    (hsearch : (framerAfter buffer u).locals.site = .search) (s : Sentence)
    (hs : s.Valid buffer.size) (hplain : PlainText s.body) (p : ℕ) (hp : p < s.bytes.length)
    (view : TextView) : some (.ok view) ∉ resultsAfter buffer u (s.bytes.eraseIdx p) := by
  intro hview
  rw [resultsAfter_eq, phaseAfter_of_search buffer u hsearch] at hview
  exact machine_lost_byte hs hplain hp view hview

/-- The `*` is lost. -/
theorem lost_star_unseen : some (.ok shortSentence.view) ∉
    resultsAfter (Region.ofList 0 (List.replicate 8 0)) [] (shortSentence.bytes.eraseIdx 3) :=
  lost_byte_unseen (Region.ofList 0 (List.replicate 8 0)) []
    (congrArg State.site (create_locals _ (body_alternates _))) shortSentence
    ⟨by decide, by decide, by decide, by decide⟩ (by decide) 3 (by decide) _

end Avionicpp.Nmea0183
