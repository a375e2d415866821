import Avionicpp.Nmea0183.SentenceStream

/-! # Bounds of the NMEA framer

Between two bytes the tokens of the view and the start of the current field lie inside the part of the
span that is written, and that part inside the span (`Bounded`). A comma moves the start of the field
one past the write index; only storing the comma restores the invariant, and the overrun exit between
the two leaves the payload loop, where the start is no longer read. The array of fields keeps the indices
that it was assigned at: those below the count, each once (`Filled`).
-/
namespace Avionicpp.Nmea0183
open Foundations Coroutine
set_option autoImplicit false

/-! ## What is asked -/

/-- The byte makes the payload loop cut a field. -/
def CutsField (s : State) (c : UInt8) : Prop :=
  s.site = .payload ∧ (c = ascii '*' ∨ c = ascii '\n' ∨ c = ascii ',')

/-- Where the byte is stored. -/
def storeIndex (s : State) (c : UInt8) : Option ℕ :=
  if s.site = .payload ∧ c ≠ ascii '*' ∧ c ≠ ascii '\n' ∧ s.bufferIdx < s.buffer.size then
    some s.bufferIdx
  else none

/-- After `q` the framer was searching, `d` started a sentence, and before the last byte of `w` it was
not searching again. -/
structure InSentence (buffer : Region UInt8) (q : List UInt8) (d : UInt8) (w : List UInt8) : Prop where
  searching : (framerAfter buffer q).locals.site = .search
  start : IsStart d
  reading : ∀ v x, v ++ [x] <+: w → (framerAfter buffer (q ++ d :: v)).locals.site ≠ .search

/-- While the bytes `u` are pushed: every store is inside the span; no length of a field wraps; the
tokens lie in the part `[0, k)` of the span that was written since the start of the sentence; the array
has room for the fields that are counted and was never assigned past its end; and a body that is longer
than the span is answered with an overrun on its first byte that does not fit, with nothing before. -/
structure IndexSafe (buffer : Region UInt8) (u : List UInt8) : Prop where
  stores : ∃ new, (framerAfter buffer u).locals.buffer.stores = new ++ buffer.stores ∧
    ∀ i ∈ new, i < buffer.size
  lengths : ∀ p c, p ++ [c] <+: u → CutsField (framerAfter buffer p).locals c →
    (framerAfter buffer p).locals.fieldStartIdx ≤ (framerAfter buffer p).locals.bufferIdx
  tokens : ∀ q d w, q ++ d :: w <+: u → InSentence buffer q d w → ∃ k,
    (framerAfter buffer (q ++ d :: w)).locals.buffer.stores =
        (List.range k).reverse ++ (framerAfter buffer q).locals.buffer.stores ∧
      k ≤ buffer.size ∧ (framerAfter buffer (q ++ d :: w)).locals.view.Within k
  fields : ∀ p, p <+: u →
    let view := (framerAfter buffer p).locals.view
    view.fields.size = maxFields ∧ view.fieldCount ≤ maxFields ∧
      ∀ i ∈ view.fields.stores, i < maxFields
  overruns : ∀ q d b x, q ++ d :: b ++ [x] <+: u → (framerAfter buffer q).locals.site = .search →
    IsStart d → BodyText (b ++ [x]) → b.length = buffer.size →
      resultsAfter buffer q (d :: b ++ [x]) = List.replicate (b.length + 1) none ++
        [some (.error (ErrorCode.bufferOverrun.toInt, msgOverrun))]

/-! ## What a step does to the indices -/

theorem storeChar_stores {s : State} {c : UInt8} (hstar : c ≠ ascii '*') (hlf : c ≠ ascii '\n')
    (hsite : s.site = .payload) :
    (storeChar s c).settle.1.buffer.stores = (storeIndex s c).toList ++ s.buffer.stores ∧
      (storeChar s c).settle.1.bufferIdx = s.bufferIdx + (storeIndex s c).toList.length := by
  unfold storeChar storeIndex
  by_cases hfull : s.buffer.size ≤ s.bufferIdx
  · rw [if_pos hfull, if_neg (fun h => Nat.not_lt.mpr hfull h.2.2.2)]
    exact ⟨rfl, rfl⟩
  · rw [if_neg hfull, if_pos ⟨hsite, hstar, hlf, Nat.lt_of_not_le hfull⟩]
    exact ⟨rfl, rfl⟩

theorem validateChecksum_frame (s : State) :
    (validateChecksum s).settle.1 = { s with site := .search, hex1 := 0, hex2 := 0 } := by
  unfold validateChecksum
  dsimp only
  split_ifs <;> rfl

section
variable {s : State} {c : UInt8}

theorem resumeWith_star (hsite : s.site = .payload) (hc : c = ascii '*') :
    resumeWith s c = .coAwait { cutField s with site := .hex1 } := by
  subst hc
  simp [resumeWith, hsite]

theorem resumeWith_newline (hsite : s.site = .payload) (hc : c = ascii '\n') :
    resumeWith s c = .coYield (.error (ErrorCode.protocolViolation.toInt, msgProtocol))
      (nextMessage (cutField s)) := by
  subst hc
  have hstar : ascii '\n' ≠ ascii '*' := by decide
  simp [resumeWith, hsite, hstar]

theorem resumeWith_comma (hsite : s.site = .payload) (hc : c = ascii ',') :
    resumeWith s c = storeChar (cutField s) c := by
  subst hc
  have hstar : ascii ',' ≠ ascii '*' := by decide
  have hlf : ascii ',' ≠ ascii '\n' := by decide
  simp [resumeWith, hsite, hstar, hlf]

theorem resumeWith_other (hsite : s.site = .payload) (hstar : c ≠ ascii '*') (hlf : c ≠ ascii '\n')
    (hcomma : c ≠ ascii ',') : resumeWith s c = storeChar s c := by
  simp [resumeWith, hsite, hstar, hlf, hcomma]

end

/-- **One store at most for a byte**, at the write index, which then moves on. -/
theorem resumeWith_stores (s : State) (c : UInt8) :
    (resumeWith s c).settle.1.buffer.stores = (storeIndex s c).toList ++ s.buffer.stores ∧
      (s.site ≠ .search →
        (resumeWith s c).settle.1.bufferIdx = s.bufferIdx + (storeIndex s c).toList.length) := by
  cases hsite : s.site with
  | payload =>
    by_cases hstar : c = ascii '*'
    · rw [resumeWith_star hsite hstar, storeIndex, if_neg fun h => h.2.1 hstar]
      exact ⟨rfl, fun _ => rfl⟩
    · by_cases hlf : c = ascii '\n'
      · rw [resumeWith_newline hsite hlf, storeIndex, if_neg fun h => h.2.2.1 hlf]
        exact ⟨rfl, fun _ => rfl⟩
      · by_cases hcomma : c = ascii ','
        · rw [resumeWith_comma hsite hcomma]
          obtain ⟨hstores, hidx⟩ := storeChar_stores (s := cutField s) hstar hlf hsite
          exact ⟨hstores, fun _ => hidx⟩
        · rw [resumeWith_other hsite hstar hlf hcomma]
          obtain ⟨hstores, hidx⟩ := storeChar_stores hstar hlf hsite
          exact ⟨hstores, fun _ => hidx⟩
  | search =>
    refine ⟨?_, fun h => absurd rfl h⟩
    simp only [resumeWith, hsite, storeIndex]
    split <;> rfl
  | hex1 | hex2 => simp [resumeWith, hsite, storeIndex, Code.settle]
  | cr =>
    simp only [resumeWith, hsite, storeIndex]
    split <;> exact ⟨rfl, fun _ => rfl⟩
  | lf =>
    simp only [resumeWith, hsite, storeIndex]
    split
    · exact ⟨rfl, fun _ => rfl⟩
    · rw [validateChecksum_frame]
      exact ⟨rfl, fun _ => rfl⟩

/-- Between two bytes. -/
structure Bounded (s : State) : Prop where
  view : s.view.Within s.bufferIdx
  start : s.site = .payload → s.fieldStartIdx ≤ s.bufferIdx
  idx : s.bufferIdx ≤ s.buffer.size

theorem substr_within {v : StringView} {n : ℕ} (h : v.start + v.length ≤ n) {pos count : ℕ}
    (hpos : pos ≤ v.length) : (v.substr pos count).start + (v.substr pos count).length ≤ n := by
  simp only [StringView.substr]
  omega

/-- A cut keeps the tokens in the written part. -/
theorem cutField_within {s : State} (hview : s.view.Within s.bufferIdx)
    (hstart : s.fieldStartIdx ≤ s.bufferIdx) : (cutField s).view.Within s.bufferIdx := by
  have hlen : sizeSub s.bufferIdx s.fieldStartIdx = s.bufferIdx - s.fieldStartIdx := if_pos hstart
  have hfield : s.fieldStartIdx + sizeSub s.bufferIdx s.fieldStartIdx ≤ s.bufferIdx := by omega
  unfold cutField
  dsimp only
  split_ifs with hfirst h5 hroom
  · have htwo : 2 ≤ sizeSub s.bufferIdx s.fieldStartIdx := Nat.le_trans (by omega) h5
    exact ⟨substr_within hfield (Nat.zero_le _), substr_within hfield htwo, hview.fields⟩
  · exact hview
  · refine ⟨hview.talkerId, hview.messageType, fun i => ?_⟩
    by_cases hi : i = s.view.fieldCount
    · subst hi
      rw [Region.store_cell_self]
      exact hfield
    · rw [Region.store_cell_ne _ _ hi]
      exact hview.fields i
  · exact hview

theorem storeChar_bounded {s : State} (c : UInt8) (hview : s.view.Within s.bufferIdx)
    (hidx : s.bufferIdx ≤ s.buffer.size) (hstart : s.fieldStartIdx ≤ s.bufferIdx + 1) :
    Bounded (storeChar s c).settle.1 := by
  unfold storeChar
  split
  · exact ⟨hview, fun h => (by cases h), hidx⟩
  · refine ⟨hview.mono (Nat.le_succ _), fun _ => hstart, ?_⟩
    show s.bufferIdx + 1 ≤ s.buffer.size
    omega

/-- **One byte** keeps the bounds. -/
theorem resumeWith_bounded {s : State} (h : Bounded s) (c : UInt8) :
    Bounded (resumeWith s c).settle.1 := by
  obtain ⟨hview, hstart, hidx⟩ := h
  unfold resumeWith
  cases hsite : s.site with
  | search =>
    dsimp only
    split
    · exact ⟨hview, fun h => absurd (hsite.symm.trans h) (by decide), hidx⟩
    · exact ⟨MessageView.empty_within 0, fun _ => Nat.le_refl 0, Nat.zero_le _⟩
  | payload =>
    have hcut := cutField_within hview (hstart hsite)
    dsimp only
    split_ifs
    · exact ⟨hcut, fun h => (by cases h), hidx⟩
    · exact ⟨hcut, fun h => (by cases h), hidx⟩
    · exact storeChar_bounded c hcut hidx (Nat.le_refl _)
    · exact storeChar_bounded c hview hidx (Nat.le_succ_of_le (hstart hsite))
  | hex1 | hex2 => exact ⟨hview, fun h => (by cases h), hidx⟩
  | cr =>
    dsimp only
    split <;> exact ⟨hview, fun h => (by cases h), hidx⟩
  | lf =>
    dsimp only
    split
    · exact ⟨hview, fun h => (by cases h), hidx⟩
    · rw [validateChecksum_frame]
      exact ⟨hview, fun h => (by cases h), hidx⟩

/-- The fields of a view were assigned one after the other, and there is room for all of them. -/
structure Filled (view : MessageView) : Prop where
  size : view.fields.size = maxFields
  count : view.fieldCount ≤ maxFields
  stores : view.fields.stores = (List.range view.fieldCount).reverse

theorem empty_filled : Filled .empty := ⟨List.length_replicate, Nat.zero_le _, rfl⟩

/-- A cut assigns the next field, if there is one. -/
theorem cutField_filled {s : State} (h : Filled s.view) : Filled (cutField s).view := by
  unfold cutField
  dsimp only
  split_ifs with hfirst h5 hroom
  · exact ⟨h.size, h.count, h.stores⟩
  · exact h
  · refine ⟨h.size, hroom, ?_⟩
    rw [Region.store_stores, h.stores, List.range_succ, List.reverse_append]
    rfl
  · exact h

theorem storeChar_view (s : State) (c : UInt8) : (storeChar s c).settle.1.view = s.view := by
  unfold storeChar
  split <;> rfl

/-- **One byte** assigns the next field at most. -/
theorem resumeWith_filled {s : State} (h : Filled s.view) (c : UInt8) :
    Filled (resumeWith s c).settle.1.view := by
  unfold resumeWith
  cases s.site with
  | search =>
    dsimp only
    split
    · exact h
    · exact empty_filled
  | payload =>
    have hcut := cutField_filled h
    dsimp only
    split_ifs
    · exact hcut
    · exact hcut
    · rw [storeChar_view]
      exact hcut
    · rw [storeChar_view]
      exact h
  | hex1 | hex2 => exact h
  | cr =>
    dsimp only
    split <;> exact h
  | lf =>
    dsimp only
    split
    · exact h
    · rw [validateChecksum_frame]
      exact h

/-! ## Runs -/

theorem framerAfter_locals_concat (buffer : Region UInt8) (u : List UInt8) (c : UInt8) :
    (framerAfter buffer (u ++ [c])).locals =
      (resumeWith (framerAfter buffer u).locals c).settle.1 := by
  have hready := (framerAfter_tracks buffer u).1
  have hstep := (pushByte_settle (body buffer) (body_alternates buffer) _ hready c).2.1
  rw [framerAfter, Mealy.run_concat]
  exact hstep

theorem framerAfter_start (buffer : Region UInt8) : (framerAfter buffer []).locals = .initial buffer :=
  create_locals _ (body_alternates buffer)

theorem framerAfter_size (buffer : Region UInt8) (u : List UInt8) :
    (framerAfter buffer u).locals.buffer.size = buffer.size := (framerAfter_tracks buffer u).2.1

theorem framerAfter_bounded (buffer : Region UInt8) (u : List UInt8) :
    Bounded (framerAfter buffer u).locals := by
  induction u using List.reverseRecOn with
  | nil =>
    rw [framerAfter_start]
    exact ⟨MessageView.empty_within 0, fun h => (by cases h), Nat.zero_le _⟩
  | append_singleton u c ih =>
    rw [framerAfter_locals_concat]
    exact resumeWith_bounded ih c

theorem framerAfter_filled (buffer : Region UInt8) (u : List UInt8) :
    Filled (framerAfter buffer u).locals.view := by
  induction u using List.reverseRecOn with
  | nil =>
    rw [framerAfter_start]
    exact empty_filled
  | append_singleton u c ih =>
    rw [framerAfter_locals_concat]
    exact resumeWith_filled ih c

theorem framerAfter_stores (buffer : Region UInt8) (u : List UInt8) :
    ∃ new, (framerAfter buffer u).locals.buffer.stores = new ++ buffer.stores ∧
      ∀ i ∈ new, i < buffer.size := by
  induction u using List.reverseRecOn with
  | nil =>
    rw [framerAfter_start]
    exact ⟨[], rfl, fun i hi => absurd hi List.not_mem_nil⟩
  | append_singleton u c ih =>
    obtain ⟨new, hnew, hlt⟩ := ih
    rw [framerAfter_locals_concat, (resumeWith_stores _ c).1, hnew]
    refine ⟨(storeIndex (framerAfter buffer u).locals c).toList ++ new, by simp, ?_⟩
    intro i hi
    obtain hi | hi := List.mem_append.mp hi
    · rw [storeIndex] at hi
      split at hi
      · rename_i hroom
        rw [framerAfter_size] at hroom
        rw [Option.toList_some, List.mem_singleton] at hi
        omega
      · exact absurd hi List.not_mem_nil
    · exact hlt i hi

/-- The part of the span in front of the write index is what the sentence has stored. -/
theorem sentence_stores {buffer : Region UInt8} {q : List UInt8} {d : UInt8} (w : List UInt8)
    (h : InSentence buffer q d w) :
    (framerAfter buffer (q ++ d :: w)).locals.buffer.stores =
      (List.range (framerAfter buffer (q ++ d :: w)).locals.bufferIdx).reverse ++
        (framerAfter buffer q).locals.buffer.stores := by
  induction w using List.reverseRecOn with
  | nil =>
    have hsearch := h.searching
    have hnot : ¬ (d ≠ ascii '$' ∧ d ≠ ascii '!') := not_and_or.mpr (by
      obtain hd | hd := h.start
      · exact Or.inl (not_not.mpr hd)
      · exact Or.inr (not_not.mpr hd))
    rw [framerAfter_locals_concat, resumeWith, hsearch]
    dsimp only
    rw [if_neg hnot]
    rfl
  | append_singleton w c ih =>
    have hbefore : InSentence buffer q d w :=
      ⟨h.searching, h.start, fun v x hv => h.reading v x (hv.trans (List.prefix_append w [c]))⟩
    have hsite := h.reading w c List.prefix_rfl
    have hconcat : q ++ d :: (w ++ [c]) = (q ++ d :: w) ++ [c] := by simp
    obtain ⟨hstores, hidx⟩ := resumeWith_stores (framerAfter buffer (q ++ d :: w)).locals c
    rw [hconcat, framerAfter_locals_concat, hstores, hidx hsite, ih hbefore, storeIndex]
    split
    · rw [Option.toList_some, List.length_singleton, List.range_succ, List.reverse_append]
      rfl
    · rfl

theorem overrun_at_first (buffer : Region UInt8) {q b : List UInt8} {d x : UInt8}
    (hsearch : (framerAfter buffer q).locals.site = .search) (hd : IsStart d)
    (hbody : BodyText (b ++ [x])) (hlen : b.length = buffer.size) :
    resultsAfter buffer q (d :: b ++ [x]) = List.replicate (b.length + 1) none ++
      [some (.error (ErrorCode.bufferOverrun.toInt, msgOverrun))] := by
  have hb : BodyText b := fun c hc => hbody c (List.mem_append_left [x] hc)
  obtain ⟨hstar, hlf⟩ := hbody x (by simp)
  obtain ⟨hrun, hout⟩ := body_run buffer.size [] b hb (by simp [hlen])
  have hstep : (phaseStep buffer.size (.body b) x).2 =
      some (.error (ErrorCode.bufferOverrun.toInt, msgOverrun)) := by
    rw [phaseStep, bodyStep, if_neg hstar, if_neg hlf, if_pos (Nat.le_of_eq hlen.symm)]
  rw [resultsAfter_eq, phaseAfter_of_search buffer q hsearch, List.cons_append, Mealy.outputs_cons,
    sentenceMachine_step, phaseStep_start _ hd, Mealy.outputs_concat, hout, hrun, List.nil_append,
    sentenceMachine_step, hstep, List.replicate_succ]
  rfl

/-- **Index safety** of every run over every span. -/
theorem index_safe (buffer : Region UInt8) (u : List UInt8) : IndexSafe buffer u where
  stores := framerAfter_stores buffer u
  lengths := fun p _ _ hcut => (framerAfter_bounded buffer p).start hcut.1
  tokens := by
    intro q d w _ hsentence
    have hbounded := framerAfter_bounded buffer (q ++ d :: w)
    have hidx := hbounded.idx
    rw [framerAfter_size] at hidx
    exact ⟨_, sentence_stores w hsentence, hidx, hbounded.view⟩
  fields := by
    intro p _ view
    obtain ⟨hsize, hcount, hstores⟩ := framerAfter_filled buffer p
    refine ⟨hsize, hcount, fun i hi => ?_⟩
    rw [hstores, List.mem_reverse, List.mem_range] at hi
    exact Nat.lt_of_lt_of_le hi hcount
  overruns := fun _ _ _ _ _ hsearch hd hbody hlen => overrun_at_first buffer hsearch hd hbody hlen

end Avionicpp.Nmea0183
