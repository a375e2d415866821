import Avionicpp.Mavlink.FramerRefinement

/-! # Bounds of the MAVLink framer

The header and CRC bytes are stored without a look at the size of the span. Where each of them goes is
a function of the version and of LEN alone (`uncheckedOffset`); the payload and signature loops take
care of themselves. So a run keeps its bounds exactly if none of these offsets is outside
(`boundsSafe_iff`), and a buffer is safe for all streams exactly if it has 267 bytes: 13 less than the
largest packet, since a signature is checked.
-/
namespace Avionicpp.Mavlink
open Foundations Coroutine
set_option autoImplicit false

/-! ## What is asked -/

/-- While the bytes `u` are pushed every store is inside the span, every payload span returned lies
inside it, and a frame that is longer than it is answered with an overrun before anything else. -/
structure BoundsSafe (buffer : Region UInt8) (u : List UInt8) : Prop where
  stores : ∀ i ∈ (framerAfter buffer u).locals.buffer.stores, i < buffer.size
  spans : ∀ p c view, p ++ [c] <+: u → yieldedAfter buffer p c = some (.ok view) →
    view.payload.start + view.payload.length ≤ buffer.size
  overruns : ∀ p f, p ++ f <+: u → (framerAfter buffer p).locals.site = .stx → IsFrame f →
    buffer.size < f.length →
      ((resultsAfter buffer p f).filterMap id).head? = some (.error bufferOverrun)

/-- The offset in the frame at which the byte `c` is stored, where the code does not compare it with
the size: the fields of the header and the two bytes of the CRC. -/
def uncheckedOffset (s : State) (c : UInt8) : Option ℕ :=
  let v2 := s.magic = 0xFD
  match s.site with
  | .stx => if IsStx c then some 0 else none
  | .len => some 1
  | .incFlags => some 2
  | .cmpFlags => some 3
  | .seq => some (if v2 then 4 else 2)
  | .sys => some (if v2 then 5 else 3)
  | .comp => some (if v2 then 6 else 4)
  | .msgid => some (if v2 then 7 else 5)
  | .idMid => some 8
  | .idHi => some 9
  | .payload => none
  | .crc1 => some ((if v2 then 10 else 6) + s.len.toNat)
  | .crc2 => some ((if v2 then 10 else 6) + s.len.toNat + 1)
  | .signature => none

def Fits (buffer : Region UInt8) (u : List UInt8) : Prop :=
  ∀ p c k, p ++ [c] <+: u → uncheckedOffset (framerAfter buffer p).locals c = some k →
    k < buffer.size

/-! ## What a step stores -/

def storeIndex (s : State) (c : UInt8) : Option ℕ :=
  match s.site with
  | .stx => if IsStx c then some s.idx else none
  | .payload | .signature => if s.buffer.size ≤ s.idx then none else some s.idx
  | _ => some s.idx

theorem payloadLoop_stores (s : State) : (payloadLoop s).settle.1.buffer.stores = s.buffer.stores := by
  unfold payloadLoop
  split <;> rfl

theorem signatureLoop_stores (s : State) :
    (signatureLoop s).settle.1.buffer.stores = s.buffer.stores := by
  unfold signatureLoop
  split <;> rfl

theorem checkSignature_stores (s : State) :
    (checkSignature s).settle.1.buffer.stores = s.buffer.stores := by
  unfold checkSignature
  split
  · exact signatureLoop_stores s
  · rfl

/-- **One store at most for a byte**, at the write index. -/
theorem resumeWith_stores (s : State) (c : UInt8) :
    (resumeWith s c).settle.1.buffer.stores = (storeIndex s c).toList ++ s.buffer.stores := by
  unfold resumeWith storeIndex
  cases s.site with
  | stx =>
    by_cases hc : IsStx c
    · have hnot : ¬ (c ≠ 0xFD ∧ c ≠ 0xFE) := by
        rcases hc with rfl | rfl <;> decide
      simp only [if_neg hnot, if_pos hc]
      rfl
    · simp only [if_pos (not_or.mp hc), if_neg hc]
      rfl
  | len => dsimp only; split <;> rfl
  | msgid =>
    dsimp only
    split
    · rfl
    · exact payloadLoop_stores _
  | idHi => exact payloadLoop_stores _
  | payload =>
    dsimp only
    split
    · rfl
    · exact payloadLoop_stores _
  | crc2 => exact checkSignature_stores _
  | signature =>
    dsimp only
    split
    · rfl
    · exact signatureLoop_stores _
  | incFlags | cmpFlags | seq | sys | comp | idMid | crc1 => rfl

theorem framerAfter_locals_concat (buffer : Region UInt8) (u : List UInt8) (c : UInt8) :
    (framerAfter buffer (u ++ [c])).locals =
      (resumeWith (framerAfter buffer u).locals c).settle.1 := by
  have hready := (framerAfter_tracks buffer u).1
  have hstep := (pushByte_settle (body buffer) (body_alternates buffer) _ hready c).2.1
  rw [framerAfter, Mealy.run_concat]
  exact hstep

theorem mem_stores_iff (buffer : Region UInt8) (u : List UInt8) (i : ℕ) :
    i ∈ (framerAfter buffer u).locals.buffer.stores ↔
      ∃ p c, p ++ [c] <+: u ∧ storeIndex (framerAfter buffer p).locals c = some i := by
  induction u using List.reverseRecOn with
  | nil =>
    have hstart : (framerAfter buffer []).locals.buffer.stores = [] := by
      show (createFramer buffer).locals.buffer.stores = []
      rw [createFramer, create_locals _ (body_alternates buffer)]
      rfl
    rw [hstart]
    refine ⟨fun h => absurd h List.not_mem_nil, ?_⟩
    rintro ⟨p, c, hfront, -⟩
    exact absurd (List.prefix_nil.mp hfront) (by simp)
  | append_singleton u c ih =>
    rw [framerAfter_locals_concat, resumeWith_stores, List.mem_append, Option.mem_toList, ih]
    constructor
    · rintro (hlast | ⟨p, d, hfront, hstore⟩)
      · exact ⟨u, c, List.prefix_refl _, hlast⟩
      · exact ⟨p, d, hfront.trans (List.prefix_append u [c]), hstore⟩
    · rintro ⟨p, d, hfront, hstore⟩
      obtain heq | hfront := List.prefix_concat_iff.mp hfront
      · obtain ⟨rfl, hd⟩ := List.append_inj' heq rfl
        obtain rfl := (List.cons.inj hd).1
        exact Or.inl hstore
      · exact Or.inr ⟨p, d, hfront, hstore⟩

/-! ## Offsets by phase -/

def phaseOffset (ph : Phase) (c : UInt8) : Option ℕ :=
  match ph with
  | .idle => if IsStx c then some 0 else none
  | .frame f => if Checked f then none else some f.length

theorem headerSite_plain (m : UInt8) (k : ℕ) :
    headerSite m k ≠ .stx ∧ headerSite m k ≠ .payload ∧ headerSite m k ≠ .signature := by
  unfold headerSite
  split <;> decide

/-- A checked byte is one of the payload or of the signature, and nothing else is awaited at their
`co_await`s. -/
theorem site_cases (f : List UInt8) :
    (Checked f ∧ (siteOf f = .payload ∨ siteOf f = .signature)) ∨
      (¬ Checked f ∧ siteOf f ≠ .stx ∧ siteOf f ≠ .payload ∧ siteOf f ≠ .signature) := by
  unfold siteOf
  by_cases hh : f.length < headerLength f
  · refine Or.inr ⟨fun h => absurd h.1 (by omega), ?_⟩
    rw [if_pos hh]
    exact headerSite_plain _ _
  · rw [if_neg hh]
    by_cases hpayload : f.length < headerLength f + (lenByte f).toNat
    · exact Or.inl ⟨⟨by omega, by omega, by omega⟩, by rw [if_pos hpayload]; exact Or.inl rfl⟩
    · by_cases hcrc1 : f.length = headerLength f + (lenByte f).toNat
      · refine Or.inr ⟨fun h => h.2.1 hcrc1, ?_⟩
        rw [if_neg hpayload, if_pos hcrc1]
        decide
      · by_cases hcrc2 : f.length = headerLength f + (lenByte f).toNat + 1
        · refine Or.inr ⟨fun h => h.2.2 hcrc2, ?_⟩
          rw [if_neg hpayload, if_neg hcrc1, if_pos hcrc2]
          decide
        · refine Or.inl ⟨⟨by omega, hcrc1, hcrc2⟩, ?_⟩
          rw [if_neg hpayload, if_neg hcrc1, if_neg hcrc2]
          exact Or.inr rfl

theorem storeIndex_frame (buffer : Region UInt8) (f : List UInt8) (c : UInt8) :
    storeIndex (stateOf buffer f) c =
      if Checked f ∧ buffer.size ≤ f.length then none else some f.length := by
  obtain ⟨hcheck, hsite⟩ | ⟨hcheck, hstx, hpayload, hsignature⟩ := site_cases f
  · have hguard : (Checked f ∧ buffer.size ≤ f.length) ↔ buffer.size ≤ f.length :=
      and_iff_right hcheck
    simp only [hguard]
    obtain hsite | hsite := hsite
    · simp only [storeIndex, stateOf, hsite]
    · simp only [storeIndex, stateOf, hsite]
  · rw [if_neg fun h => hcheck h.1]
    simp only [storeIndex, stateOf]

/-- In the header every byte is unchecked, at the place it has in the frame. -/
theorem uncheckedOffset_header (buffer : Region UInt8) (f : List UInt8) (c : UInt8)
    (hstx : IsStx (magic f)) (hpos : 0 < f.length) (hh : f.length < headerLength f) :
    uncheckedOffset (stateOf buffer f) c = some f.length := by
  rw [stateOf_header buffer hh]
  obtain ⟨m, g, rfl⟩ := List.exists_cons_of_length_pos hpos
  obtain rfl | rfl := hstx
  · have h10 : (0xFD :: g).length < 10 := hh
    match g, h10 with
    | [], _ => rfl
    | [_], _ => rfl
    | [_, _], _ => rfl
    | [_, _, _], _ => rfl
    | [_, _, _, _], _ => rfl
    | [_, _, _, _, _], _ => rfl
    | [_, _, _, _, _, _], _ => rfl
    | [_, _, _, _, _, _, _], _ => rfl
    | [_, _, _, _, _, _, _, _], _ => rfl
  · have h6 : (0xFE :: g).length < 6 := hh
    match g, h6 with
    | [], _ => rfl
    | [_], _ => rfl
    | [_, _], _ => rfl
    | [_, _, _], _ => rfl
    | [_, _, _, _], _ => rfl

theorem uncheckedOffset_frame (buffer : Region UInt8) (f : List UInt8) (c : UInt8)
    (hstx : IsStx (magic f)) (hpos : 0 < f.length) :
    uncheckedOffset (stateOf buffer f) c = if Checked f then none else some f.length := by
  by_cases hh : f.length < headerLength f
  · rw [if_neg fun h => absurd h.1 (by omega)]
    exact uncheckedOffset_header buffer f c hstx hpos hh
  · obtain ⟨hcheck, hsite⟩ | ⟨hcheck, -, hpayload, hsignature⟩ := site_cases f
    · rw [if_pos hcheck]
      obtain hsite | hsite := hsite
      · simp only [uncheckedOffset, stateOf, hsite]
      · simp only [uncheckedOffset, stateOf, hsite]
    · rw [if_neg hcheck]
      have hcrc : f.length = headerLength f + (lenByte f).toNat ∨
          f.length = headerLength f + (lenByte f).toNat + 1 := by
        by_contra hnot
        rw [not_or] at hnot
        exact hcheck ⟨by omega, hnot.1, hnot.2⟩
      obtain hcrc1 | hcrc2 := hcrc
      · have hsite : siteOf f = .crc1 := by
          unfold siteOf
          rw [if_neg hh, if_neg (by omega), if_pos hcrc1]
        simp only [uncheckedOffset, stateOf, hsite]
        exact congrArg some hcrc1.symm
      · have hsite : siteOf f = .crc2 := by
          unfold siteOf
          rw [if_neg hh, if_neg (by omega), if_neg (by omega), if_pos hcrc2]
        simp only [uncheckedOffset, stateOf, hsite]
        exact congrArg some hcrc2.symm

theorem uncheckedOffset_tracks {N : ℕ} {s : State} {ph : Phase} (h : Tracks N s ph) (c : UInt8) :
    uncheckedOffset s c = phaseOffset ph c := by
  obtain ⟨-, hph⟩ := h
  cases ph with
  | idle => simp only [uncheckedOffset, hph.site, phaseOffset]
  | frame f =>
    obtain ⟨hf, hs, -⟩ := hph
    rw [hs]
    exact uncheckedOffset_frame _ f c hf.stx hf.pos

theorem storeIndex_cases {N : ℕ} {s : State} {ph : Phase} (h : Tracks N s ph) {c : UInt8} {i : ℕ}
    (hi : storeIndex s c = some i) : phaseOffset ph c = some i ∨ i < N := by
  obtain ⟨hsize, hph⟩ := h
  cases ph with
  | idle =>
    left
    rw [storeIndex, hph.site, hph.idx] at hi
    exact hi
  | frame f =>
    obtain ⟨hf, hs, -⟩ := hph
    rw [hs, storeIndex_frame] at hi
    by_cases hcheck : Checked f
    · right
      by_cases hfull : s.buffer.size ≤ f.length
      · rw [if_pos ⟨hcheck, hfull⟩] at hi
        cases hi
      · rw [if_neg fun h => hfull h.2, Option.some.injEq] at hi
        omega
    · left
      rw [if_neg fun h => hcheck h.1] at hi
      rw [phaseOffset, if_neg hcheck]
      exact hi

theorem storeIndex_unchecked {N : ℕ} {s : State} {ph : Phase} (h : Tracks N s ph) {c : UInt8} {k : ℕ}
    (hk : phaseOffset ph c = some k) : storeIndex s c = some k := by
  obtain ⟨-, hph⟩ := h
  cases ph with
  | idle =>
    rw [storeIndex, hph.site, hph.idx]
    exact hk
  | frame f =>
    obtain ⟨hf, hs, -⟩ := hph
    rw [phaseOffset] at hk
    by_cases hcheck : Checked f
    · rw [if_pos hcheck] at hk
      cases hk
    · rw [if_neg hcheck] at hk
      rw [hs, storeIndex_frame, if_neg fun h => hcheck h.1]
      exact hk

theorem fits_iff (buffer : Region UInt8) (u : List UInt8) :
    Fits buffer u ↔ ∀ p c k, p ++ [c] <+: u → phaseOffset (phaseAfter buffer.size p) c = some k →
      k < buffer.size := by
  unfold Fits
  simp only [uncheckedOffset_tracks (framerAfter_tracks buffer _).2]

theorem stores_iff (buffer : Region UInt8) (u : List UInt8) :
    (∀ i ∈ (framerAfter buffer u).locals.buffer.stores, i < buffer.size) ↔ Fits buffer u := by
  rw [fits_iff]
  constructor
  · intro h p c k hfront hk
    have hstore := storeIndex_unchecked (framerAfter_tracks buffer p).2 hk
    exact h k ((mem_stores_iff buffer u k).mpr ⟨p, c, hfront, hstore⟩)
  · intro h i hi
    obtain ⟨p, c, hfront, hstore⟩ := (mem_stores_iff buffer u i).mp hi
    obtain hoffset | hlt := storeIndex_cases (framerAfter_tracks buffer p).2 hstore
    · exact h p c i hfront hoffset
    · exact hlt

/-! ## Payload spans -/

theorem payloadLoop_silent (s : State) : (payloadLoop s).settle.2 = none := by
  unfold payloadLoop
  split <;> rfl

theorem signatureLoop_view {s : State} {view : MessageView}
    (h : (signatureLoop s).settle.2 = some (.ok view)) : view = s.view := by
  unfold signatureLoop at h
  split at h
  · cases h
  · cases h
    rfl

theorem checkSignature_view {s : State} {view : MessageView}
    (h : (checkSignature s).settle.2 = some (.ok view)) : view = s.view := by
  unfold checkSignature at h
  split at h
  · exact signatureLoop_view h
  · cases h
    rfl

theorem resumeWith_view {s : State} {c : UInt8} {view : MessageView}
    (h : (resumeWith s c).settle.2 = some (.ok view)) :
    view = s.view ∧ (s.site = .crc2 ∨ s.site = .signature) := by
  unfold resumeWith at h
  cases hsite : s.site with
  | crc2 =>
    simp only [hsite] at h
    have hview : view = (put s c).view := checkSignature_view h
    exact ⟨hview, Or.inl rfl⟩
  | signature =>
    simp only [hsite] at h
    split at h
    · cases h
    · have hview : view = ({ put s c with i := s.i + 1 } : State).view := signatureLoop_view h
      exact ⟨hview, Or.inr rfl⟩
  | payload =>
    simp only [hsite] at h
    split at h
    · cases h
    · rw [payloadLoop_silent] at h
      cases h
  | stx | len =>
    simp only [hsite] at h
    split at h <;> cases h
  | msgid =>
    simp only [hsite] at h
    split at h
    · cases h
    · rw [startPayload, payloadLoop_silent] at h
      cases h
  | idHi =>
    simp only [hsite, startPayload, payloadLoop_silent] at h
    cases h
  | incFlags | cmpFlags | seq | sys | comp | idMid | crc1 =>
    simp only [hsite] at h
    cases h

theorem site_behind {f : List UInt8} (h : siteOf f = .crc2 ∨ siteOf f = .signature) :
    headerLength f + (lenByte f).toNat < f.length := by
  by_contra hnot
  have hsite : siteOf f ≠ .crc2 ∧ siteOf f ≠ .signature := by
    unfold siteOf
    by_cases hh : f.length < headerLength f
    · rw [if_pos hh]
      unfold headerSite
      split <;> decide
    · rw [if_neg hh]
      by_cases hpayload : f.length < headerLength f + (lenByte f).toNat
      · rw [if_pos hpayload]
        decide
      · rw [if_neg hpayload, if_pos (by omega)]
        decide
  exact h.elim hsite.1 hsite.2

theorem payload_fits {N : ℕ} {u : List UInt8}
    (hfits : ∀ p c k, p ++ [c] <+: u → phaseOffset (phaseAfter N p) c = some k → k < N)
    {p : List UInt8} (hp : p <+: u) {f : List UInt8} (hphase : phaseAfter N p = .frame f)
    (hpos : headerLength f + (lenByte f).toNat < f.length) :
    headerLength f + (lenByte f).toNat < N := by
  induction p using List.reverseRecOn generalizing f with
  | nil => cases hphase
  | append_singleton p c ih =>
    have hstep : (phaseStep N (phaseAfter N p) c).1 = .frame f := by
      rw [← phaseAfter_concat, hphase]
    have hheader := headerLength_cases f
    obtain rfl | ⟨g, hg, rfl⟩ := phaseStep_frame hstep
    · rw [List.length_singleton] at hpos
      omega
    · rw [List.length_append, List.length_singleton] at hpos
      have hh := headerLength_append [c] (show 0 < g.length by omega)
      have hl := lenByte_append [c] (show 1 < g.length by omega)
      rw [hh, hl] at hpos ⊢
      by_cases hbehind : headerLength g + (lenByte g).toNat < g.length
      · exact ih ((List.prefix_append p [c]).trans hp) hg hbehind
      · -- the byte `c` was the first one of the CRC
        have hcrc1 : g.length = headerLength g + (lenByte g).toNat := by omega
        have hoffset : phaseOffset (phaseAfter N p) c = some g.length := by
          rw [hg, phaseOffset, if_neg fun h => h.2.1 hcrc1]
        have hlt := hfits p c g.length hp hoffset
        omega

theorem span_fits {buffer : Region UInt8} {u : List UInt8} (hfits : Fits buffer u) {p : List UInt8}
    {c : UInt8} {view : MessageView} (hfront : p ++ [c] <+: u)
    (hview : yieldedAfter buffer p c = some (.ok view)) :
    view.payload.start + view.payload.length ≤ buffer.size := by
  obtain ⟨hready, -, hph⟩ := framerAfter_tracks buffer p
  have hvalue := (pushByte_settle (body buffer) (body_alternates buffer) _ hready c).2.2.1
  rw [yieldedAfter, hvalue] at hview
  obtain ⟨rfl, hsite⟩ := resumeWith_view hview
  cases hphase : phaseAfter buffer.size p with
  | idle =>
    rw [hphase] at hph
    rw [hph.site] at hsite
    rcases hsite with h | h <;> cases h
  | frame f =>
    rw [hphase] at hph
    obtain ⟨hf, hs, -⟩ := hph
    rw [hs] at hsite ⊢
    have hbehind := site_behind hsite
    have hin := payload_fits ((fits_iff buffer u).mp hfits) ((List.prefix_append p [c]).trans hfront)
      hphase hbehind
    show (headerView f).payload.start + (headerView f).payload.length ≤ buffer.size
    rw [headerView_payload (by omega)]
    exact Nat.le_of_lt hin

/-! ## Frames that are too long -/

theorem long_frame_run {N : ℕ} (f v : List UInt8) (hshort : f.length < frameLength f)
    (hlast : f.length + v.length = frameLength (f ++ v)) (hlong : N < f.length + v.length)
    (hfits : ∀ w x z, v = w ++ x :: z → (frameMachine N).run (.frame f) w = .frame (f ++ w) →
      ¬ Checked (f ++ w) → (f ++ w).length < N) :
    (((frameMachine N).outputs (.frame f) v).filterMap id).head? = some (.error bufferOverrun) := by
  induction v generalizing f with
  | nil =>
    rw [List.append_nil, List.length_nil] at hlast
    omega
  | cons c v ih =>
    have hsplit : f ++ c :: v = (f ++ [c]) ++ v := by simp
    have hlen : (f ++ [c]).length = f.length + 1 := by simp
    rw [hsplit, List.length_cons] at hlast
    rw [List.length_cons] at hlong
    rw [Mealy.outputs_cons, frameMachine_step]
    by_cases hover : Checked f ∧ N ≤ f.length
    · rw [phaseStep, if_pos hover]
      rfl
    · by_cases hdone : f.length + 1 = frameLength (f ++ [c])
      · -- the last byte of the frame: it is unchecked and does not fit
        have hframe := eight_le_frameLength (f ++ [c])
        rw [frameLength_append v (by omega)] at hlast
        have hfull : N ≤ f.length := by omega
        have hlt := hfits [] c v rfl (by simp) (by simpa using fun h => hover ⟨h, hfull⟩)
        rw [List.append_nil] at hlt
        omega
      · have hmore : (f ++ [c]).length < frameLength (f ++ [c]) := by
          apply (lt_frameLength_append (f ++ [c]) v).mp
          by_contra hnot
          have hempty : v = [] := List.length_eq_zero_iff.mp (by omega)
          rw [hempty, List.append_nil, List.length_nil] at hlast
          omega
        have hstep : phaseStep N (.frame f) c = (.frame (f ++ [c]), none) := by
          rw [phaseStep, if_neg hover, if_neg hdone]
        rw [hstep]
        apply ih (f ++ [c]) hmore (by omega) (by omega)
        intro w x z hv hrun hcheck
        have happ : f ++ c :: w = f ++ [c] ++ w := by simp
        rw [← happ] at hrun hcheck ⊢
        apply hfits (c :: w) x z (by rw [hv]; rfl) ?_ hcheck
        rw [Mealy.run_cons, frameMachine_step, hstep]
        exact hrun

theorem phaseAfter_idle {buffer : Region UInt8} {p : List UInt8}
    (h : (framerAfter buffer p).locals.site = .stx) : phaseAfter buffer.size p = .idle := by
  obtain ⟨-, -, hph⟩ := framerAfter_tracks buffer p
  cases hphase : phaseAfter buffer.size p with
  | idle => rfl
  | frame f =>
    rw [hphase] at hph
    obtain ⟨-, hs, -⟩ := hph
    rw [hs] at h
    have hsite : siteOf f = .stx := h
    obtain ⟨-, hp | hp⟩ | ⟨-, hne, -⟩ := site_cases f
    · rw [hsite] at hp; cases hp
    · rw [hsite] at hp; cases hp
    · exact absurd hsite hne

theorem overrun_first {buffer : Region UInt8} {u : List UInt8} (hfits : Fits buffer u)
    {p f : List UInt8} (hfront : p ++ f <+: u) (hidle : (framerAfter buffer p).locals.site = .stx)
    (hf : IsFrame f) (hlong : buffer.size < f.length) :
    ((resultsAfter buffer p f).filterMap id).head? = some (.error bufferOverrun) := by
  have hphase := phaseAfter_idle hidle
  rw [fits_iff] at hfits
  obtain ⟨hstx, hlength⟩ := hf
  have hframe := eight_le_frameLength f
  obtain ⟨c, v, rfl⟩ := List.exists_cons_of_length_pos (show 0 < f.length by omega)
  have hstep : phaseStep buffer.size .idle c = (.frame [c], none) := if_pos hstx
  rw [resultsAfter_eq, hphase, Mealy.outputs_cons, frameMachine_step, hstep, List.filterMap_cons_none rfl]
  rw [List.length_cons] at hlength hlong
  have hone := eight_le_frameLength [c]
  apply long_frame_run [c] v
  · rw [List.length_singleton]
    omega
  · rw [List.length_singleton, List.singleton_append]
    omega
  · rw [List.length_singleton]
    omega
  · intro w x z hv hrun hcheck
    have hstart : phaseAfter buffer.size (p ++ c :: w) = .frame ([c] ++ w) := by
      have hp : (frameMachine buffer.size).run .idle p = .idle := hphase
      rw [phaseAfter, Mealy.run_append, hp, Mealy.run_cons, frameMachine_step, hstep]
      exact hrun
    have hpre : p ++ c :: w ++ [x] <+: u := by
      refine List.IsPrefix.trans ⟨z, ?_⟩ hfront
      rw [hv]
      simp
    apply hfits (p ++ c :: w) x _ hpre
    rw [hstart, phaseOffset, if_neg hcheck]

/-- **Bounds of a run**: it is safe if and only if its header and CRC bytes fit. -/
theorem boundsSafe_iff (buffer : Region UInt8) (u : List UInt8) :
    BoundsSafe buffer u ↔ Fits buffer u := by
  constructor
  · intro h
    exact (stores_iff buffer u).mp h.stores
  · intro h
    refine ⟨(stores_iff buffer u).mpr h, ?_, ?_⟩
    · intro p c view hfront hview
      exact span_fits h hfront hview
    · intro p f hfront hidle hf hlong
      exact overrun_first h hfront hidle hf hlong

/-- A version 1 frame of nine bytes in a buffer of eight: its last CRC byte is stored behind the
buffer, and the frame is returned. -/
theorem crc_byte_outside :
    resultsAfter (Region.ofList 0 (List.replicate 8 0)) [] [0xFE, 1, 7, 1, 2, 30, 0x55, 0xAA, 0xBB] =
        List.replicate 8 none ++
          [some (.ok { msgid := 30, sysid := 1, compid := 2, seq := 7, payload := [0x55] })] ∧
      8 ∈ (framerAfter (Region.ofList 0 (List.replicate 8 0))
        [0xFE, 1, 7, 1, 2, 30, 0x55, 0xAA, 0xBB]).locals.buffer.stores ∧
      ¬ BoundsSafe (Region.ofList 0 (List.replicate 8 0))
        [0xFE, 1, 7, 1, 2, 30, 0x55, 0xAA, 0xBB] := by
  have hstore : 8 ∈ (framerAfter (Region.ofList 0 (List.replicate 8 0))
      [0xFE, 1, 7, 1, 2, 30, 0x55, 0xAA, 0xBB]).locals.buffer.stores := by
    rw [mem_stores_iff]
    refine ⟨[0xFE, 1, 7, 1, 2, 30, 0x55, 0xAA], 0xBB, List.prefix_refl _, ?_⟩
    exact storeIndex_unchecked (framerAfter_tracks _ _).2 (by decide)
  refine ⟨by rw [resultsAfter_eq]; decide, hstore, fun h => ?_⟩
  exact absurd (h.stores 8 hstore) (by decide)

/-! ## Sizes that are safe for every stream -/

theorem uncheckedOffset_le {s : State} {c : UInt8} {k : ℕ} (h : uncheckedOffset s c = some k) :
    k ≤ 266 := by
  have hlen := s.len.toNat_lt
  cases hsite : s.site with
  | payload | signature => simp [uncheckedOffset, hsite] at h
  | len | incFlags | cmpFlags | idMid | idHi =>
    simp only [uncheckedOffset, hsite, Option.some.injEq] at h
    omega
  | stx =>
    simp only [uncheckedOffset, hsite, Option.ite_none_right_eq_some, Option.some.injEq] at h
    omega
  | seq | sys | comp | msgid | crc1 | crc2 =>
    simp only [uncheckedOffset, hsite, Option.some.injEq] at h
    split at h <;> omega

/-- The start of a frame that fills the buffer up to its last CRC byte, or as far as the buffer goes
where that is shorter. -/
theorem filled_unsafe {buffer : Region UInt8} (v : List UInt8) (hlen : v.length + 1 = buffer.size)
    (hbyte : 10 ≤ buffer.size → (lenByte (0xFD :: v)).toNat = buffer.size - 11) :
    ¬ BoundsSafe buffer (0xFD :: v ++ [0]) := by
  intro h
  rw [boundsSafe_iff, fits_iff] at h
  have hheader : headerLength (0xFD :: v) = 10 := rfl
  have hframe := frameLength_eq (0xFD :: v)
  have hshort : [0xFD].length + v.length < frameLength ([0xFD] ++ v) := by
    rw [List.length_singleton, List.singleton_append]
    omega
  have hcheck : ¬ Checked (0xFD :: v) := by
    rintro ⟨h10, hcrc1, hcrc2⟩
    rw [List.length_cons, hheader] at h10 hcrc1 hcrc2
    omega
  obtain ⟨hrun, -⟩ := frame_silent buffer.size [0xFD] v hshort
    (by rw [List.length_singleton]; omega)
  have hphase : phaseAfter buffer.size (0xFD :: v) = .frame (0xFD :: v) := hrun
  have hoffset : phaseOffset (phaseAfter buffer.size (0xFD :: v)) 0 = some (v.length + 1) := by
    rw [hphase, phaseOffset, if_neg hcheck, List.length_cons]
  have hlt := h (0xFD :: v) 0 _ (List.prefix_refl _) hoffset
  omega

/-- **The sizes that are safe whatever comes.** -/
theorem boundsSafe_all_iff (buffer : Region UInt8) :
    (∀ u, BoundsSafe buffer u) ↔ 267 ≤ buffer.size := by
  constructor
  · intro h
    by_contra hsmall
    obtain ⟨m, hm⟩ | hzero : (∃ m, buffer.size = m + 1) ∨ buffer.size = 0 := by
      cases buffer.size with
      | zero => exact Or.inr rfl
      | succ m => exact Or.inl ⟨m, rfl⟩
    · have hlen : ((UInt8.ofNat (m - 10) :: List.replicate m 0).take m).length + 1 = buffer.size := by
        simp [hm]
      refine filled_unsafe _ hlen (fun h10 => ?_) (h _)
      obtain ⟨n, rfl⟩ : ∃ n, m = n + 1 := ⟨m - 1, by omega⟩
      show (UInt8.ofNat (n + 1 - 10)).toNat = _
      rw [UInt8.toNat_ofNat']
      omega
    · have hfits := (fits_iff buffer [0xFD]).mp ((boundsSafe_iff buffer _).mp (h _))
      have hlt := hfits [] 0xFD 0 (List.prefix_refl _) rfl
      omega
  · intro hsize u
    rw [boundsSafe_iff]
    intro p c k _ hk
    have hle := uncheckedOffset_le hk
    omega

end Avionicpp.Mavlink
