import Avionicpp.Mavlink.FramerRefinement

/-! # Reference segmentation

What the framer returns for a stream when the working buffer holds every frame there can be: the
stream is cut into frames, each is returned on its last byte, and nothing else is returned.
-/
namespace Avionicpp.Mavlink
open Foundations Coroutine
set_option autoImplicit false

/-- The results for a stream, one for each byte. Bytes are skipped until a start byte; a frame has the
length that its start byte, its LEN and its flags give it, and may still be unfinished at the end. -/
def segmentation : List UInt8 → List (Option FrameView)
  | [] => []
  | c :: u =>
    if IsStx c then
      let n := frameLength (c :: u)
      if n ≤ (c :: u).length then
        List.replicate (n - 1) none ++ some (frameView ((c :: u).take n)) :: segmentation (u.drop (n - 1))
      else List.replicate (c :: u).length none
    else none :: segmentation u
termination_by u => u.length
decreasing_by
  · rw [List.length_drop, List.length_cons]
    omega
  · exact Nat.lt_succ_self _

theorem isFrame_take {u : List UInt8} (hstx : IsStx (magic u)) (h : frameLength u ≤ u.length) :
    IsFrame (u.take (frameLength u)) ∧ (u.take (frameLength u)).length = frameLength u := by
  have hlong := eight_le_frameLength u
  have hlen : (u.take (frameLength u)).length = frameLength u := by
    rw [List.length_take]
    omega
  have hmagic := magic_append (u.drop (frameLength u)) (show 0 < (u.take (frameLength u)).length by omega)
  have hframe := frameLength_append (u.drop (frameLength u))
    (show 2 < (u.take (frameLength u)).length by omega)
  rw [List.take_append_drop] at hmagic hframe
  refine ⟨⟨?_, ?_⟩, hlen⟩
  · rw [← hmagic]
    exact hstx
  · rw [hlen]
    exact hframe

theorem frameMachine_segmentation (N : ℕ) (hN : 280 ≤ N) (u : List UInt8) :
    (frameMachine N).outputs .idle u = (segmentation u).map (Option.map .ok) := by
  induction hk : u.length using Nat.strong_induction_on generalizing u with
  | _ k ih =>
    cases u with
    | nil => rw [segmentation]; rfl
    | cons c u =>
      have hle := frameLength_le (c :: u)
      have hlong := eight_le_frameLength (c :: u)
      rw [List.length_cons] at hk
      rw [segmentation]
      by_cases hc : IsStx c
      · rw [if_pos hc]
        dsimp only
        by_cases hn : frameLength (c :: u) ≤ (c :: u).length
        · -- a whole frame, and then the stream behind it
          obtain ⟨hframe, hlen⟩ := isFrame_take (u := c :: u) hc hn
          obtain ⟨hrun, hout⟩ := frame_read N _ hframe (by omega)
          have hrest : (c :: u).drop (frameLength (c :: u)) = u.drop (frameLength (c :: u) - 1) := by
            obtain ⟨m, hm⟩ : ∃ m, frameLength (c :: u) = m + 1 := ⟨_, (Nat.sub_add_cancel (by omega)).symm⟩
            rw [hm]
            rfl
          have hrest_len : (u.drop (frameLength (c :: u) - 1)).length < k := by
            rw [List.length_drop]
            omega
          rw [if_pos hn]
          nth_rewrite 1 [← List.take_append_drop (frameLength (c :: u)) (c :: u)]
          rw [Mealy.outputs_append, hrun, hout, hlen, hrest, ih _ hrest_len _ rfl]
          simp
        · -- the stream ends inside the frame
          have hshort : u.length + 1 < frameLength (c :: u) := by
            rw [List.length_cons] at hn
            omega
          obtain ⟨-, hout⟩ := front_silent N hc u hshort (by omega)
          rw [if_neg hn, hout]
          simp [List.replicate_succ]
      · have hstep : phaseStep N .idle c = (.idle, none) := if_neg hc
        rw [if_neg hc, Mealy.outputs_cons, frameMachine_step, hstep, ih u.length (by omega) u rfl]
        rfl

/-- **The framer is the reference segmentation**: with a buffer for every frame there can be, the
results for a stream are those of its segmentation, and no error is among them. -/
theorem results_segmentation (buffer : Region UInt8) (hsize : 280 ≤ buffer.size) (u : List UInt8) :
    resultsAfter buffer [] u = (segmentation u).map (Option.map .ok) ∧
      ∀ e, some (.error e) ∉ resultsAfter buffer [] u := by
  have hresults : resultsAfter buffer [] u = (segmentation u).map (Option.map .ok) := by
    rw [resultsAfter_eq]
    exact frameMachine_segmentation buffer.size hsize u
  refine ⟨hresults, ?_⟩
  intro e he
  rw [hresults, List.mem_map] at he
  obtain ⟨o, -, ho⟩ := he
  cases o <;> cases ho

/-- A version 1 frame behind a stray byte, and the start of a version 2 frame. -/
theorem sample_segmentation :
    resultsAfter (Region.ofList 0 (List.replicate 280 0)) []
        [0x55, 0xFE, 1, 7, 1, 2, 30, 0xFD, 9, 9, 0xFD] =
      List.replicate 9 none ++
        [some (.ok { msgid := 30, sysid := 1, compid := 2, seq := 7, payload := [0xFD] }), none] := by
  have hsize : 280 ≤ (Region.ofList (0 : UInt8) (List.replicate 280 0)).size := by
    rw [Region.ofList_size, List.length_replicate]
  rw [(results_segmentation _ hsize [0x55, 0xFE, 1, 7, 1, 2, 30, 0xFD, 9, 9, 0xFD]).1]
  simp [segmentation, IsStx, frameLength, magic, lenByte, frameView, ofBytes]

end Avionicpp.Mavlink
