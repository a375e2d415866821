import Avionicpp.Mavlink.FramerBounds
import Avionicpp.Mavlink.RoundTrip

/-! # Quiet gaps

A framer that joins a stream late, or that has taken a damaged length byte for good, is inside a frame
that nobody sent. Such a frame is over after at most 280 bytes, so a gap of 279 bytes without a start
byte brings the framer back from every state it can be in, and no shorter one does. Without a gap there
is no bound: the frames that nobody sent may follow each other for as long as the stream lasts.
-/
namespace Avionicpp.Mavlink
open Foundations Coroutine
set_option autoImplicit false

theorem idle_iff_waiting (buffer : Region UInt8) (u : List UInt8) :
    phaseAfter buffer.size u = .idle ↔ (framerAfter buffer u).locals.site = .stx := by
  constructor
  · intro h
    obtain ⟨-, -, hph⟩ := framerAfter_tracks buffer u
    rw [h] at hph
    exact hph.site
  · exact phaseAfter_idle

theorem phaseAfter_append (N : ℕ) (u v : List UInt8) :
    phaseAfter N (u ++ v) = (frameMachine N).run (phaseAfter N u) v := Mealy.run_append _ _ _ _

/-- At most one result among those of a gap. -/
structure OneStray (n : ℕ) (outs : List (Option (Except ErrorType FrameView))) : Prop where
  length : outs.length = n
  stray : (outs.filter Option.isSome).length ≤ 1

theorem OneStray.silent (n : ℕ) : OneStray n (List.replicate n none) := by
  refine ⟨List.length_replicate, ?_⟩
  rw [List.filter_replicate_of_neg (by decide)]
  exact Nat.zero_le 1

theorem OneStray.result (r : Except ErrorType FrameView) (n : ℕ) :
    OneStray (n + 1) (some r :: List.replicate n none) := by
  refine ⟨by simp, ?_⟩
  rw [List.filter_cons_of_pos rfl, List.filter_replicate_of_neg (by decide)]
  exact Nat.le_refl 1

theorem OneStray.none {n : ℕ} {outs : List (Option (Except ErrorType FrameView))}
    (h : OneStray n outs) : OneStray (n + 1) (Option.none :: outs) := by
  refine ⟨congrArg Nat.succ h.length, ?_⟩
  rw [List.filter_cons_of_neg (by decide)]
  exact h.stray

/-- The induction is on the gap; what carries it is that gap and frame together have the length of the
longest frame. -/
theorem frame_gap (N : ℕ) (f v : List UInt8) (hshort : f.length < frameLength f) (hv : Noise v)
    (hlen : 280 ≤ f.length + v.length) :
    (frameMachine N).run (.frame f) v = .idle ∧
      OneStray v.length ((frameMachine N).outputs (.frame f) v) := by
  induction v generalizing f with
  | nil =>
    have hle := frameLength_le f
    rw [List.length_nil] at hlen
    omega
  | cons c v ih =>
    have hquiet : Noise v := fun x hx => hv x (List.mem_cons_of_mem c hx)
    obtain ⟨hrun, hout⟩ := noise_silent N v hquiet
    rw [Mealy.run_cons, Mealy.outputs_cons, frameMachine_step, phaseStep]
    by_cases hcheck : Checked f ∧ N ≤ f.length
    · rw [if_pos hcheck]
      refine ⟨hrun, ?_⟩
      rw [hout]
      exact OneStray.result _ _
    · rw [if_neg hcheck]
      by_cases hlast : f.length + 1 = frameLength (f ++ [c])
      · rw [if_pos hlast]
        refine ⟨hrun, ?_⟩
        rw [hout]
        exact OneStray.result _ _
      · rw [if_neg hlast]
        have hmore := (lt_frameLength_append f [c]).mpr hshort
        have hgrown : (f ++ [c]).length = f.length + 1 := List.length_append
        rw [List.length_cons] at hlen
        obtain ⟨hidle, hstray⟩ := ih (f ++ [c]) (by omega) hquiet (by omega)
        exact ⟨hidle, hstray.none⟩

/-- **A gap of 279 bytes** ends whatever the framer was reading. -/
theorem gap_run (buffer : Region UInt8) (u v : List UInt8) (hv : Noise v) (hlen : 279 ≤ v.length) :
    phaseAfter buffer.size (u ++ v) = .idle ∧ OneStray v.length (resultsAfter buffer u v) := by
  obtain ⟨-, -, hph⟩ := framerAfter_tracks buffer u
  rw [phaseAfter_append, resultsAfter_eq]
  cases hphase : phaseAfter buffer.size u with
  | idle =>
    obtain ⟨hrun, hout⟩ := noise_silent buffer.size v hv
    refine ⟨hrun, ?_⟩
    rw [hout]
    exact OneStray.silent _
  | frame f =>
    rw [hphase] at hph
    obtain ⟨hf, -⟩ := hph
    have hpos := hf.pos
    exact frame_gap buffer.size f v hf.short hv (by omega)

/-- What makes a frame the longest: LEN, and the flag of the signature. -/
def longestFront (n : ℕ) : List UInt8 := (0xFF :: 0x01 :: List.replicate n 0).take n

theorem longestFront_length (n : ℕ) : (longestFront n).length = n := by
  rw [longestFront, List.length_take, List.length_cons, List.length_cons, List.length_replicate]
  omega

theorem longestFront_noise (n : ℕ) : Noise (longestFront n) := by
  intro c hc
  have hmem : c ∈ 0xFF :: 0x01 :: List.replicate n (0 : UInt8) := List.mem_of_mem_take hc
  rw [List.mem_cons, List.mem_cons] at hmem
  obtain rfl | rfl | hzero := hmem
  · decide
  · decide
  · rw [List.eq_of_mem_replicate hzero]
    decide

theorem longestFront_unfinished {n : ℕ} (hn : n ≤ 278) :
    1 + (longestFront n).length < frameLength ([0xFD] ++ longestFront n) := by
  rw [longestFront_length]
  by_cases hflags : 2 ≤ n
  · obtain ⟨k, rfl⟩ := Nat.exists_eq_add_of_le' hflags
    have hfront : frameLength ([0xFD] ++ longestFront (k + 2)) = 280 := by
      simp [frameLength, magic, lenByte, longestFront]
    rw [hfront]
    omega
  · have hlong := eight_le_frameLength ([0xFD] ++ longestFront n)
    omega

/-- **The exact gap**: 279 bytes without a start byte are enough after every history, and no smaller
number is. -/
theorem gap_iff (buffer : Region UInt8) (hsize : 280 ≤ buffer.size) (n : ℕ) :
    (∀ u v : List UInt8, Noise v → v.length = n →
      (framerAfter buffer (u ++ v)).locals.site = .stx) ↔ 279 ≤ n := by
  constructor
  · intro h
    by_contra hn
    have hshort := longestFront_unfinished (n := n) (by omega)
    have hlen := longestFront_length n
    have hwaiting := h [0xFD] _ (longestFront_noise n) hlen
    have hfirst : phaseAfter buffer.size [0xFD] = .frame [0xFD] := rfl
    obtain ⟨hrun, -⟩ := frame_silent buffer.size [0xFD] (longestFront n) hshort
      (by rw [hlen, List.length_singleton]; omega)
    rw [← idle_iff_waiting, phaseAfter_append, hfirst, hrun] at hwaiting
    cases hwaiting
  · intro hn u v hv hlen
    exact (idle_iff_waiting buffer (u ++ v)).mp (gap_run buffer u v hv (by omega)).1

theorem sample_gap_iff :
    (∀ u v : List UInt8, Noise v → v.length = 300 →
      (framerAfter (Region.ofList 0 (List.replicate 280 0)) (u ++ v)).locals.site = .stx) ↔
        279 ≤ 300 :=
  gap_iff (Region.ofList 0 (List.replicate 280 0))
    (by rw [Region.ofList_size, List.length_replicate]) 300

/-- **Joining a stream**: after any bytes at all and then a gap, every message is returned and read
back; what was pending when the gap began comes to one result at most. -/
theorem messages_after_gap (buffer : Region UInt8) (hsize : 280 ≤ buffer.size) (u gap : List UInt8)
    (hgap : Noise gap) (hlen : 279 ≤ gap.length) (items : List Item)
    (hvalid : ∀ it ∈ items, it.Valid) :
    (∃ stray, OneStray gap.length stray ∧
      resultsAfter buffer u (gap ++ streamBytes items) = stray ++ streamResults items) ∧
    ∀ sent it later, items = sent ++ it :: later →
      ∃ w c, it.bytes = w ++ [c] ∧ Received buffer (u ++ gap ++ streamBytes sent ++ w) c it := by
  obtain ⟨hidle, hstray⟩ := gap_run buffer u gap hgap hlen
  constructor
  · refine ⟨_, hstray, ?_⟩
    obtain ⟨-, hout⟩ := stream_run hsize items hvalid
    have hwaiting : (frameMachine buffer.size).run (phaseAfter buffer.size u) gap = .idle := by
      rw [← phaseAfter_append]
      exact hidle
    rw [resultsAfter_eq, resultsAfter_eq, Mealy.outputs_append, hwaiting, hout]
  · intro sent it later hitems
    have hit := hvalid it (by rw [hitems]; simp)
    have hne : it.bytes ≠ [] := by
      rw [Item.bytes, it.frame_eq hit]
      simp [frameOf]
    refine ⟨_, _, (List.dropLast_append_getLast hne).symm, ?_⟩
    apply item_received hsize ?_ hit (List.dropLast_append_getLast hne).symm
    obtain ⟨hrun, -⟩ := stream_run hsize sent fun x hx => hvalid x (by rw [hitems]; simp [hx])
    rw [phaseAfter_append, hidle, hrun]

/-- The start of a long frame, a gap, and a heartbeat. -/
theorem heartbeat_after_gap :
    (∃ stray, OneStray (List.replicate 300 (0 : UInt8)).length stray ∧
      resultsAfter (Region.ofList 0 (List.replicate 280 0)) [0xFD, 0xFF, 0x01]
        (List.replicate 300 0 ++ streamBytes (sampleItems.take 1)) =
          stray ++ streamResults (sampleItems.take 1)) ∧
    ∀ sent it later, sampleItems.take 1 = sent ++ it :: later →
      ∃ w c, it.bytes = w ++ [c] ∧
        Received (Region.ofList 0 (List.replicate 280 0))
          ([0xFD, 0xFF, 0x01] ++ List.replicate 300 0 ++ streamBytes sent ++ w) c it := by
  apply messages_after_gap (Region.ofList 0 (List.replicate 280 0))
  · rw [Region.ofList_size, List.length_replicate]
  · intro c hc
    rw [List.eq_of_mem_replicate hc]
    decide
  · rw [List.length_replicate]
    decide
  · intro it hit
    obtain rfl := List.mem_singleton.mp hit
    refine ⟨by simp [Payloads.all], by simp [Noise, IsStx], ?_⟩
    rw [Region.ofList_size, List.length_replicate]

/-! ## Without a gap -/

/-- The payload starts like a frame of the length that the message's own frame has. -/
structure Entraps (m : MessageT) (message : m.Message) : Prop where
  stx : (payloadOf m message).getD 0 0 = 0xFD
  length : ((payloadOf m message).getD 1 0).toNat = truncatedLength m message
  unsigned : (payloadOf m message).getD 2 0 &&& 0x01 = 0
  long : 10 ≤ truncatedLength m message
  id : UInt32.ofNat (ofBytes (((payloadOf m message).drop 7).take 3)) ≠ m.messageId

section
variable {m : MessageT} {message : m.Message} (sysid compid : UInt8)

def crcBytesOf (m : MessageT) (message : m.Message) (sysid compid seq : UInt8) : List UInt8 :=
  [(crcOf m message sysid compid seq &&& 0xFF).toUInt8,
    ((crcOf m message sysid compid seq >>> 8) &&& 0xFF).toUInt8]

/-- What a receiver takes for a frame that starts with the payload of one frame: its rest, and the header
of the next one. -/
def phantom (m : MessageT) (message : m.Message) (sysid compid seq seq' : UInt8) : List UInt8 :=
  payloadOf m message ++
    (crcBytesOf m message sysid compid seq ++ 0xFD :: headerOf m message sysid compid seq')

theorem phantom_isFrame (h : Entraps m message) (seq seq' : UInt8) :
    IsFrame (phantom m message sysid compid seq seq') ∧
      (frameView (phantom m message sysid compid seq seq')).msgid ≠ m.messageId := by
  have hlen := payloadOf_length m message
  have hlong := h.long
  have hstx : magic (phantom m message sysid compid seq seq') = 0xFD :=
    (getD_append_of_lt (by omega)).trans h.stx
  have hlenByte : (lenByte (phantom m message sysid compid seq seq')).toNat =
      truncatedLength m message :=
    (congrArg UInt8.toNat (getD_append_of_lt (by omega))).trans h.length
  have hunsigned : (phantom m message sysid compid seq seq').getD 2 0 &&& 0x01 = 0 :=
    (congrArg (· &&& 0x01) (getD_append_of_lt (by omega))).trans h.unsigned
  have hlength : (phantom m message sysid compid seq seq').length = 12 + truncatedLength m message := by
    simp only [phantom, crcBytesOf, headerOf, List.length_append, List.length_cons, List.length_nil, hlen]
    omega
  constructor
  · refine ⟨Or.inl hstx, ?_⟩
    rw [hlength, frameLength, if_pos hstx, hlenByte, if_neg (not_not.mpr hunsigned), Nat.add_zero]
  · have hid : ((phantom m message sysid compid seq seq').drop 7).take 3 =
        ((payloadOf m message).drop 7).take 3 := by
      rw [phantom, List.drop_append_of_le_length (by omega),
        List.take_append_of_le_length (by rw [List.length_drop]; omega)]
    rw [frameView, if_pos hstx]
    show UInt32.ofNat (ofBytes (((phantom m message sysid compid seq seq').drop 7).take 3)) ≠ m.messageId
    rw [hid]
    exact h.id

/-- The frames of a message, one for each sequence number. -/
def repeated (m : MessageT) (message : m.Message) (sysid compid : UInt8) (seqs : List UInt8) :
    List UInt8 :=
  seqs.flatMap (frameOf m message sysid compid)

/-- Cut behind a header, a line of frames is a line of phantoms and the rest of the last frame. -/
theorem repeated_cons (seq seq' : UInt8) (seqs : List UInt8) :
    (repeated m message sysid compid (seq :: seq' :: seqs)).drop 10 =
      phantom m message sysid compid seq seq' ++
        (repeated m message sysid compid (seq' :: seqs)).drop 10 := by
  simp [repeated, frameOf, headerOf, crcBytesOf, phantom]

theorem repeated_last (seq : UInt8) : (repeated m message sysid compid [seq]).drop 10 =
    payloadOf m message ++ crcBytesOf m message sysid compid seq := by
  simp [repeated, frameOf, headerOf, crcBytesOf]

theorem repeated_run {N : ℕ} (hN : 280 ≤ N) (h : Entraps m message) (seq : UInt8) (seqs : List UInt8) :
    let outs := (frameMachine N).outputs .idle ((repeated m message sysid compid (seq :: seqs)).drop 10)
    (outs.filter Option.isSome).length = seqs.length ∧
      ∀ r, some r ∈ outs → ∃ fv, r = .ok fv ∧ fv.msgid ≠ m.messageId := by
  induction seqs generalizing seq with
  | nil =>
    -- the last payload and its checksum are the front of a phantom
    intro outs
    obtain ⟨hframe, -⟩ := phantom_isFrame sysid compid h seq seq
    have hle := frameLength_le (phantom m message sysid compid seq seq)
    obtain ⟨-, hout⟩ := frame_read N _ hframe (by rw [hframe.length]; omega)
    have hquiet : outs = List.replicate
        (payloadOf m message ++ crcBytesOf m message sysid compid seq).length none := by
      show (frameMachine N).outputs .idle ((repeated m message sysid compid [seq]).drop 10) = _
      rw [repeated_last]
      apply Mealy.silent_front hout
      · refine ⟨0xFD :: headerOf m message sysid compid seq, ?_⟩
        rw [phantom, List.append_assoc]
      · simp only [phantom, List.length_append, List.length_cons]
        omega
    rw [hquiet]
    refine ⟨by rw [List.filter_replicate_of_neg (by decide)]; rfl, fun r hr => ?_⟩
    cases List.eq_of_mem_replicate hr
  | cons seq' later ih =>
    obtain ⟨hframe, hid⟩ := phantom_isFrame sysid compid h seq seq'
    have hle := frameLength_le (phantom m message sysid compid seq seq')
    obtain ⟨hrun, hout⟩ := frame_read N _ hframe (by rw [hframe.length]; omega)
    obtain ⟨hcount, hrest⟩ := ih seq'
    rw [repeated_cons]
    dsimp only
    rw [Mealy.outputs_append, hrun, hout]
    constructor
    · rw [List.filter_append, List.filter_append, List.filter_replicate_of_neg (by decide),
        List.length_append, hcount]
      exact Nat.add_comm 1 _
    · intro r hr
      rw [List.append_assoc, List.mem_append, List.mem_append, List.mem_singleton] at hr
      obtain hr | hr | hr := hr
      · cases List.eq_of_mem_replicate hr
      · exact ⟨_, Option.some.inj hr, hid⟩
      · exact hrest r hr

end

/-- **Joining a stream without a gap**: if the payload of a message starts like a frame of the same length,
a receiver that waits for a start byte behind the header is never free of it: however often the message
is sent, all that is returned are views of another id, one for every frame but the last. -/
theorem joined_unheard (buffer : Region UInt8) (hsize : 280 ≤ buffer.size) (u : List UInt8)
    (hwaiting : (framerAfter buffer u).locals.site = .stx) (m : MessageT) (message : m.Message)
    (h : Entraps m message) (sysid compid seq : UInt8) (seqs : List UInt8) (out : Region UInt8)
    (hm : m ∈ Payloads.all) (hout : 280 ≤ out.size) :
    let line := streamBytes ((seq :: seqs).map fun seq => ⟨[], m, message, sysid, compid, seq, out⟩)
    ((resultsAfter buffer u (line.drop 10)).filter Option.isSome).length = seqs.length ∧
      ∀ r, some r ∈ resultsAfter buffer u (line.drop 10) →
        ∃ view, r = .ok view ∧ view.msgid ≠ m.messageId := by
  intro line
  have hline : line = repeated m message sysid compid (seq :: seqs) := by
    show List.flatMap Item.bytes (List.map _ _) = _
    rw [List.flatMap_map, repeated]
    apply List.flatMap_congr
    intro seq' _
    let it : Item := ⟨[], m, message, sysid, compid, seq', out⟩
    have hit : it.Valid := ⟨hm, List.forall_mem_nil _, hout⟩
    exact Item.frame_eq hit
  have hidle := (idle_iff_waiting buffer u).mpr hwaiting
  rw [resultsAfter_eq, hidle, hline]
  exact repeated_run sysid compid hsize h seq seqs

/-- A key that traps a receiver. -/
def trapKey : Payloads.authKey.Message :=
  (Vector.ofFn fun i : Fin 32 =>
    if i.val = 0 then 0xFD#8 else if i.val = 1 then 32#8 else if i.val < 31 then 0#8 else 1#8, ())

theorem trapKey_unheard :
    let line := streamBytes ([0, 1, 2].map fun seq =>
      ⟨[], Payloads.authKey, trapKey, 1, 1, seq, Region.ofList 0 (List.replicate 280 0)⟩)
    ((resultsAfter (Region.ofList 0 (List.replicate 280 0)) [] (line.drop 10)).filter
        Option.isSome).length = 2 ∧
      ∀ r, some r ∈ resultsAfter (Region.ofList 0 (List.replicate 280 0)) [] (line.drop 10) →
        ∃ view, r = .ok view ∧ view.msgid ≠ 7 := by
  have hsize : 280 ≤ (Region.ofList 0 (List.replicate 280 (0 : UInt8))).size := by
    rw [Region.ofList_size, List.length_replicate]
  exact joined_unheard (Region.ofList 0 (List.replicate 280 0)) hsize []
    ((idle_iff_waiting _ []).mp rfl) Payloads.authKey trapKey
    ⟨by decide, by decide, by decide, by decide, by decide⟩ 1 1 0 [1, 2] _ (by simp [Payloads.all]) hsize

end Avionicpp.Mavlink
