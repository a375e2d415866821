import Avionicpp.Mavlink.Deserializer
import Avionicpp.Mavlink.FramerRefinement
import Avionicpp.Mavlink.Payloads

/-! # Messages over a stream

A list of messages is serialized, sent with noise between the frames, framed and deserialized.
-/
namespace Avionicpp.Mavlink
open Foundations
set_option autoImplicit false

/-- A message to send, the noise sent in front of it, and the buffer it is serialized into. -/
structure Item where
  noise : List UInt8
  type : MessageT
  message : type.Message
  sysid : UInt8
  compid : UInt8
  seq : UInt8
  buffer : Region UInt8

namespace Item

structure Valid (it : Item) : Prop where
  type : it.type ∈ Payloads.all
  noise : Noise it.noise
  buffer : 280 ≤ it.buffer.size

def frame (it : Item) : List UInt8 :=
  match serialize it.type it.message it.sysid it.compid it.seq it.buffer with
  | (.ok n, buffer) => buffer.read 0 n
  | (.error _, _) => []

def bytes (it : Item) : List UInt8 := it.noise ++ it.frame

def view (it : Item) : FrameView where
  msgid := it.type.messageId
  sysid := it.sysid
  compid := it.compid
  seq := it.seq
  payload := payloadOf it.type it.message

end Item

def streamBytes (items : List Item) : List UInt8 := items.flatMap Item.bytes

def streamResults (items : List Item) : List (Option (Except ErrorType FrameView)) :=
  items.flatMap fun it => List.replicate (it.bytes.length - 1) none ++ [some (.ok it.view)]

/-! ## One frame -/

/-- Every payload type leaves LEN in a byte and its id in three. -/
theorem payloads_fit : ∀ m ∈ Payloads.all,
    fieldsSize m.fields ≤ 255 ∧ m.messageId.toNat < 2 ^ 24 := by
  decide

theorem id_bytes (id : UInt32) (h : id.toNat < 2 ^ 24) :
    UInt32.ofNat (ofBytes [(id &&& 0xFF).toUInt8, ((id >>> 8) &&& 0xFF).toUInt8,
      ((id >>> 16) &&& 0xFF).toUInt8]) = id := by
  have hlt : id.toNat < 256 ^ 3 := by omega
  rw [messageId_bytes, ofBytes_toBytes, Nat.mod_eq_of_lt hlt, UInt32.ofNat_toNat]

section
variable (m : MessageT) (message : m.Message) (sysid compid seq : UInt8)

theorem frameOf_isFrame (hfit : fieldsSize m.fields ≤ 255) :
    IsFrame (frameOf m message sysid compid seq) := by
  have hle := truncatedLength_le m message
  have hlen : lenByte (frameOf m message sysid compid seq) =
      UInt8.ofNat (truncatedLength m message) := rfl
  have hflags : (frameOf m message sysid compid seq).getD 2 0 = 0 := rfl
  have hunsigned : ¬ Signed (frameOf m message sysid compid seq) := by
    rintro ⟨-, h⟩
    rw [hflags] at h
    exact absurd h (by decide)
  have hheader : headerLength (frameOf m message sysid compid seq) = 10 := rfl
  refine ⟨Or.inl rfl, ?_⟩
  rw [frameOf_length, frameLength_eq, if_neg hunsigned, hheader, hlen, UInt8.toNat_ofNat']
  omega

theorem frameOf_view (hfit : fieldsSize m.fields ≤ 255) (hid : m.messageId.toNat < 2 ^ 24) :
    frameView (frameOf m message sysid compid seq) =
      ⟨m.messageId, sysid, compid, seq, payloadOf m message⟩ := by
  have hle := truncatedLength_le m message
  have hlen : (lenByte (frameOf m message sysid compid seq)).toNat = truncatedLength m message := by
    show (UInt8.ofNat (truncatedLength m message)).toNat = _
    rw [UInt8.toNat_ofNat']
    omega
  have hmagic : magic (frameOf m message sysid compid seq) = 0xFD := rfl
  have hpayload : ((frameOf m message sysid compid seq).drop 10).take (truncatedLength m message) =
      payloadOf m message := by
    show (payloadOf m message ++ _).take (truncatedLength m message) = _
    rw [List.take_append_of_le_length (by rw [payloadOf_length]),
      List.take_of_length_le (by rw [payloadOf_length])]
  rw [frameView, if_pos hmagic, hlen, hpayload]
  congr 1
  exact id_bytes m.messageId hid

end

/-! ## A stream of frames -/

theorem Item.frame_eq {it : Item} (h : it.Valid) :
    it.frame = frameOf it.type it.message it.sysid it.compid it.seq := by
  obtain ⟨hn, hbuffer⟩ :=
    serialize_frame it.type it.message it.sysid it.compid it.seq it.buffer h.buffer
  unfold Item.frame
  split
  · next n buffer heq =>
    rw [heq] at hn hbuffer
    have hlen : n = (frameOf it.type it.message it.sysid it.compid it.seq).length :=
      Except.ok.inj hn
    rw [hlen]
    exact hbuffer
  · next e buffer heq =>
    rw [heq] at hn
    cases hn

theorem item_run {N : ℕ} (hN : 280 ≤ N) {it : Item} (h : it.Valid) :
    (frameMachine N).run .idle it.bytes = .idle ∧
      (frameMachine N).outputs .idle it.bytes =
        List.replicate (it.bytes.length - 1) none ++ [some (.ok it.view)] := by
  obtain ⟨hfit, hid⟩ := payloads_fit it.type h.type
  have hframe := frameOf_isFrame it.type it.message it.sysid it.compid it.seq hfit
  have hle := frameLength_le (frameOf it.type it.message it.sysid it.compid it.seq)
  have hlong := eight_le_frameLength (frameOf it.type it.message it.sysid it.compid it.seq)
  have hlength := hframe.length
  obtain ⟨hnoise, hquiet⟩ := noise_silent N it.noise h.noise
  obtain ⟨hrun, hout⟩ := frame_read N _ hframe (by omega)
  rw [frameOf_view it.type it.message it.sysid it.compid it.seq hfit hid] at hout
  have hlen : it.bytes.length - 1 = it.noise.length +
      ((frameOf it.type it.message it.sysid it.compid it.seq).length - 1) := by
    rw [Item.bytes, it.frame_eq h, List.length_append]
    omega
  rw [hlen, Item.bytes, it.frame_eq h]
  constructor
  · rw [Mealy.run_append, hnoise, hrun]
  · rw [Mealy.outputs_append, hnoise, hquiet, hout, List.replicate_add, List.append_assoc]
    rfl

theorem stream_run {N : ℕ} (hN : 280 ≤ N) (items : List Item) (h : ∀ it ∈ items, it.Valid) :
    (frameMachine N).run .idle (streamBytes items) = .idle ∧
      (frameMachine N).outputs .idle (streamBytes items) = streamResults items := by
  induction items with
  | nil => exact ⟨rfl, rfl⟩
  | cons it items ih =>
    obtain ⟨hrun, hout⟩ := item_run hN (h it (List.mem_cons_self ..))
    obtain ⟨hrun', hout'⟩ := ih fun x hx => h x (List.mem_cons_of_mem it hx)
    rw [streamBytes, streamResults, List.flatMap_cons, List.flatMap_cons, Mealy.run_append,
      Mealy.outputs_append, hrun, hout]
    exact ⟨hrun', congrArg _ hout'⟩

/-! ## Back to the message -/

theorem deserialize_item (it : Item) (buffer : Region UInt8) (view : MessageView)
    (h : view.read buffer = it.view) : deserialize it.type buffer view = .ok it.message := by
  apply deserialize_payload
  · exact congrArg FrameView.msgid h
  · exact congrArg FrameView.payload h

/-- The receiver's side of one message: the view returned when its last byte `c` is pushed, and what
`deserialize` makes of it while the buffer is as the push left it. -/
def Received (buffer : Region UInt8) (u : List UInt8) (c : UInt8) (it : Item) : Prop :=
  ∃ view, yieldedAfter buffer u c = some (.ok view) ∧
    view.msgid = it.type.messageId ∧ view.sysid = it.sysid ∧ view.compid = it.compid ∧
    view.seq = it.seq ∧
    deserialize it.type (framerAfter buffer (u ++ [c])).locals.buffer view = .ok it.message

theorem item_received {buffer : Region UInt8} (hsize : 280 ≤ buffer.size) {u : List UInt8}
    (hidle : phaseAfter buffer.size u = .idle) {it : Item} (h : it.Valid) {w : List UInt8} {c : UInt8}
    (hlast : it.bytes = w ++ [c]) : Received buffer (u ++ w) c it := by
  obtain ⟨-, hout⟩ := item_run hsize h
  rw [hlast, Mealy.outputs_concat] at hout
  have hstep := (List.append_inj' hout rfl).2
  have hresult : resultAfter buffer (u ++ w) c = some (.ok it.view) := by
    have hrun : phaseAfter buffer.size (u ++ w) = (frameMachine buffer.size).run .idle w := by
      have hu : (frameMachine buffer.size).run .idle u = .idle := hidle
      rw [phaseAfter, Mealy.run_append, hu]
    rw [resultAfter_eq, hrun]
    exact (List.cons.inj hstep).1
  rw [resultAfter, readResult] at hresult
  obtain ⟨r, hr, hread⟩ := Option.map_eq_some_iff.mp hresult
  cases r with
  | error e => cases hread
  | ok view =>
    have hview : view.read (framerAfter buffer (u ++ w ++ [c])).locals.buffer = it.view :=
      Except.ok.inj hread
    exact ⟨view, hr, congrArg FrameView.msgid hview, congrArg FrameView.sysid hview,
      congrArg FrameView.compid hview, congrArg FrameView.seq hview,
      deserialize_item it _ view hview⟩

/-- **The round trip of a stream of messages.** -/
theorem messages_received (buffer : Region UInt8) (hsize : 280 ≤ buffer.size) (items : List Item)
    (hvalid : ∀ it ∈ items, it.Valid) (rest : List UInt8) (hrest : Noise rest) :
    resultsAfter buffer [] (streamBytes items ++ rest) =
        streamResults items ++ List.replicate rest.length none ∧
      ∀ sent it later, items = sent ++ it :: later →
        ∃ w c, it.bytes = w ++ [c] ∧ Received buffer (streamBytes sent ++ w) c it := by
  constructor
  · obtain ⟨hrun, hout⟩ := stream_run hsize items hvalid
    obtain ⟨-, hquiet⟩ := noise_silent buffer.size rest hrest
    rw [resultsAfter_eq, phaseAfter, Mealy.run_nil, Mealy.outputs_append, hrun, hout, hquiet]
  · intro sent it later hitems
    have hit := hvalid it (by rw [hitems]; simp)
    have hne : it.bytes ≠ [] := by
      rw [Item.bytes, it.frame_eq hit]
      simp [frameOf]
    refine ⟨_, _, (List.dropLast_append_getLast hne).symm, ?_⟩
    apply item_received hsize ?_ hit (List.dropLast_append_getLast hne).symm
    exact (stream_run hsize sent fun x hx => hvalid x (by rw [hitems]; simp [hx])).1

/-- A heartbeat behind a stray byte, and a request whose payload is cut to one byte. -/
def sampleItems : List Item :=
  [{ noise := [0x55]
     type := Payloads.heartbeat
     message := (0x12FD00FE#32, 2#8, 3#8, 0x51#8, 4#8, 3#8, ())
     sysid := 1
     compid := 200
     seq := 7
     buffer := Region.ofList 0 (List.replicate 280 0xFF) },
   { noise := []
     type := Payloads.paramRequestList
     message := (0#8, 0#8, ())
     sysid := 1
     compid := 200
     seq := 8
     buffer := Region.ofList 0 (List.replicate 300 0xFF) }]

theorem sampleItems_received :
    resultsAfter (Region.ofList 0 (List.replicate 280 0)) [] (streamBytes sampleItems ++ [0x0A]) =
        streamResults sampleItems ++ [none] ∧
      ∀ sent it later, sampleItems = sent ++ it :: later →
        ∃ w c, it.bytes = w ++ [c] ∧
          Received (Region.ofList 0 (List.replicate 280 0)) (streamBytes sent ++ w) c it := by
  apply messages_received (Region.ofList 0 (List.replicate 280 0))
  · rw [Region.ofList_size, List.length_replicate]
  · intro it hit
    simp only [sampleItems, List.mem_cons, List.not_mem_nil, or_false] at hit
    obtain rfl | rfl := hit
    · refine ⟨by simp [Payloads.all], by simp [Noise, IsStx], ?_⟩
      rw [Region.ofList_size, List.length_replicate]
    · refine ⟨by simp [Payloads.all], by simp [Noise], ?_⟩
      rw [Region.ofList_size, List.length_replicate]
      decide
  · simp [Noise, IsStx]

end Avionicpp.Mavlink
