import Avionicpp.Mavlink.RoundTrip
import Avionicpp.Uart.Link
import Mathlib.Data.List.Nodup

/-! # Messages over a line

Two programs exchange messages over a line, one at a POSIX port and one at a Windows port: each serializes
what it has to say, writes it, reads what comes, pushes it into a framer and deserializes every view that
is returned, for all the payload types there are.
-/
namespace Avionicpp.Mavlink
open Foundations Coroutine
set_option autoImplicit false

/-! ## A listener -/

/-- A message together with its type. -/
abbrev Content := Σ m : MessageT, m.Message

def Item.content (it : Item) : Content := ⟨it.type, it.message⟩

def decodedAs (contents : Region UInt8) (view : MessageView) (m : MessageT) : Option Content :=
  match deserialize m contents view with
  | .ok message => some ⟨m, message⟩
  | .error _ => none

/-- What `deserialize` makes of a view, type by type. -/
def decoded (contents : Region UInt8) (view : MessageView) : List Content :=
  Payloads.all.filterMap (decodedAs contents view)

def heardFrom (contents : Region UInt8) (value : Option ParseResult) : List Content :=
  match value with
  | some (.ok view) => decoded contents view
  | _ => []

structure Listener where
  framer : Framer
  heard : List Content

namespace Listener

def new (buffer : Region UInt8) : Listener := ⟨createFramer buffer, []⟩

/-- One byte: a view is deserialized before the next push. -/
def push (buffer : Region UInt8) (s : Listener) (c : UInt8) : Listener :=
  let r := pushByte (body buffer) s.framer c
  ⟨r.1, s.heard ++ heardFrom r.1.locals.buffer r.2.1⟩

end Listener

section
variable {buffer : Region UInt8} {u : List UInt8}

theorem push_after (heard : List Content) (c : UInt8) :
    Listener.push buffer ⟨framerAfter buffer u, heard⟩ c =
      ⟨framerAfter buffer (u ++ [c]),
        heard ++ heardFrom (framerAfter buffer (u ++ [c])).locals.buffer (yieldedAfter buffer u c)⟩ := by
  have hframer : (pushByte (body buffer) (framerAfter buffer u) c).1 = framerAfter buffer (u ++ [c]) := by
    rw [framerAfter, framerAfter, Mealy.run_concat]
    rfl
  simp only [Listener.push, hframer, yieldedAfter]

theorem resultsAfter_cons (c : UInt8) (v : List UInt8) :
    resultsAfter buffer u (c :: v) = resultAfter buffer u c :: resultsAfter buffer (u ++ [c]) v := by
  rw [resultsAfter, Mealy.outputs_cons, resultAfter, resultsAfter, framerAfter, framerAfter,
    Mealy.run_concat]
  rfl

/-- Nothing is heard while nothing is returned. -/
theorem listen_silent {v : List UInt8} (h : resultsAfter buffer u v = List.replicate v.length none)
    (heard : List Content) :
    v.foldl (Listener.push buffer) ⟨framerAfter buffer u, heard⟩ =
      ⟨framerAfter buffer (u ++ v), heard⟩ := by
  induction v generalizing u with
  | nil => rw [List.append_nil, List.foldl_nil]
  | cons c v ih =>
    rw [resultsAfter_cons, List.length_cons, List.replicate_succ] at h
    obtain ⟨hnone, hrest⟩ := List.cons.inj h
    have hyield : yieldedAfter buffer u c = none := by
      rw [resultAfter, readResult, Option.map_eq_none_iff] at hnone
      exact hnone
    have hstep : Listener.push buffer ⟨framerAfter buffer u, heard⟩ c =
        ⟨framerAfter buffer (u ++ [c]), heard⟩ := by
      rw [push_after, hyield]
      exact congrArg (Listener.mk _) (List.append_nil heard)
    rw [List.foldl_cons, hstep, ih hrest, List.append_assoc, List.singleton_append]

end

/-! ## Items -/

/-- The types are told apart by their ids. -/
theorem payload_ids : (Payloads.all.map MessageT.messageId).Nodup := by decide

/-- A view of an item is deserialized as the type it was sent as, and as no other. -/
theorem decoded_item {it : Item} (h : it.Valid) {contents : Region UInt8} {view : MessageView}
    (hid : view.msgid = it.type.messageId)
    (hread : deserialize it.type contents view = .ok it.message) :
    decoded contents view = [it.content] := by
  obtain ⟨before, later, hall⟩ := List.append_of_mem h.type
  have hids := payload_ids
  rw [hall, List.map_append, List.map_cons, List.nodup_append, List.nodup_cons] at hids
  obtain ⟨-, ⟨hlater, -⟩, hbefore⟩ := hids
  have hnone : ∀ ms : List MessageT, (∀ m ∈ ms, m.messageId ≠ it.type.messageId) →
      ms.filterMap (decodedAs contents view) = [] := by
    intro ms hms
    rw [List.filterMap_eq_nil_iff]
    intro m hm
    have hne : view.msgid ≠ m.messageId := by
      rw [hid]
      exact (hms m hm).symm
    rw [decodedAs, deserialize_other m contents view hne]
  have hsome : decodedAs contents view it.type = some it.content := by
    rw [decodedAs, hread]
    rfl
  rw [decoded, hall, List.filterMap_append, List.filterMap_cons_some hsome, hnone before, hnone later]
  · rfl
  · intro m hm hsame
    exact hlater (List.mem_map.mpr ⟨m, hm, hsame⟩)
  · intro m hm
    exact hbefore _ (List.mem_map_of_mem hm) _ List.mem_cons_self

/-- **One item**: its last byte makes the listener hear its message, and nothing else does. -/
theorem listen_item {buffer : Region UInt8} (hsize : 280 ≤ buffer.size) {u : List UInt8}
    (hidle : phaseAfter buffer.size u = .idle) {it : Item} (h : it.Valid) (heard : List Content) :
    it.bytes.foldl (Listener.push buffer) ⟨framerAfter buffer u, heard⟩ =
      ⟨framerAfter buffer (u ++ it.bytes), heard ++ [it.content]⟩ := by
  obtain ⟨-, hout⟩ := item_run hsize h
  have hne : it.bytes ≠ [] := by
    rintro hnil
    rw [hnil] at hout
    simp at hout
  obtain ⟨w, c, hlast⟩ : ∃ w c, it.bytes = w ++ [c] :=
    ⟨_, _, (List.dropLast_append_getLast hne).symm⟩
  obtain ⟨view, hyield, hid, -, -, -, hread⟩ := item_received hsize hidle h hlast
  have hquiet : resultsAfter buffer u w = List.replicate w.length none := by
    rw [resultsAfter_eq, hidle]
    apply Mealy.silent_front hout
    · exact ⟨[c], hlast.symm⟩
    · rw [hlast, List.length_append, List.length_singleton]
      omega
  rw [hlast, List.foldl_append, listen_silent hquiet, List.foldl_cons, List.foldl_nil, push_after, hyield,
    ← List.append_assoc]
  exact congrArg (fun heard' => Listener.mk _ (heard ++ heard')) (decoded_item h hid hread)

theorem listen_stream {buffer : Region UInt8} (hsize : 280 ≤ buffer.size) {u : List UInt8}
    (hidle : phaseAfter buffer.size u = .idle) (items : List Item) (h : ∀ it ∈ items, it.Valid)
    (heard : List Content) :
    (streamBytes items).foldl (Listener.push buffer) ⟨framerAfter buffer u, heard⟩ =
      ⟨framerAfter buffer (u ++ streamBytes items), heard ++ items.map Item.content⟩ := by
  induction items generalizing u heard with
  | nil =>
    rw [List.map_nil, List.append_nil]
    exact congrArg (fun v => Listener.mk (framerAfter buffer v) heard) (List.append_nil u).symm
  | cons it items ih =>
    have hit := h it (List.mem_cons_self ..)
    have hbehind : phaseAfter buffer.size (u ++ it.bytes) = .idle := by
      have hu : (frameMachine buffer.size).run .idle u = .idle := hidle
      rw [phaseAfter, Mealy.run_append, hu]
      exact (item_run hsize hit).1
    have hrest := ih hbehind (fun x hx => h x (List.mem_cons_of_mem it hx)) (heard ++ [it.content])
    have hsplit : streamBytes (it :: items) = it.bytes ++ streamBytes items := rfl
    rw [hsplit, List.foldl_append, listen_item hsize hidle hit, hrest, List.map_cons,
      List.append_assoc, List.append_assoc]
    rfl

/-! ## The line -/

/-- What a listener has heard of the messages sent to it, with these bytes on their way: those whose last
byte it has been given, and with nothing on its way all of them. -/
structure HearsSoFar (sent : List Item) (pending : List UInt8) (heard : List Content) : Prop where
  given : ∃ made n, n + pending.length = (streamBytes sent).length ∧
    Completed Item.bytes sent n made ∧ heard = made.map Item.content
  whole : pending = [] → heard = sent.map Item.content

theorem consumed_hears {buffer : Region UInt8} (hsize : 280 ≤ buffer.size) {sent : List Item}
    (hvalid : ∀ it ∈ sent, it.Valid) {s : Listener} {pending : List UInt8}
    (h : Consumed (Listener.push buffer) (.new buffer) (streamBytes sent) s pending) :
    HearsSoFar sent pending s.heard := by
  obtain ⟨front, htext, rfl⟩ := h
  have hanswers : ∀ it ∈ sent, (frameMachine buffer.size).AnswersAtEnd .idle it.bytes := by
    intro it hit
    obtain ⟨hrun, hout⟩ := item_run hsize (hvalid it hit)
    exact ⟨hrun, _, hout⟩
  have hprefix : front <+: sent.flatMap Item.bytes := ⟨pending, htext⟩
  obtain ⟨made, part, hmade, hfront, hidle, hpart⟩ := Mealy.AnswersAtEnd.front hanswers hprefix
  have hstream : front = streamBytes made ++ part := hfront
  have hvalid' : ∀ it ∈ made, it.Valid := fun it hit => hvalid it (hmade.front.subset hit)
  have hrun := listen_stream hsize (u := []) rfl made hvalid' []
  have hphase : phaseAfter buffer.size (streamBytes made) = .idle := hidle
  have hquiet : resultsAfter buffer (streamBytes made) part = List.replicate part.length none := by
    rw [resultsAfter_eq, hphase, hpart]
  have hheard : (front.foldl (Listener.push buffer) (.new buffer)).heard = made.map Item.content := by
    have hnew : Listener.new buffer = ⟨framerAfter buffer [], []⟩ := rfl
    rw [hstream, List.foldl_append, hnew, hrun, List.nil_append, List.nil_append, listen_silent hquiet]
  have hlength : front.length + pending.length = (streamBytes sent).length := by
    rw [← htext, List.length_append]
  rw [hheard]
  refine ⟨⟨made, front.length, hlength, hmade, rfl⟩, ?_⟩
  rintro rfl
  have hwhole : front.length = (sent.flatMap Item.bytes).length := by simpa [streamBytes] using hlength
  rw [hwhole] at hmade
  rw [hmade.all]

section
open Uart
variable {δ δ' ρ : Type}

def posixListener (strerror : ℤ → String) (D : Driver δ) (buffer : Region UInt8) :
    Station World (Call × Answers) ℤ δ Listener :=
  ⟨posixPort strerror, D, Listener.push buffer⟩

def win32Listener (win32error2string : Win32.DWORD → String) (D : Driver δ) (buffer : Region UInt8) :
    Station Win32.World (Win32.Call × Win32.Answers) Win32.DWORD δ Listener :=
  ⟨Win32.win32Port win32error2string, D, Listener.push buffer⟩

/-- **Messages over a line**, with any drivers and any line that lose nothing: whatever the order in which
the two programs write and read and the bytes are carried, and however few at a time, each program has
heard exactly the messages of the other one whose last byte it has read, once, in order and as they were
before they were serialized. -/
theorem messages_exchanged (strerror : ℤ → String) (win32error2string : Win32.DWORD → String)
    {D : Driver δ} {D' : Driver δ'} {W : Wire ρ} (hD : D.Lossless) (hD' : D'.Lossless)
    (hW : W.Lossless) (buffer buffer' : Region UInt8) (hsize : 280 ≤ buffer.size)
    (hsize' : 280 ≤ buffer'.size) (p : Port World δ) (q : Port Win32.World δ') (toRight toLeft : ρ)
    (hclear : Clear (posixListener strerror D buffer) (win32Listener win32error2string D' buffer') W p q
      toRight toLeft)
    (sent sent' : List Item) (hvalid : ∀ it ∈ sent, it.Valid) (hvalid' : ∀ it ∈ sent', it.Valid)
    (moves : List (Move ℤ ⊕ Move Win32.DWORD)) :
    let S := posixListener strerror D buffer
    let T := win32Listener win32error2string D' buffer'
    let l := (linkMachine S T W).run (linkStart p q toRight toLeft (streamBytes sent)
      (streamBytes sent') (.new buffer) (.new buffer')) moves
    HearsSoFar sent (l.pendingRight S T W) l.right.program.heard ∧
      HearsSoFar sent' (l.pendingLeft S T W) l.left.program.heard := by
  intro S T l
  obtain ⟨hright, hleft⟩ := link_carries (S := S) (T := T) hD hD' hW
    (linkStart p q toRight toLeft (streamBytes sent) (streamBytes sent') (.new buffer) (.new buffer'))
    moves
  obtain ⟨htext, htext'⟩ := link_start hclear (streamBytes sent) (streamBytes sent')
    (Listener.new buffer) (Listener.new buffer')
  rw [htext] at hright
  rw [htext'] at hleft
  exact ⟨consumed_hears hsize' hvalid hright, consumed_hears hsize hvalid' hleft⟩

theorem sampleItems_exchanged :
    let buffer := Region.ofList 0 (List.replicate 280 0)
    let l := (linkMachine (posixListener (fun _ => "") queueDriver buffer)
      (win32Listener (fun _ => "") queueDriver buffer) queueWire).run
        (linkStart openedPort openedWin32Port [] [] (streamBytes sampleItems) (streamBytes [])
          (.new buffer) (.new buffer)) sampleMoves
    l.right.program.heard = sampleItems.map Item.content ∧ l.left.program.heard = [] := by
  intro buffer l
  have hsize : 280 ≤ buffer.size := by
    rw [Region.ofList_size, List.length_replicate]
  have hvalid : ∀ it ∈ sampleItems, it.Valid := by
    intro it hit
    simp only [sampleItems, List.mem_cons, List.not_mem_nil, or_false] at hit
    obtain rfl | rfl := hit
    · refine ⟨by simp [Payloads.all], by simp [Noise, IsStx], ?_⟩
      rw [Region.ofList_size, List.length_replicate]
    · refine ⟨by simp [Payloads.all], by simp [Noise], ?_⟩
      rw [Region.ofList_size, List.length_replicate]
      decide
  obtain ⟨hright, hleft⟩ := messages_exchanged (fun _ => "") (fun _ => "") queueDriver_lossless
    queueDriver_lossless queueWire_lossless buffer buffer hsize hsize openedPort openedWin32Port [] []
    ⟨⟨rfl, rfl⟩, ⟨rfl, rfl⟩, rfl, rfl⟩ sampleItems [] hvalid (by simp) sampleMoves
  exact ⟨hright.whole (by decide +kernel), hleft.whole (by decide +kernel)⟩

end

end Avionicpp.Mavlink
