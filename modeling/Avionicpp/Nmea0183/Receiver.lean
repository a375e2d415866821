import Avionicpp.Nmea0183.Dispatch
import Avionicpp.Nmea0183.RoundTrip
import Mathlib.Data.List.Nodup

/-! # A receiver

The loop of a client: every byte is pushed, and a view that comes back is dispatched while the buffer is
as that push left it (the loop of `benchmarks/nmea0183/main.cpp`, with `Dispatcher::dispatch` where it
calls `bind`). The visitor writes down for which handler it is called and what the members hold.
-/
namespace Avionicpp.Nmea0183
open Foundations Coroutine
set_option autoImplicit false

/-- One call of the visitor. -/
structure Entry where
  id : List UInt8
  members : List (List UInt8)
  deriving DecidableEq, Repr

def record (contents : Region UInt8) : Visitor (List Entry) := fun h payload log =>
  match payload with
  | .ok lazy => log ++ [⟨h.id, List.ofFn fun i => (lazy i).text contents⟩]
  | .error _ => log

section
variable (buffer : Region UInt8) (handlers : List MessageHandler)

/-- What the loop does with the value of one push. -/
def handle (f : Framer) (value : Option ParseResult) (log : List Entry) : List Entry :=
  match value with
  | some (.ok view) => (dispatch f.locals.buffer view (record f.locals.buffer) handlers log).2
  | _ => log

def receive (f : Framer) (log : List Entry) : List UInt8 → Framer × List Entry
  | [] => (f, log)
  | c :: u =>
    let r := pushByte (body buffer) f c
    receive r.1 (handle handlers r.1 r.2.1 log) u

/-! ## The loop and the framer -/

theorem receive_append (f : Framer) (log : List Entry) (u v : List UInt8) :
    receive buffer handlers f log (u ++ v) =
      receive buffer handlers (receive buffer handlers f log u).1
        (receive buffer handlers f log u).2 v := by
  induction u generalizing f log with
  | nil => rfl
  | cons c u ih => exact ih _ _

theorem framerAfter_push (u : List UInt8) (c : UInt8) :
    (pushByte (body buffer) (framerAfter buffer u) c).1 = framerAfter buffer (u ++ [c]) := by
  rw [framerAfter, framerAfter, Mealy.run_concat]
  rfl

theorem receive_framer (u v : List UInt8) (log : List Entry) :
    (receive buffer handlers (framerAfter buffer u) log v).1 = framerAfter buffer (u ++ v) := by
  induction v generalizing u log with
  | nil => rw [List.append_nil]; rfl
  | cons c v ih =>
    have hsplit : u ++ c :: v = (u ++ [c]) ++ v := by simp
    rw [receive, hsplit, framerAfter_push]
    exact ih _ _

theorem receive_byte (u : List UInt8) (log : List Entry) (c : UInt8) :
    (receive buffer handlers (framerAfter buffer u) log [c]).2 =
      handle handlers (framerAfter buffer (u ++ [c])) (yieldedAfter buffer u c) log := by
  rw [← framerAfter_push]
  rfl

/-- Nothing is written down while nothing is returned. -/
theorem receive_silent (u v : List UInt8) (log : List Entry)
    (h : resultsAfter buffer u v = List.replicate v.length none) :
    (receive buffer handlers (framerAfter buffer u) log v).2 = log := by
  induction v generalizing u with
  | nil => rfl
  | cons c v ih =>
    have hcons : resultsAfter buffer u (c :: v) =
        resultAfter buffer u c :: resultsAfter buffer (u ++ [c]) v := by
      rw [resultsAfter, Mealy.outputs_cons, resultsAfter, framerAfter, framerAfter, Mealy.run_concat]
      rfl
    rw [hcons, List.length_cons, List.replicate_succ] at h
    obtain ⟨hnone, hrest⟩ := List.cons.inj h
    have hyield : yieldedAfter buffer u c = none := by
      rw [resultAfter_read, readResult, Option.map_eq_none_iff] at hnone
      exact hnone
    have hsplit : c :: v = [c] ++ v := rfl
    have hbyte := receive_byte buffer handlers u log c
    rw [hyield] at hbyte
    rw [hsplit, receive_append, receive_framer, hbyte]
    exact ih _ hrest

end

/-! ## Sentences -/

/-- What the visitor writes down for a view: the first handler for its type, with the fields in the
order of the members. -/
def entryOf (handlers : List MessageHandler) (view : TextView) : Option Entry :=
  (handlers.find? fun h => view.messageType = h.id).map fun h =>
    ⟨h.id, List.ofFn fun i : Fin h.payloadType.fields.length => view.fields.getD i []⟩

theorem handle_view {handlers : List MessageHandler} {f : Framer} {view : MessageView}
    (hcount : view.fieldCount = (view.text f.locals.buffer).fields.length) (log : List Entry) :
    handle handlers f (some (.ok view)) log =
      log ++ (entryOf handlers (view.text f.locals.buffer)).toList := by
  have htype : (view.text f.locals.buffer).messageType = view.messageType.text f.locals.buffer := rfl
  rw [handle, dispatch_eq_find, entryOf, htype]
  cases handlers.find? fun h => view.messageType.text f.locals.buffer = h.id with
  | none => exact (List.append_nil log).symm
  | some h =>
    have hfields : (view.text f.locals.buffer).fields = (view.text f.locals.buffer).fields := rfl
    obtain ⟨lazy, hbind, htext⟩ := bind_text h.payloadType hfields hcount
    dsimp only
    rw [hbind, record]
    simp only [htext, Option.map_some, Option.toList_some]

theorem viewOf_count (ts : List (List UInt8)) : (viewOf ts).fieldCount = (viewOf ts).fields.length := by
  cases ts with
  | nil => rfl
  | cons t ts => simp only [viewOf, List.length_take, Nat.min_comm]

theorem receive_sentence {buffer : Region UInt8} (handlers : List MessageHandler) {u : List UInt8}
    (hphase : phaseAfter buffer.size u = .searching) {s : Sentence} (hs : s.Valid buffer.size)
    (log : List Entry) : (receive buffer handlers (framerAfter buffer u) log s.bytes).2 =
      log ++ (entryOf handlers s.view).toList := by
  obtain ⟨-, hout⟩ := front_run buffer.size s hs.delimiter hs.body hs.fits
  obtain ⟨view, hyield, htext⟩ := sentence_yielded hphase hs
  have hquiet : resultsAfter buffer u s.front = List.replicate s.front.length none := by
    rw [resultsAfter_eq, hphase, hout]
  have hcount : view.fieldCount =
      (view.text (framerAfter buffer (u ++ s.bytes)).locals.buffer).fields.length := by
    have hfields : (view.text (framerAfter buffer (u ++ s.bytes)).locals.buffer).fieldCount =
        s.view.fields.length := by
      rw [htext]
      exact viewOf_count _
    rw [htext]
    exact hfields
  rw [Sentence.bytes, receive_append, receive_framer, receive_silent buffer handlers u _ log hquiet,
    receive_byte, hyield, List.append_assoc]
  show handle handlers (framerAfter buffer (u ++ s.bytes)) (some (.ok view)) log = _
  rw [handle_view hcount, htext]

theorem receive_stream {buffer : Region UInt8} (handlers : List MessageHandler) {u : List UInt8}
    (hphase : phaseAfter buffer.size u = .searching) {items : List (List UInt8 × Sentence)}
    {tail : List UInt8} (hnoise : ∀ item ∈ items, Noise item.1)
    (hvalid : ∀ item ∈ items, item.2.Valid buffer.size) (htail : Noise tail) (log : List Entry) :
    (receive buffer handlers (framerAfter buffer u) log (streamBytes items tail)).2 =
      log ++ items.filterMap fun item => entryOf handlers item.2.view := by
  induction items generalizing u log with
  | nil =>
    rw [List.filterMap_nil, List.append_nil]
    apply receive_silent
    rw [resultsAfter_eq, hphase]
    exact (noise_run buffer.size tail htail).2
  | cons item items ih =>
    have hitem := hvalid item (List.mem_cons_self ..)
    obtain ⟨hrun, hout⟩ := noise_run buffer.size item.1 (hnoise item (List.mem_cons_self ..))
    obtain ⟨hrun', -⟩ := sentence_delivered buffer.size item.2 hitem
    have hquiet : resultsAfter buffer u item.1 = List.replicate item.1.length none := by
      rw [resultsAfter_eq, hphase, hout]
    have hbefore : phaseAfter buffer.size (u ++ item.1) = .searching := by
      rw [phaseAfter] at hphase ⊢
      rw [Mealy.run_append, hphase, hrun]
    have hbehind : phaseAfter buffer.size (u ++ item.1 ++ item.2.bytes) = .searching := by
      rw [phaseAfter] at hbefore ⊢
      rw [Mealy.run_append, hbefore, hrun']
    have hsplit : streamBytes (item :: items) tail =
        item.1 ++ (item.2.bytes ++ streamBytes items tail) := by
      simp [streamBytes]
    rw [hsplit, receive_append, receive_framer, receive_silent buffer handlers u _ log hquiet,
      receive_append, receive_framer, receive_sentence handlers hbefore hitem,
      ih hbehind (fun i hi => hnoise i (List.mem_cons_of_mem item hi))
        fun i hi => hvalid i (List.mem_cons_of_mem item hi),
      List.append_assoc, List.filterMap_cons]
    cases entryOf handlers item.2.view <;> rfl

/-- **A stream of sentences**, with noise before, between and after them: the visitor is called once
for every sentence that a handler takes, in order, and for nothing else. -/
theorem stream_dispatched (buffer : Region UInt8) (handlers : List MessageHandler) (u : List UInt8)
    (hsearch : (framerAfter buffer u).locals.site = .search)
    (items : List (List UInt8 × Sentence)) (tail : List UInt8) (hnoise : ∀ item ∈ items, Noise item.1)
    (hvalid : ∀ item ∈ items, item.2.Valid buffer.size) (htail : Noise tail) (log : List Entry) :
    (receive buffer handlers (framerAfter buffer u) log (streamBytes items tail)).2 =
      log ++ items.filterMap fun item => entryOf handlers item.2.view :=
  receive_stream handlers (phaseAfter_of_search buffer u hsearch) hnoise hvalid htail log

/-- Two sentences, of which one is taken. -/
theorem sampleItems_dispatched :
    (receive (Region.ofList 0 (List.replicate 8 0)) [⟨asciiText "ROT", Payloads.rot⟩]
        (framerAfter (Region.ofList 0 (List.replicate 8 0)) []) []
        (streamBytes sampleItems (asciiText "OT"))).2 =
      [] ++ sampleItems.filterMap fun item =>
        entryOf [⟨asciiText "ROT", Payloads.rot⟩] item.2.view :=
  stream_dispatched _ [⟨asciiText "ROT", Payloads.rot⟩] []
    (congrArg State.site (create_locals _ (body_alternates _))) sampleItems (asciiText "OT") (by decide)
    (by
      intro item hitem
      rcases List.mem_pair.mp hitem with rfl | rfl <;>
        exact ⟨by decide, by decide, by decide, by decide⟩)
    (by decide) []

example : (sampleItems.filterMap fun item => entryOf [⟨asciiText "ROT", Payloads.rot⟩] item.2.view) =
    [⟨asciiText "ROT", [asciiText "1", []]⟩] := by
  decide

/-! ## Messages -/

/-- A message to send, the noise sent in front of it, and the buffer it is serialized into. -/
structure Outgoing where
  noise : List UInt8
  talkerId : List UInt8
  payload : Payload
  message : payload.Message
  out : Region UInt8

namespace Outgoing

def text (conv : FloatConv) (o : Outgoing) : List UInt8 :=
  match serialize conv o.talkerId o.payload o.message o.out with
  | some (n, out) => out.read 0 n
  | none => []

/-- What the visitor writes down for the message's sentence. -/
def entry (conv : FloatConv) (handlers : List MessageHandler) (o : Outgoing) : Option Entry :=
  entryOf handlers (sentenceOf conv o.talkerId o.payload o.message).view

structure Valid (conv : FloatConv) (N : ℕ) (o : Outgoing) : Prop where
  noise : Noise o.noise
  talkerId : IsTalkerId o.talkerId
  payload : o.payload ∈ Payloads.all
  message : Sendable o.message
  out : (sentenceOf conv o.talkerId o.payload o.message).bytes.length ≤ o.out.size
  fits : (bodyOf conv o.talkerId o.payload o.message).length ≤ N

end Outgoing

/-- What a client that wants the given payloads is to hear of a message: the id, and for every member
a text that gives its value back. -/
def Heard (conv : FloatConv) (o : Outgoing) (e : Entry) : Prop :=
  e.id = o.payload.messageId ∧ e.members.length = o.payload.fields.length ∧
    ∀ i, Restored conv (o.message i) (e.members.getD i [])

theorem Outgoing.Valid.text_eq {conv : FloatConv} (hconv : conv.Conforming) {N : ℕ} {o : Outgoing}
    (h : o.Valid conv N) :
    o.text conv = (sentenceOf conv o.talkerId o.payload o.message).bytes := by
  obtain ⟨-, -, hmember, -⟩ := payloads_fit o.payload h.payload
  obtain ⟨out, hserialize, hread⟩ := serialize_sentence conv o.talkerId o.payload o.message
    (List.ne_nil_of_length_pos hmember) (bodyOf_ascii hconv h.payload h.talkerId h.message) o.out h.out
  rw [Outgoing.text, hserialize]
  exact hread

/-- Payload types are told apart by their ids. -/
theorem payloads_distinct {p q : Payload} (hp : p ∈ Payloads.all) (hq : q ∈ Payloads.all)
    (h : p.messageId = q.messageId) : p = q := by
  have hids : (Payloads.all.map Payload.messageId).Nodup := by decide
  exact List.inj_on_of_nodup_map hids hp hq h

def handlersFor (payloads : List Payload) : List MessageHandler :=
  payloads.map fun p => ⟨p.messageId, p⟩

section
variable {conv : FloatConv} (hconv : conv.Conforming) {N : ℕ} {payloads : List Payload} {o : Outgoing}
  (h : o.Valid conv N)
include hconv h

theorem entryOf_wanted (hpayloads : ∀ p ∈ payloads, p ∈ Payloads.all)
    (hwanted : o.payload.messageId ∈ payloads.map Payload.messageId) :
    ∃ e, o.entry conv (handlersFor payloads) = some e ∧ Heard conv o e := by
  have hview := sentenceOf_view hconv h.payload h.talkerId h.message
  obtain ⟨q, hq, hid⟩ := List.mem_map.mp hwanted
  obtain ⟨x, hfind⟩ : ∃ x, (handlersFor payloads).find? (fun h => o.payload.messageId = h.id) =
      some x := by
    rw [← Option.isSome_iff_exists, List.find?_isSome]
    exact ⟨⟨q.messageId, q⟩, List.mem_map.mpr ⟨q, hq, rfl⟩, by simp [hid]⟩
  obtain ⟨r, hr, rfl⟩ := List.mem_map.mp (List.mem_of_find?_eq_some hfind)
  have hsame : o.payload.messageId = r.messageId := by simpa using List.find?_some hfind
  obtain rfl := payloads_distinct (hpayloads r hr) h.payload hsame.symm
  refine ⟨_, by rw [Outgoing.entry, entryOf, hview, hfind]; rfl, rfl, by rw [List.length_ofFn], fun i => ?_⟩
  have hmember : (List.ofFn fun i : Fin o.payload.fields.length =>
      (fieldTexts conv o.payload o.message).getD i []).getD i [] =
        formatField conv (o.payload.kind i) (o.message i) := by
    rw [List.getD_eq_getElem?_getD, List.getElem?_ofFn, dif_pos i.isLt, Option.getD_some,
      List.getD_eq_getElem?_getD, fieldTexts, List.getElem?_ofFn, dif_pos i.isLt, Option.getD_some]
  show Restored conv (o.message i) ((List.ofFn fun i : Fin o.payload.fields.length =>
    (fieldTexts conv o.payload o.message).getD i []).getD i [])
  rw [hmember]
  exact formatField_restored hconv (h.message i)

theorem entryOf_unwanted (hunwanted : o.payload.messageId ∉ payloads.map Payload.messageId) :
    o.entry conv (handlersFor payloads) = none := by
  rw [Outgoing.entry, entryOf, sentenceOf_view hconv h.payload h.talkerId h.message, Option.map_eq_none_iff,
    List.find?_eq_none]
  intro x hx
  obtain ⟨q, hq, rfl⟩ := List.mem_map.mp hx
  simpa using fun hid => hunwanted (List.mem_map.mpr ⟨q, hq, Eq.symm hid⟩)

end

section
variable {conv : FloatConv} (hconv : conv.Conforming) {N : ℕ} {sent : List Outgoing}
  (hvalid : ∀ o ∈ sent, o.Valid conv N)
include hconv hvalid

/-- The text of a series of messages is a stream of sentences. -/
theorem outgoing_stream (tail : List UInt8) : (sent.flatMap fun o => o.noise ++ o.text conv) ++ tail =
    streamBytes (sent.map fun o => (o.noise, sentenceOf conv o.talkerId o.payload o.message)) tail := by
  rw [streamBytes, List.flatMap_map]
  congr 1
  apply List.flatMap_congr
  intro o ho
  rw [(hvalid o ho).text_eq hconv]

theorem entries_heard {payloads : List Payload} (hpayloads : ∀ p ∈ payloads, p ∈ Payloads.all) :
    List.Forall₂ (Heard conv)
      (sent.filter fun o => o.payload.messageId ∈ payloads.map Payload.messageId)
      (sent.filterMap (Outgoing.entry conv (handlersFor payloads))) := by
  induction sent with
  | nil => exact List.Forall₂.nil
  | cons o sent ih =>
    have ho := hvalid o (List.mem_cons_self ..)
    have hrest := ih fun x hx => hvalid x (List.mem_cons_of_mem o hx)
    by_cases hwanted : o.payload.messageId ∈ payloads.map Payload.messageId
    · obtain ⟨e, hentry, hheard⟩ := entryOf_wanted hconv ho hpayloads hwanted
      rw [List.filter_cons_of_pos (by simpa using hwanted), List.filterMap_cons_some hentry]
      exact List.Forall₂.cons hheard hrest
    · have hentry := entryOf_unwanted hconv ho hwanted
      rw [List.filter_cons_of_neg (by simpa using hwanted), List.filterMap_cons_none hentry]
      exact hrest

end

theorem receive_messages {conv : FloatConv} (hconv : conv.Conforming) {buffer : Region UInt8}
    (handlers : List MessageHandler) {u : List UInt8} (hphase : phaseAfter buffer.size u = .searching)
    {sent : List Outgoing} (hvalid : ∀ o ∈ sent, o.Valid conv buffer.size) {tail : List UInt8}
    (htail : Noise tail) (log : List Entry) :
    (receive buffer handlers (framerAfter buffer u) log
        ((sent.flatMap fun o => o.noise ++ o.text conv) ++ tail)).2 =
      log ++ sent.filterMap (Outgoing.entry conv handlers) := by
  rw [outgoing_stream hconv hvalid, receive_stream handlers hphase _ _ htail log, List.filterMap_map]
  · rfl
  · intro item hitem
    obtain ⟨o, ho, rfl⟩ := List.mem_map.mp hitem
    exact (hvalid o ho).noise
  · intro item hitem
    obtain ⟨o, ho, rfl⟩ := List.mem_map.mp hitem
    have h := hvalid o ho
    exact sentenceOf_valid hconv h.payload h.talkerId h.message h.fits

/-- A date behind a stray byte, for a client of dates. -/
def sampleOutgoing : List Outgoing :=
  [⟨asciiText "?", asciiText "GP", Payloads.zda, sampleDate, Region.ofList 0 (List.replicate 40 0)⟩]

end Avionicpp.Nmea0183
