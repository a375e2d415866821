import Avionicpp.Nmea0183.Receiver
import Avionicpp.Uart.Link

/-! # Sentences over a line

A device at a Windows port sends messages to a program at a POSIX port, which runs the receive loop on what
it reads. What goes the other way, and what becomes of it, is left open.
-/
namespace Avionicpp.Nmea0183
open Foundations Coroutine
set_option autoImplicit false

def Outgoing.bytes (conv : FloatConv) (o : Outgoing) : List UInt8 := o.noise ++ o.text conv

/-- The loop of a client, one byte at a time, with its framer and what its visitor has written down. -/
def listen (buffer : Region UInt8) (handlers : List MessageHandler) (s : Framer × List Entry)
    (c : UInt8) : Framer × List Entry :=
  receive buffer handlers s.1 s.2 [c]

theorem foldl_listen (buffer : Region UInt8) (handlers : List MessageHandler) (s : Framer × List Entry)
    (u : List UInt8) : u.foldl (listen buffer handlers) s = receive buffer handlers s.1 s.2 u := by
  induction u generalizing s with
  | nil => rfl
  | cons c u ih =>
    have hsplit : c :: u = [c] ++ u := rfl
    rw [List.foldl_cons, ih, hsplit, receive_append]
    rfl

/-- The sentence of a message, behind its noise, is answered on its last byte only. -/
theorem outgoing_run {conv : FloatConv} (hconv : conv.Conforming) {N : ℕ} {o : Outgoing}
    (h : o.Valid conv N) :
    (sentenceMachine N).run .searching (o.bytes conv) = .searching ∧
      (sentenceMachine N).outputs .searching (o.bytes conv) =
        List.replicate ((o.bytes conv).length - 1) none ++
          [some (.ok (sentenceOf conv o.talkerId o.payload o.message).view)] := by
  have hs := sentenceOf_valid hconv h.payload h.talkerId h.message h.fits
  obtain ⟨hnoise, hquiet⟩ := noise_run N o.noise h.noise
  obtain ⟨hrun, hout⟩ := sentence_delivered N _ hs
  have hlen : (o.bytes conv).length - 1 = o.noise.length +
      (sentenceOf conv o.talkerId o.payload o.message).front.length := by
    rw [Outgoing.bytes, h.text_eq hconv, Sentence.bytes, List.length_append, List.length_append,
      List.length_singleton]
    omega
  rw [hlen, Outgoing.bytes, h.text_eq hconv]
  constructor
  · rw [Mealy.run_append, hnoise, hrun]
  · rw [Mealy.outputs_append, hnoise, hquiet, hout, List.replicate_add, List.append_assoc]

/-! ## The line -/

/-- What a client has heard of the messages sent to it, with these bytes on their way: of those whose last
byte it has been given, the ones of the types it wants; and with nothing on its way, of all. -/
structure HearsSoFar (conv : FloatConv) (payloads : List Payload) (sent : List Outgoing)
    (pending : List UInt8) (log : List Entry) : Prop where
  given : ∃ made n, n + pending.length = (sent.flatMap (Outgoing.bytes conv)).length ∧
    Completed (Outgoing.bytes conv) sent n made ∧
    List.Forall₂ (Heard conv)
      (made.filter fun o => o.payload.messageId ∈ payloads.map Payload.messageId) log
  whole : pending = [] → List.Forall₂ (Heard conv)
    (sent.filter fun o => o.payload.messageId ∈ payloads.map Payload.messageId) log

theorem consumed_hears {conv : FloatConv} (hconv : conv.Conforming) {buffer : Region UInt8}
    {payloads : List Payload} (hpayloads : ∀ p ∈ payloads, p ∈ Payloads.all) {sent : List Outgoing}
    (hvalid : ∀ o ∈ sent, o.Valid conv buffer.size) {s : Framer × List Entry} {pending : List UInt8}
    (h : Consumed (listen buffer (handlersFor payloads)) (createFramer buffer, [])
      (sent.flatMap (Outgoing.bytes conv)) s pending) :
    HearsSoFar conv payloads sent pending s.2 := by
  obtain ⟨front, htext, rfl⟩ := h
  have hanswers : ∀ o ∈ sent, (sentenceMachine buffer.size).AnswersAtEnd .searching (o.bytes conv) := by
    intro o ho
    obtain ⟨hrun, hout⟩ := outgoing_run hconv (hvalid o ho)
    exact ⟨hrun, _, hout⟩
  obtain ⟨made, part, hmade, hfront, hsearching, hpart⟩ :=
    Mealy.AnswersAtEnd.front hanswers ⟨pending, htext⟩
  have hvalid' : ∀ o ∈ made, o.Valid conv buffer.size := fun o ho => hvalid o (hmade.front.subset ho)
  have hphase : phaseAfter buffer.size (made.flatMap (Outgoing.bytes conv)) = .searching := hsearching
  have hquiet : resultsAfter buffer (made.flatMap (Outgoing.bytes conv)) part =
      List.replicate part.length none := by
    rw [resultsAfter_eq, hphase, hpart]
  have hlog : (front.foldl (listen buffer (handlersFor payloads)) (createFramer buffer, [])).2 =
      made.filterMap (Outgoing.entry conv (handlersFor payloads)) := by
    have hnoise : Noise [] := by simp [Noise]
    have hwhole := receive_messages hconv (handlersFor payloads) (u := []) rfl hvalid' hnoise []
    rw [List.append_nil, List.nil_append] at hwhole
    have hframer := receive_framer buffer (handlersFor payloads) [] (made.flatMap (Outgoing.bytes conv)) []
    rw [List.nil_append] at hframer
    rw [foldl_listen, hfront, receive_append]
    show (receive buffer (handlersFor payloads)
      (receive buffer (handlersFor payloads) (framerAfter buffer []) [] _).1 _ part).2 = _
    rw [hframer, receive_silent buffer (handlersFor payloads) _ part _ hquiet]
    exact hwhole
  have hlength : front.length + pending.length = (sent.flatMap (Outgoing.bytes conv)).length := by
    rw [← htext, List.length_append]
  have hheard := entries_heard hconv hvalid' hpayloads
  rw [← hlog] at hheard
  refine ⟨⟨made, front.length, hlength, hmade, hheard⟩, ?_⟩
  rintro rfl
  rw [List.length_nil, Nat.add_zero] at hlength
  rw [hlength] at hmade
  rw [hmade.all] at hheard
  exact hheard

section
open Uart
variable {φ δ δ' ρ : Type}

/-- The end that the sentences come from; what it does with bytes that come is left open. -/
def win32Talker (win32error2string : Win32.DWORD → String) (D : Driver δ) (consume : φ → UInt8 → φ) :
    Station Win32.World (Win32.Call × Win32.Answers) Win32.DWORD δ φ :=
  ⟨Win32.win32Port win32error2string, D, consume⟩

def posixClient (strerror : ℤ → String) (D : Driver δ) (buffer : Region UInt8)
    (handlers : List MessageHandler) :
    Station World (Call × Answers) ℤ δ (Framer × List Entry) :=
  ⟨posixPort strerror, D, listen buffer handlers⟩

end

end Avionicpp.Nmea0183
