import Avionicpp.Nmea0183.Deserializer
import Avionicpp.Nmea0183.SentenceStream

/-! # Which handler a sentence reaches

The address is split by the framer and compared by the dispatcher. Together they route a sentence to
the first handler whose id is the third to fifth character of the address; what follows them in a
longer address is not looked at. A view has room for 32 fields, so later members of a payload are
empty.
-/
namespace Avionicpp.Nmea0183
open Foundations Coroutine
set_option autoImplicit false

/-- The text before the first comma. -/
def Sentence.address (s : Sentence) : List UInt8 := s.body.takeWhile (· ≠ ascii ',')

def Sentence.fields (s : Sentence) : List (List UInt8) := (tokens s.body).tail

/-- The id stands behind the two characters of a talker, whatever follows. -/
def Addressed (address id : List UInt8) : Prop :=
  ∃ talker rest, talker.length = 2 ∧ address = talker ++ id ++ rest

theorem tokens_head (b : List UInt8) :
    tokens b = b.takeWhile (· ≠ ascii ',') :: (tokens b).tail := by
  induction b with
  | nil => rfl
  | cons c b ih =>
    rw [tokens] at ih ⊢
    rw [List.splitOn_cons_eq_if_modifyHead]
    by_cases hc : c = ascii ','
    · simp [hc]
    · have hbeq : (c == ascii ',') = false := by simpa using hc
      rw [hbeq, if_neg Bool.false_ne_true, ih]
      simp [hc]

theorem Sentence.view_eq (s : Sentence) : s.view = viewOf (s.address :: s.fields) := by
  rw [Sentence.view, tokens_head]
  rfl

/-- The message type of an address. -/
theorem messageType_iff (address : List UInt8) (fields : List (List UInt8)) {id : List UInt8}
    (hid : id.length = 3) :
    (viewOf (address :: fields)).messageType = id ↔ Addressed address id := by
  have htype : (viewOf (address :: fields)).messageType =
      if 5 ≤ address.length then (address.drop 2).take 3 else [] := rfl
  rw [htype]
  constructor
  · intro h
    by_cases hlong : 5 ≤ address.length
    · rw [if_pos hlong] at h
      refine ⟨address.take 2, (address.drop 2).drop 3, ?_, ?_⟩
      · rw [List.length_take]
        omega
      · rw [← h, List.append_assoc, List.take_append_drop, List.take_append_drop]
    · rw [if_neg hlong] at h
      rw [← h] at hid
      cases hid
  · rintro ⟨talker, rest, htalker, rfl⟩
    rw [if_pos (by simp only [List.length_append]; omega), List.append_assoc, ← htalker,
      List.drop_left, ← hid, List.take_left]

/-! ## Routing -/

/-- What `dispatch` makes of a view of a sentence: it invokes the visitor once, with the bound payload
of the first handler that the address reaches, or not at all. -/
structure Routed (s : Sentence) (buffer : Region UInt8) (view : MessageView)
    (handlers : List MessageHandler) : Prop where
  reached : ∀ earlier h later, handlers = earlier ++ h :: later → Addressed s.address h.id →
    (∀ h' ∈ earlier, ¬ Addressed s.address h'.id) →
    ∃ lazy : h.payloadType.Lazy,
      (∀ (ρ : Type) (visitor : Visitor ρ) (r : ρ),
        dispatch buffer view visitor handlers r = (true, visitor h (.ok lazy) r)) ∧
      ∀ i : Fin h.payloadType.fields.length,
        (lazy i).text buffer = (s.fields.take maxFields).getD i []
  missed : (∀ h ∈ handlers, ¬ Addressed s.address h.id) →
    ∀ (ρ : Type) (visitor : Visitor ρ) (r : ρ), dispatch buffer view visitor handlers r = (false, r)

theorem routed_of_text {s : Sentence} {buffer : Region UInt8} {view : MessageView}
    (hview : view.text buffer = s.view) (handlers : List MessageHandler)
    (hids : ∀ h ∈ handlers, h.id.length = 3) : Routed s buffer view handlers := by
  rw [s.view_eq] at hview
  have htype : ∀ h ∈ handlers, view.messageType.text buffer = h.id ↔ Addressed s.address h.id := by
    intro h hh
    have hmessage : view.messageType.text buffer = (viewOf (s.address :: s.fields)).messageType :=
      congrArg TextView.messageType hview
    rw [hmessage]
    exact messageType_iff s.address s.fields (hids h hh)
  constructor
  · rintro earlier h later rfl haddressed hearlier
    have hmatch := (htype h (by simp)).mpr haddressed
    have hcount : (view.text buffer).fieldCount = (s.fields.take maxFields).length := by
      rw [hview, List.length_take, Nat.min_comm]
      rfl
    obtain ⟨lazy, hbind, htext⟩ := bind_text h.payloadType (congrArg TextView.fields hview) hcount
    refine ⟨lazy, fun ρ visitor r => ?_, htext⟩
    rw [← hbind]
    apply dispatch_first buffer view visitor earlier later h r _ hmatch
    intro h' hh' hsame
    apply hearlier h' hh'
    rw [hsame]
    exact haddressed
  · intro hnone ρ visitor r
    have hfind : handlers.find? (fun h => view.messageType.text buffer = h.id) = none := by
      apply List.find?_eq_none.mpr
      intro h hh
      simpa using fun hmatch => hnone h hh ((htype h hh).mp hmatch)
    rw [dispatch_eq_find, hfind]

/-- **Routing by the address**, for every sentence that the framer accepts and every list of handlers
with three-letter ids. -/
theorem sentence_routed (buffer : Region UInt8) (u : List UInt8)
    (hsearch : (framerAfter buffer u).locals.site = .search) (s : Sentence)
    (hs : s.Valid buffer.size) :
    ∃ view, yieldedAfter buffer (u ++ s.front) (ascii '\n') = some (.ok view) ∧
      ∀ handlers : List MessageHandler, (∀ h ∈ handlers, h.id.length = 3) →
        Routed s (framerAfter buffer (u ++ s.bytes)).locals.buffer view handlers := by
  obtain ⟨view, hyield, htext⟩ := sentence_yielded (phaseAfter_of_search buffer u hsearch) hs
  exact ⟨view, hyield, routed_of_text htext⟩

/-- An address with a letter behind the id. -/
def longAddress : Sentence := ⟨ascii '$', asciiText "GPGGAX", ascii '0', ascii 'E'⟩

/-- 33 fields, and a payload with as many members. -/
def manyFields : Sentence :=
  ⟨ascii '$', asciiText "GPXYZ" ++ (List.replicate 33 (asciiText ",1")).flatten, ascii '5', ascii '1'⟩

def manyMembers : Payload where
  messageId := asciiText "XYZ"
  fields := List.replicate 33 ⟨.string, "member"⟩

/-- A sentence is routed by a part of its address, and the last of 33 members is empty. -/
theorem longer_address_routed :
    (∃ view, yieldedAfter (Region.ofList 0 (List.replicate 80 0)) longAddress.front (ascii '\n') =
        some (.ok view) ∧
      dispatch (framerAfter (Region.ofList 0 (List.replicate 80 0)) longAddress.bytes).locals.buffer
        view (fun _ _ calls => calls + 1) [⟨asciiText "GGA", Payloads.gga⟩] 0 = (true, 1) ∧
      ¬ ∃ talker, talker.length = 2 ∧ longAddress.address = talker ++ asciiText "GGA") ∧
    ∃ view, yieldedAfter (Region.ofList 0 (List.replicate 80 0)) manyFields.front (ascii '\n') =
        some (.ok view) ∧
      ∃ lazy : manyMembers.Lazy, bind manyMembers view = .ok lazy ∧
        (lazy ⟨32, by decide⟩).text (framerAfter (Region.ofList 0 (List.replicate 80 0))
          manyFields.bytes).locals.buffer = [] ∧
        manyFields.fields.getD 32 [] = asciiText "1" := by
  have hsearch : phaseAfter 80 [] = .searching := rfl
  constructor
  · obtain ⟨view, hyield, htext⟩ :=
      @sentence_yielded (Region.ofList 0 (List.replicate 80 0)) [] hsearch longAddress
        ⟨by decide, by decide, by decide, by decide⟩
    obtain ⟨hreached, -⟩ := routed_of_text htext [⟨asciiText "GGA", Payloads.gga⟩]
      (by intro h hh; rw [List.mem_singleton.mp hh]; rfl)
    obtain ⟨lazy, hdispatch, -⟩ := hreached [] _ [] rfl ⟨asciiText "GP", asciiText "X", rfl, rfl⟩
      (fun h hh => absurd hh List.not_mem_nil)
    refine ⟨view, hyield, hdispatch ℕ _ 0, ?_⟩
    rintro ⟨talker, htwo, haddress⟩
    have hlen := congrArg List.length haddress
    rw [List.length_append, htwo] at hlen
    exact absurd hlen (by decide)
  · obtain ⟨view, hyield, htext⟩ :=
      @sentence_yielded (Region.ofList 0 (List.replicate 80 0)) [] hsearch manyFields
        ⟨by decide, by decide, by decide, by decide⟩
    rw [manyFields.view_eq] at htext
    obtain ⟨lazy, hbind, hmember⟩ := bind_text manyMembers (congrArg TextView.fields htext)
      (congrArg TextView.fieldCount htext)
    exact ⟨view, hyield, lazy, hbind, hmember ⟨32, by decide⟩, by decide⟩

/-- The longer address once more, over a buffer of eight bytes. -/
theorem sample_routed :
    ∃ view, yieldedAfter (Region.ofList 0 (List.replicate 8 0)) longAddress.front (ascii '\n') =
        some (.ok view) ∧
      ∀ handlers : List MessageHandler, (∀ h ∈ handlers, h.id.length = 3) →
        Routed longAddress (framerAfter (Region.ofList 0 (List.replicate 8 0))
          longAddress.bytes).locals.buffer view handlers :=
  sentence_routed (Region.ofList 0 (List.replicate 8 0)) []
    (congrArg State.site (create_locals _ (body_alternates _))) longAddress
    ⟨by decide, by decide, by decide, by decide⟩

end Avionicpp.Nmea0183
