import Avionicpp.Mavlink.Resynchronization

/-! # Frames from other systems

`serialize` writes version 2 frames without a signature and cuts the zeros off the payload. A peer may
send version 1, may sign, and may send the zeros, or extension fields that this library's struct does
not have; the checksum it sends is not looked at. Mixed on one line, all of these are returned and read
back as the messages they carry.
-/
namespace Avionicpp.Mavlink
open Foundations Coroutine
set_option autoImplicit false

inductive Version where
  | v1
  | v2 (incFlags cmpFlags : UInt8)

/-- The bytes of the message id. -/
def Version.idLength : Version → ℕ
  | .v1 => 1
  | .v2 _ _ => 3

/-- The checksum, and the signature if the flags announce one. -/
def Version.trailerLength : Version → ℕ
  | .v1 => 2
  | .v2 incFlags _ => if incFlags &&& 0x01 ≠ 0 then 15 else 2

/-- A message as a peer sends it, and the noise in front of it. -/
structure PeerFrame where
  noise : List UInt8
  version : Version
  type : MessageT
  message : type.Message
  sysid : UInt8
  compid : UInt8
  seq : UInt8
  payload : List UInt8
  trailer : List UInt8

namespace PeerFrame

def header (p : PeerFrame) : List UInt8 :=
  match p.version with
  | .v1 => [0xFE, UInt8.ofNat p.payload.length, p.seq, p.sysid, p.compid] ++
      toBytes 1 p.type.messageId.toNat
  | .v2 incFlags cmpFlags =>
    [0xFD, UInt8.ofNat p.payload.length, incFlags, cmpFlags, p.seq, p.sysid, p.compid] ++
      toBytes 3 p.type.messageId.toNat

def frame (p : PeerFrame) : List UInt8 := p.header ++ (p.payload ++ p.trailer)

def bytes (p : PeerFrame) : List UInt8 := p.noise ++ p.frame

def view (p : PeerFrame) : FrameView where
  msgid := p.type.messageId
  sysid := p.sysid
  compid := p.compid
  seq := p.seq
  payload := p.payload

/-- The payload is the message's bytes, with zeros missing at its end or with more behind it. -/
structure Valid (p : PeerFrame) : Prop where
  noise : Noise p.noise
  id : p.type.messageId.toNat < 256 ^ p.version.idLength
  payload : p.payload.length ≤ 255
  carries : fieldsBytes p.type.fields p.message = zeroExtend (fieldsSize p.type.fields) p.payload
  trailer : p.trailer.length = p.version.trailerLength

end PeerFrame

/-! ## One frame -/

theorem length_byte {n : ℕ} (h : n ≤ 255) : (UInt8.ofNat n).toNat = n := by
  rw [UInt8.toNat_ofNat']
  omega

theorem id_of_bytes {k : ℕ} (id : UInt32) (h : id.toNat < 256 ^ k) :
    UInt32.ofNat (ofBytes (toBytes k id.toNat)) = id := by
  rw [ofBytes_toBytes, Nat.mod_eq_of_lt h, UInt32.ofNat_toNat]

theorem frame_v1 {p : PeerFrame} (h : p.version = .v1) :
    p.frame = [0xFE, UInt8.ofNat p.payload.length, p.seq, p.sysid, p.compid] ++
      toBytes 1 p.type.messageId.toNat ++ (p.payload ++ p.trailer) := by
  rw [PeerFrame.frame, PeerFrame.header, h]

theorem frame_v2 {p : PeerFrame} {incFlags cmpFlags : UInt8} (h : p.version = .v2 incFlags cmpFlags) :
    p.frame = [0xFD, UInt8.ofNat p.payload.length, incFlags, cmpFlags, p.seq, p.sysid, p.compid] ++
      toBytes 3 p.type.messageId.toNat ++ (p.payload ++ p.trailer) := by
  rw [PeerFrame.frame, PeerFrame.header, h]

theorem peer_isFrame {p : PeerFrame} (h : p.Valid) : IsFrame p.frame := by
  obtain ⟨-, -, hpayload, -, htrailer⟩ := h
  have hlen := length_byte hpayload
  cases hversion : p.version with
  | v1 =>
    have hlength : frameLength p.frame = 8 + (UInt8.ofNat p.payload.length).toNat := by
      rw [frame_v1 hversion]
      rfl
    have htail : p.trailer.length = 2 := by
      rw [htrailer, hversion]
      rfl
    refine ⟨?_, ?_⟩
    · rw [frame_v1 hversion]
      exact Or.inr rfl
    · rw [hlength, hlen, frame_v1 hversion]
      simp only [List.length_append, List.length_cons, List.length_nil, toBytes_length]
      omega
  | v2 incFlags cmpFlags =>
    have hlength : frameLength p.frame = 12 + (UInt8.ofNat p.payload.length).toNat +
        (if incFlags &&& 0x01 ≠ 0 then 13 else 0) := by
      rw [frame_v2 hversion]
      rfl
    have htail : p.trailer.length = if incFlags &&& 0x01 ≠ 0 then 15 else 2 := by
      rw [htrailer, hversion]
      rfl
    refine ⟨?_, ?_⟩
    · rw [frame_v2 hversion]
      exact Or.inl rfl
    · rw [hlength, hlen, frame_v2 hversion]
      simp only [List.length_append, List.length_cons, List.length_nil, toBytes_length, htail]
      split <;> omega

theorem peer_frameView {p : PeerFrame} (h : p.Valid) : frameView p.frame = p.view := by
  obtain ⟨-, hid, hpayload, -, -⟩ := h
  have hlen := length_byte hpayload
  have htake : (p.payload ++ p.trailer).take p.payload.length = p.payload := List.take_left
  cases hversion : p.version with
  | v1 =>
    have hid1 : p.type.messageId.toNat < 256 ^ 1 := by
      rw [hversion] at hid
      exact hid
    have hview : frameView p.frame = ⟨UInt32.ofNat (ofBytes (toBytes 1 p.type.messageId.toNat)),
        p.sysid, p.compid, p.seq,
        (p.payload ++ p.trailer).take (UInt8.ofNat p.payload.length).toNat⟩ := by
      rw [frame_v1 hversion]
      rfl
    rw [hview, hlen, htake, id_of_bytes _ hid1]
    rfl
  | v2 incFlags cmpFlags =>
    have hid3 : p.type.messageId.toNat < 256 ^ 3 := by
      rw [hversion] at hid
      exact hid
    have hview : frameView p.frame = ⟨UInt32.ofNat (ofBytes (toBytes 3 p.type.messageId.toNat)),
        p.sysid, p.compid, p.seq,
        (p.payload ++ p.trailer).take (UInt8.ofNat p.payload.length).toNat⟩ := by
      rw [frame_v2 hversion]
      rfl
    rw [hview, hlen, htake, id_of_bytes _ hid3]
    rfl

theorem peer_deserialized {p : PeerFrame} (h : p.Valid) {buffer : Region UInt8} {view : MessageView}
    (hview : view.read buffer = p.view) : deserialize p.type buffer view = .ok p.message := by
  have hid : view.msgid = p.type.messageId := congrArg FrameView.msgid hview
  have hpayload : payloadBytes buffer view = p.payload := congrArg FrameView.payload hview
  obtain ⟨message, hread, hbytes⟩ := deserialize_bytes p.type buffer view hid
  rw [hpayload, ← h.carries] at hbytes
  rw [hread, fieldsBytes_injective p.type.fields message p.message hbytes]

/-! ## A line of frames -/

def peerBytes (peers : List PeerFrame) : List UInt8 := peers.flatMap PeerFrame.bytes

def peerResults (peers : List PeerFrame) : List (Option (Except ErrorType FrameView)) :=
  peers.flatMap fun p => List.replicate (p.bytes.length - 1) none ++ [some (.ok p.view)]

theorem peer_run {N : ℕ} (hN : 280 ≤ N) {p : PeerFrame} (h : p.Valid) :
    (frameMachine N).run .idle p.bytes = .idle ∧
      (frameMachine N).outputs .idle p.bytes =
        List.replicate (p.bytes.length - 1) none ++ [some (.ok p.view)] := by
  have hframe := peer_isFrame h
  have hle := frameLength_le p.frame
  have hlong := eight_le_frameLength p.frame
  have hlength := hframe.length
  obtain ⟨hnoise, hquiet⟩ := noise_silent N p.noise h.noise
  obtain ⟨hrun, hout⟩ := frame_read N p.frame hframe (by omega)
  have hlen : p.bytes.length - 1 = p.noise.length + (p.frame.length - 1) := by
    rw [PeerFrame.bytes, List.length_append]
    omega
  rw [hlen, PeerFrame.bytes, ← peer_frameView h]
  constructor
  · rw [Mealy.run_append, hnoise, hrun]
  · rw [Mealy.outputs_append, hnoise, hquiet, hout, List.replicate_add, List.append_assoc]

theorem peers_run {N : ℕ} (hN : 280 ≤ N) (peers : List PeerFrame) (h : ∀ p ∈ peers, p.Valid) :
    (frameMachine N).run .idle (peerBytes peers) = .idle ∧
      (frameMachine N).outputs .idle (peerBytes peers) = peerResults peers := by
  induction peers with
  | nil => exact ⟨rfl, rfl⟩
  | cons p peers ih =>
    obtain ⟨hrun, hout⟩ := peer_run hN (h p (List.mem_cons_self ..))
    obtain ⟨hrun', hout'⟩ := ih fun x hx => h x (List.mem_cons_of_mem p hx)
    rw [peerBytes, peerResults, List.flatMap_cons, List.flatMap_cons, Mealy.run_append,
      Mealy.outputs_append, hrun, hout]
    exact ⟨hrun', congrArg _ hout'⟩

/-- The view returned when `c` is pushed, and what `deserialize` makes of it then. -/
def PeerFrame.Decoded (buffer : Region UInt8) (u : List UInt8) (c : UInt8) (p : PeerFrame) : Prop :=
  ∃ view, yieldedAfter buffer u c = some (.ok view) ∧
    view.read (framerAfter buffer (u ++ [c])).locals.buffer = p.view ∧
    deserialize p.type (framerAfter buffer (u ++ [c])).locals.buffer view = .ok p.message

theorem yielded_of_result {buffer : Region UInt8} {u : List UInt8} {c : UInt8} {fv : FrameView}
    (h : resultAfter buffer u c = some (.ok fv)) :
    ∃ view, yieldedAfter buffer u c = some (.ok view) ∧
      view.read (framerAfter buffer (u ++ [c])).locals.buffer = fv := by
  rw [resultAfter, readResult] at h
  obtain ⟨r, hr, hread⟩ := Option.map_eq_some_iff.mp h
  cases r with
  | error e => cases hread
  | ok view => exact ⟨view, hr, Except.ok.inj hread⟩

theorem peer_decoded {buffer : Region UInt8} (hsize : 280 ≤ buffer.size) {u : List UInt8}
    (hidle : phaseAfter buffer.size u = .idle) {p : PeerFrame} (h : p.Valid) {w : List UInt8}
    {c : UInt8} (hlast : p.bytes = w ++ [c]) : p.Decoded buffer (u ++ w) c := by
  obtain ⟨-, hout⟩ := peer_run hsize h
  rw [hlast, Mealy.outputs_concat] at hout
  have hstep := (List.append_inj' hout rfl).2
  have hresult : resultAfter buffer (u ++ w) c = some (.ok p.view) := by
    rw [resultAfter_eq, phaseAfter_append, hidle]
    exact (List.cons.inj hstep).1
  obtain ⟨view, hyield, hview⟩ := yielded_of_result hresult
  exact ⟨view, hyield, hview, peer_deserialized h hview⟩

/-- **A line of mixed frames** is returned frame by frame, whatever versions, flags, trailers and
payload lengths follow each other, and every message is read back. -/
theorem peers_decoded (buffer : Region UInt8) (hsize : 280 ≤ buffer.size) (u : List UInt8)
    (hwaiting : (framerAfter buffer u).locals.site = .stx) (peers : List PeerFrame)
    (hvalid : ∀ p ∈ peers, p.Valid) :
    resultsAfter buffer u (peerBytes peers) = peerResults peers ∧
      ∀ sent p later, peers = sent ++ p :: later →
        ∃ w c, p.bytes = w ++ [c] ∧ p.Decoded buffer (u ++ peerBytes sent ++ w) c := by
  have hidle := phaseAfter_idle hwaiting
  constructor
  · obtain ⟨-, hout⟩ := peers_run hsize peers hvalid
    rw [resultsAfter_eq, hidle, hout]
  · intro sent p later hpeers
    have hp := hvalid p (by rw [hpeers]; simp)
    have hne : p.bytes ≠ [] := by
      apply List.ne_nil_of_length_pos
      have hlong := eight_le_frameLength p.frame
      have hlength := (peer_isFrame hp).length
      rw [PeerFrame.bytes, List.length_append]
      omega
    refine ⟨_, _, (List.dropLast_append_getLast hne).symm, ?_⟩
    apply peer_decoded hsize ?_ hp (List.dropLast_append_getLast hne).symm
    obtain ⟨hrun, -⟩ := peers_run hsize sent fun x hx => hvalid x (by rw [hpeers]; simp [hx])
    rw [phaseAfter_append, hidle, hrun]

/-- A version 1 request with all its zeros, and a signed one that a newer peer has made longer. -/
def samplePeers : List PeerFrame :=
  [{ noise := [0x55]
     version := .v1
     type := Payloads.paramRequestList
     message := (1#8, 0#8, ())
     sysid := 1
     compid := 200
     seq := 7
     payload := [1, 0]
     trailer := [0xAA, 0xBB] },
   { noise := []
     version := .v2 0x01 0
     type := Payloads.paramRequestList
     message := (1#8, 2#8, ())
     sysid := 1
     compid := 200
     seq := 8
     payload := [1, 2, 0xFD]
     trailer := [0, 0, 1, 2, 3, 4, 5, 6, 7, 8, 9, 10, 11, 12, 13] }]

theorem samplePeers_decoded :
    resultsAfter (Region.ofList 0 (List.replicate 280 0)) [] (peerBytes samplePeers) =
        peerResults samplePeers ∧
      ∀ sent p later, samplePeers = sent ++ p :: later →
        ∃ w c, p.bytes = w ++ [c] ∧
          p.Decoded (Region.ofList 0 (List.replicate 280 0)) ([] ++ peerBytes sent ++ w) c := by
  apply peers_decoded (Region.ofList 0 (List.replicate 280 0))
  · rw [Region.ofList_size, List.length_replicate]
  · exact congrArg State.site (create_locals _ (body_alternates _))
  · intro p hp
    simp only [samplePeers, List.mem_cons, List.not_mem_nil, or_false] at hp
    obtain rfl | rfl := hp
    · exact ⟨by simp [Noise, IsStx], by decide, by decide, by decide, by decide⟩
    · exact ⟨by simp [Noise], by decide, by decide, by decide, by decide⟩

end Avionicpp.Mavlink
