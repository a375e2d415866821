import Avionicpp.Foundations.CodeDistance
import Avionicpp.Mavlink.ErrorDetection
import Avionicpp.Mavlink.RoundTrip

/-! # How far frames lie apart

The checksum that a frame carries is accumulated over the frame and one more byte, CRC_EXTRA, which is
not sent. With that byte put back, every frame of a message type is a word that leaves zero; so two of
them differ in four bits at least, and no other CRC_EXTRA than the type's own fits a frame.
-/
namespace Avionicpp.Mavlink
open Foundations
set_option autoImplicit false

theorem x25_parity : Crc.parity x25 = true := by decide

/-- More steps than the longest frame has bits. -/
theorem x25_returns : Crc.returns x25 2200 1#16 = false := by decide +kernel

/-- **Up to three wrong bits** in as many bytes as a frame can have change the checksum. -/
theorem crc_few (crc : UInt16) {u v : List UInt8} (h : u.length = v.length) (hshort : u.length ≤ 275)
    (hne : u ≠ v) (hfew : Crc.bitErrors u v < 4) :
    crcAccumulateBuffer crc u ≠ crcAccumulateBuffer crc v := by
  intro heq
  rw [← UInt16.toBitVec_inj, crcAccumulateBuffer_serial, crcAccumulateBuffer_serial] at heq
  refine Crc.serial_few x25 (by omega) x25_top x25_parity crc.toBitVec h hne hfew ?_ heq
  exact Crc.returns_mono x25 x25_returns (by omega)

/-- A frame's bytes behind the start byte, with CRC_EXTRA back in its place, leave zero. -/
def Residue (extra : UInt8) (d t : List UInt8) : Prop :=
  crcAccumulateBuffer 0xFFFF (d ++ [extra] ++ t) = 0

/-- The byte that is not sent adds no difference. -/
theorem residue_distance {extra : UInt8} {d d' t t' : List UInt8} (hd : d.length = d'.length)
    (ht : t.length = t'.length) (hshort : d.length + t.length ≤ 274) (h : Residue extra d t)
    (h' : Residue extra d' t') (hne : d ++ t ≠ d' ++ t') : 4 ≤ Crc.bitErrors (d ++ t) (d' ++ t') := by
  by_contra hfew
  have hlen : (d ++ [extra]).length = (d' ++ [extra]).length := by
    rw [List.length_append, List.length_append, hd]
  have herrors : Crc.bitErrors (d ++ [extra] ++ t) (d' ++ [extra] ++ t') =
      Crc.bitErrors (d ++ t) (d' ++ t') := by
    rw [Crc.bitErrors_append _ _ hlen, Crc.bitErrors_append _ _ hd, Crc.bitErrors_append _ _ hd,
      Crc.bitErrors_self, Nat.add_zero]
  refine crc_few 0xFFFF (u := d ++ [extra] ++ t) (v := d' ++ [extra] ++ t') ?_ ?_ ?_ ?_ (h.trans h'.symm)
  · simp only [List.length_append, hd, ht]
  · rw [List.length_append, List.length_append, List.length_singleton]
    omega
  · intro heq
    obtain ⟨hfront, rfl⟩ := List.append_inj heq hlen
    exact hne (by rw [(List.append_inj hfront hd).1])
  · rw [herrors]
    omega

/-- The two bytes that carry the checksum. -/
def crcBytes (crc : UInt16) : List UInt8 := [(crc &&& 0xFF).toUInt8, ((crc >>> 8) &&& 0xFF).toUInt8]

section
variable (m : MessageT) (message : m.Message) (sysid compid seq : UInt8)

theorem frameOf_split : frameOf m message sysid compid seq =
    0xFD :: ((headerOf m message sysid compid seq ++ payloadOf m message) ++
      crcBytes (crcOf m message sysid compid seq)) := rfl

theorem crcOf_buffer : crcOf m message sysid compid seq = crcAccumulateBuffer 0xFFFF
    (headerOf m message sysid compid seq ++ payloadOf m message ++ [calculateCrcExtra m]) := by
  rw [crcOf, crcAccumulateBuffer, crcAccumulateBuffer, List.foldl_concat]

theorem frameOf_residue : Residue (calculateCrcExtra m)
    (headerOf m message sysid compid seq ++ payloadOf m message)
    (crcBytes (crcOf m message sysid compid seq)) := by
  rw [Residue, crcBytes, crc_residue, crcOf_buffer]
  exact ⟨rfl, rfl⟩

theorem frontOf_length : (headerOf m message sysid compid seq ++ payloadOf m message).length =
    9 + truncatedLength m message := by
  rw [List.length_append, payloadOf_length]
  rfl

end

theorem frameOf_distance (m : MessageT) (hfit : fieldsSize m.fields ≤ 255)
    (message message' : m.Message) (sysid compid seq sysid' compid' seq' : UInt8)
    (hlen : (frameOf m message' sysid' compid' seq').length =
      (frameOf m message sysid compid seq).length)
    (hne : frameOf m message sysid compid seq ≠ frameOf m message' sysid' compid' seq') :
    4 ≤ Crc.bitErrors (frameOf m message sysid compid seq)
      (frameOf m message' sysid' compid' seq') := by
  have hle := truncatedLength_le m message
  have hfront := frontOf_length m message sysid compid seq
  have hfront' := frontOf_length m message' sysid' compid' seq'
  rw [frameOf_length, frameOf_length] at hlen
  rw [frameOf_split, frameOf_split] at hne ⊢
  -- the start byte is the same
  have hstx : ∀ u v : List UInt8, Crc.bitErrors (0xFD :: u) (0xFD :: v) = Crc.bitErrors u v := by
    intro u v
    have hlength : [(0xFD : UInt8)].length = [(0xFD : UInt8)].length := rfl
    have hsplit := Crc.bitErrors_append u v hlength
    rwa [Crc.bitErrors_self, Nat.zero_add] at hsplit
  have hcrc : ∀ crc : UInt16, (crcBytes crc).length = 2 := fun _ => rfl
  rw [hstx]
  apply residue_distance _ _ _ (frameOf_residue m message sysid compid seq)
    (frameOf_residue m message' sysid' compid' seq')
  · exact fun heq => hne (congrArg (List.cons 0xFD) heq)
  · omega
  · rw [hcrc, hcrc]
  · rw [hfront, hcrc]
    omega

/-- **Distance**: two different frames of one length, of messages of one type, differ in at least four
bits, whatever their messages, systems and sequence numbers are. -/
theorem frames_distance (m : MessageT) (hm : m ∈ Payloads.all) (message message' : m.Message)
    (sysid compid seq sysid' compid' seq' : UInt8) (buffer buffer' : Region UInt8)
    (hsize : 280 ≤ buffer.size) (hsize' : 280 ≤ buffer'.size) (n : ℕ)
    (hn : (serialize m message sysid compid seq buffer).1 = .ok n)
    (hn' : (serialize m message' sysid' compid' seq' buffer').1 = .ok n)
    (hne : (serialize m message sysid compid seq buffer).2.read 0 n ≠
      (serialize m message' sysid' compid' seq' buffer').2.read 0 n) :
    4 ≤ Crc.bitErrors ((serialize m message sysid compid seq buffer).2.read 0 n)
      ((serialize m message' sysid' compid' seq' buffer').2.read 0 n) := by
  obtain ⟨hfit, -⟩ := payloads_fit m hm
  obtain ⟨hresult, hread⟩ := serialize_frame m message sysid compid seq buffer hsize
  obtain ⟨hresult', hread'⟩ := serialize_frame m message' sysid' compid' seq' buffer' hsize'
  obtain rfl := Except.ok.inj (hresult.symm.trans hn)
  have hlen := Except.ok.inj (hresult'.symm.trans hn')
  rw [← hlen] at hne ⊢
  rw [hread'] at hne ⊢
  rw [hlen] at hne ⊢
  rw [hread] at hne ⊢
  exact frameOf_distance m hfit message message' sysid compid seq sysid' compid' seq' hlen hne

def sampleRequest : Payloads.paramRequestList.Message := (1#8, 0#8, ())

/-- Two requests that differ in their sequence numbers. -/
theorem sample_distance :
    4 ≤ Crc.bitErrors
      ((serialize Payloads.paramRequestList sampleRequest 1 200 7
        (Region.ofList 0 (List.replicate 280 0xFF))).2.read 0 13)
      ((serialize Payloads.paramRequestList sampleRequest 1 200 8
        (Region.ofList 0 (List.replicate 280 0xFF))).2.read 0 13) := by
  have hsize : 280 ≤ (Region.ofList (0 : UInt8) (List.replicate 280 0xFF)).size := by
    rw [Region.ofList_size, List.length_replicate]
  obtain ⟨hresult, hread⟩ := serialize_frame Payloads.paramRequestList sampleRequest 1 200 7 _ hsize
  obtain ⟨hresult', hread'⟩ := serialize_frame Payloads.paramRequestList sampleRequest 1 200 8 _ hsize
  have hlen : (frameOf Payloads.paramRequestList sampleRequest 1 200 7).length = 13 :=
    frameOf_length Payloads.paramRequestList sampleRequest 1 200 7
  have hlen' : (frameOf Payloads.paramRequestList sampleRequest 1 200 8).length = 13 :=
    frameOf_length Payloads.paramRequestList sampleRequest 1 200 8
  rw [hlen] at hresult hread
  rw [hlen'] at hresult' hread'
  apply frames_distance Payloads.paramRequestList (by simp [Payloads.all]) sampleRequest sampleRequest
    1 200 7 1 200 8 _ _ hsize hsize 13 hresult hresult'
  rw [hread, hread']
  intro heq
  have hseq : (frameOf Payloads.paramRequestList sampleRequest 1 200 7)[4]? =
      (frameOf Payloads.paramRequestList sampleRequest 1 200 8)[4]? := by rw [heq]
  exact absurd (Option.some.inj hseq) (by decide)

/-! ## CRC_EXTRA -/

/-- The last byte alone is told apart in full. -/
theorem crcAccumulate_injective (crc : UInt16) {a b : UInt8}
    (h : crcAccumulate a crc = crcAccumulate b crc) : a = b := by
  have hbuffer : ∀ x, crcAccumulate x crc = crcAccumulateBuffer crc [x] := fun _ => rfl
  have hbits : ∀ x : UInt8, Crc.transmitted [x] = Crc.byteBits x := fun x => List.flatMap_singleton ..
  by_contra hne
  refine (crc_burst crc [a] [b] rfl (fun heq => hne (List.cons.inj heq).1) 0 ?_).1 ?_
  · intro k hk
    refine ⟨Nat.zero_le k, ?_⟩
    by_contra hout
    apply hk
    rw [hbits, hbits, List.getElem?_eq_none (by rw [Crc.byteBits_length]; omega),
      List.getElem?_eq_none (by rw [Crc.byteBits_length]; omega)]
  · rw [← hbuffer, ← hbuffer, h]

/-- The check of a receiver that takes `extra` for the message's CRC_EXTRA. -/
def ChecksumFits (extra : UInt8) (f : List UInt8) : Prop :=
  crcAccumulateBuffer 0xFFFF ((f.drop 1).take (f.length - 3) ++ [extra]) =
    UInt16.ofNat (ofBytes (f.drop (f.length - 2)))

theorem checksumFits_iff (extra : UInt8) (d : List UInt8) (crc : UInt16) :
    ChecksumFits extra (0xFD :: (d ++ crcBytes crc)) ↔
      crcAccumulate extra (crcAccumulateBuffer 0xFFFF d) = crc := by
  have hlen : (0xFD :: (d ++ crcBytes crc)).length = d.length + 3 := by
    rw [List.length_cons, List.length_append]
    rfl
  have hlast : (0xFD :: (d ++ crcBytes crc)).drop (d.length + 1) = crcBytes crc := by
    rw [List.drop_succ_cons, List.drop_left]
  have hvalue : UInt16.ofNat (ofBytes (crcBytes crc)) = crc := by
    have hlt : crc.toNat < 256 ^ 2 := crc.toNat_lt
    rw [crcBytes, crc_bytes, ofBytes_toBytes, Nat.mod_eq_of_lt hlt, UInt16.ofNat_toNat]
  have hfront : ((0xFD :: (d ++ crcBytes crc)).drop 1).take d.length = d := by
    rw [List.drop_succ_cons, List.drop_zero, List.take_left]
  have hadd : crcAccumulateBuffer 0xFFFF (d ++ [extra]) =
      crcAccumulate extra (crcAccumulateBuffer 0xFFFF d) := List.foldl_concat ..
  rw [ChecksumFits, hlen, Nat.add_sub_cancel, hfront, hadd,
    (by omega : d.length + 3 - 2 = d.length + 1), hlast, hvalue]

/-- **CRC_EXTRA tells message definitions apart**: a receiver whose definition of the message has
another CRC_EXTRA refuses every frame of it, and one with the same CRC_EXTRA refuses none. -/
theorem crc_extra_selects (m : MessageT) (message : m.Message) (sysid compid seq : UInt8)
    (buffer : Region UInt8) (hsize : 280 ≤ buffer.size) (n : ℕ)
    (hn : (serialize m message sysid compid seq buffer).1 = .ok n) (extra : UInt8) :
    ChecksumFits extra ((serialize m message sysid compid seq buffer).2.read 0 n) ↔
      extra = calculateCrcExtra m := by
  obtain ⟨hresult, hread⟩ := serialize_frame m message sysid compid seq buffer hsize
  obtain rfl := Except.ok.inj (hresult.symm.trans hn)
  rw [hread, frameOf_split, checksumFits_iff, crcOf]
  constructor
  · exact crcAccumulate_injective _
  · intro h
    rw [h]

theorem sample_extra :
    ChecksumFits 159 ((serialize Payloads.paramRequestList sampleRequest 1 200 7
        (Region.ofList 0 (List.replicate 280 0xFF))).2.read 0 13) ↔
      159 = calculateCrcExtra Payloads.paramRequestList := by
  have hsize : 280 ≤ (Region.ofList (0 : UInt8) (List.replicate 280 0xFF)).size := by
    rw [Region.ofList_size, List.length_replicate]
  obtain ⟨hresult, -⟩ := serialize_frame Payloads.paramRequestList sampleRequest 1 200 7 _ hsize
  have hlen : (frameOf Payloads.paramRequestList sampleRequest 1 200 7).length = 13 :=
    frameOf_length Payloads.paramRequestList sampleRequest 1 200 7
  rw [hlen] at hresult
  exact crc_extra_selects Payloads.paramRequestList sampleRequest 1 200 7 _ hsize 13 hresult 159

end Avionicpp.Mavlink
