import Avionicpp.Mavlink.CrcExtra
import Avionicpp.Mavlink.Payloads
import Avionicpp.Mavlink.Serializer

/-! # The frame that is emitted

Every byte of the span after `serialize`: the frame, with the length and the checksum in terms of the
bytes that are there, and the rest of the span as it was. The payload is written in full before it is
cut, so the bytes up to `10 + W` may have changed behind a short frame.
-/
namespace Avionicpp.Mavlink
open Foundations
set_option autoImplicit false

/-- One more than the index of the last byte that is not zero, or 1 if all are zero. -/
def ContentLength (bytes : List UInt8) (length : ℕ) : Prop :=
  (∀ i, bytes.getD i 0 = 0) ∧ length = 1 ∨
    ∃ i, bytes.getD i 0 ≠ 0 ∧ (∀ j, i < j → bytes.getD j 0 = 0) ∧ length = i + 1

theorem trimmedLength_content (bytes : List UInt8) (h : bytes ≠ []) :
    ContentLength bytes (trimmedLength (fun i => bytes.getD i 0) bytes.length) := by
  have hpos := trimmedLength_pos (fun i => bytes.getD i 0) (List.length_pos_of_ne_nil h)
  have hlast := trimmedLength_last (fun i => bytes.getD i 0) bytes.length
  have hzero : ∀ j, trimmedLength (fun i => bytes.getD i 0) bytes.length ≤ j →
      bytes.getD j 0 = 0 := by
    intro j hj
    by_cases hin : j < bytes.length
    · exact trimmedLength_zero (fun i => bytes.getD i 0) hj hin
    · exact List.getD_eq_default _ _ (by omega)
  generalize trimmedLength (fun i => bytes.getD i 0) bytes.length = n at hpos hlast hzero ⊢
  by_cases hfirst : n = 1 ∧ bytes.getD 0 0 = 0
  · obtain ⟨rfl, hnone⟩ := hfirst
    refine Or.inl ⟨fun i => ?_, rfl⟩
    cases i with
    | zero => exact hnone
    | succ i => exact hzero (i + 1) (by omega)
  · refine Or.inr ⟨n - 1, ?_, fun j hj => hzero j (by omega), by omega⟩
    by_cases hone : n = 1
    · rw [hone]
      exact fun hnone => hfirst ⟨hone, hnone⟩
    · exact hlast (by omega)

theorem low_byte16 (x : UInt16) : (x &&& 0xFF).toUInt8 = UInt8.ofNat x.toNat := by
  apply UInt8.toNat_inj.mp
  rw [UInt16.toNat_toUInt8, UInt16.toNat_and, UInt8.toNat_ofNat']
  show (x.toNat &&& (2 ^ 8 - 1)) % 2 ^ 8 = x.toNat % 2 ^ 8
  rw [Nat.and_two_pow_sub_one_eq_mod, Nat.mod_mod]

theorem crc_bytes (x : UInt16) :
    [(x &&& 0xFF).toUInt8, ((x >>> 8) &&& 0xFF).toUInt8] = toBytes 2 x.toNat := by
  have h8 : (x >>> 8).toNat = x.toNat / 256 := by
    rw [UInt16.toNat_shiftRight]
    exact Nat.shiftRight_eq_div_pow _ _
  rw [low_byte16, low_byte16, h8]
  rfl

/-- What a call of `serialize` that sends `length` bytes of payload makes of the span. -/
structure Emits (m : MessageT) (message : m.Message) (sysid compid seq : UInt8)
    (buffer : Region UInt8) (r : Except MavlinkError ℕ × Region UInt8) (length : ℕ) : Prop where
  result : r.1 = .ok (12 + length)
  frame : r.2.read 0 (12 + length) =
    [0xFD, UInt8.ofNat length, 0, 0, seq, sysid, compid] ++ toBytes 3 m.messageId.toNat ++
      (fieldsBytes m.fields message).take length ++
      toBytes 2 (Crc.remainder x25 0xFFFF#16
        (r.2.read 1 (9 + length) ++ [calculateCrcExtra m])).toNat
  byte : length ≤ 255
  rest : ∀ i, max (10 + fieldsSize m.fields) (12 + length) ≤ i → r.2.cell i = buffer.cell i
  size : r.2.size = buffer.size

section
variable (m : MessageT) (message : m.Message) (sysid compid seq : UInt8) (buffer : Region UInt8)

theorem writeHeader_cell {i : ℕ} (hi : 10 ≤ i) :
    (writeHeader m sysid compid seq buffer).cell i = buffer.cell i := by
  unfold writeHeader
  dsimp only
  repeat rw [Region.store_cell_ne _ _ (by omega)]

theorem serialize_rest (hsize : 280 ≤ buffer.size) {i : ℕ}
    (hi : max (10 + fieldsSize m.fields) (12 + truncatedLength m message) ≤ i) :
    (serialize m message sysid compid seq buffer).2.cell i = buffer.cell i := by
  have hlen := fieldsBytes_length m.fields message
  have hfields : 10 + fieldsSize m.fields ≤ i := (Nat.le_max_left _ _).trans hi
  have hframe : 12 + truncatedLength m message ≤ i := (Nat.le_max_right _ _).trans hi
  rw [serialize_eq m message sysid compid seq buffer hsize, Region.store_cell_ne _ _ (by omega),
    Region.store_cell_ne _ _ (by omega), writtenLen, Region.store_cell_ne _ _ (by omega), written,
    Region.storeList_cell, if_pos (by omega), List.getElem?_eq_none (by omega), Option.getD_none]
  exact writeHeader_cell m sysid compid seq buffer (by omega)

theorem crcOf_x25 : (crcOf m message sysid compid seq).toBitVec =
    Crc.remainder x25 0xFFFF#16
      (headerOf m message sysid compid seq ++ payloadOf m message ++ [calculateCrcExtra m]) := by
  have hbuffer : crcOf m message sysid compid seq = crcAccumulateBuffer 0xFFFF
      (headerOf m message sysid compid seq ++ payloadOf m message ++ [calculateCrcExtra m]) := by
    rw [crcOf, crcAccumulateBuffer, crcAccumulateBuffer, List.foldl_concat]
  rw [hbuffer, crcAccumulateBuffer_x25]
  rfl

theorem serialize_emits_large (hmax : fieldsSize m.fields ≤ 255) (hsize : 280 ≤ buffer.size) :
    Emits m message sysid compid seq buffer (serialize m message sysid compid seq buffer)
      (truncatedLength m message) := by
  have hle := truncatedLength_le m message
  obtain ⟨hresult, hread⟩ := serialize_frame m message sysid compid seq buffer hsize
  rw [frameOf_length] at hresult hread
  have hdrop := Region.read_drop (serialize m message sysid compid seq buffer).2 (i := 0)
    (n := 12 + truncatedLength m message) (k := 1) (by omega)
  have hcrc : (serialize m message sysid compid seq buffer).2.read 1
      (9 + truncatedLength m message) =
      headerOf m message sysid compid seq ++ payloadOf m message := by
    have htake := Region.read_take (serialize m message sysid compid seq buffer).2 (i := 1)
      (n := 12 + truncatedLength m message - 1) (k := 9 + truncatedLength m message) (by omega)
    have hheader : (headerOf m message sysid compid seq ++ payloadOf m message).length =
        9 + truncatedLength m message := by
      rw [List.length_append, payloadOf_length]
      rfl
    rw [hread] at hdrop
    rw [htake]
    show (((serialize m message sysid compid seq buffer).2.read (0 + 1) _).take _) = _
    rw [hdrop, frameOf, List.drop_succ_cons, List.drop_zero, ← hheader, List.take_left']
    rfl
  refine ⟨hresult, ?_, by omega, fun i hi => serialize_rest m message sysid compid seq buffer hsize hi,
    ?_⟩
  · have hx25 := congrArg BitVec.toNat (crcOf_x25 m message sysid compid seq)
    rw [hread, hcrc, ← hx25, frameOf, ← messageId_bytes]
    show _ = _ ++ toBytes 2 (crcOf m message sysid compid seq).toNat
    rw [← crc_bytes, payloadOf]
    simp [headerOf]
  · rw [serialize_eq m message sysid compid seq buffer hsize]
    simp [writtenLen, written, writeHeader]

/-- **What `serialize` emits**, for every message whose size fits the length byte. -/
theorem serialize_emits (hpos : 1 ≤ fieldsSize m.fields) (hmax : fieldsSize m.fields ≤ 255) :
    (buffer.size < 280 →
      serialize m message sysid compid seq buffer = (.error .bufferOverrun, buffer)) ∧
    (280 ≤ buffer.size → ∃ length, ContentLength (fieldsBytes m.fields message) length ∧
      Emits m message sysid compid seq buffer (serialize m message sysid compid seq buffer)
        length) := by
  refine ⟨serialize_small m message sysid compid seq buffer, fun hsize => ?_⟩
  have hlen := fieldsBytes_length m.fields message
  have hne : fieldsBytes m.fields message ≠ [] := by
    intro hnil
    rw [hnil, List.length_nil] at hlen
    omega
  have hcontent := trimmedLength_content (fieldsBytes m.fields message) hne
  rw [hlen] at hcontent
  exact ⟨_, hcontent, serialize_emits_large m message sysid compid seq buffer hmax hsize⟩

end

/-- A request whose two bytes are zero is cut to one of them. -/
theorem request_emitted :
    ∃ length, ContentLength (fieldsBytes Payloads.paramRequestList.fields (0#8, 0#8, ())) length ∧
      Emits Payloads.paramRequestList (0#8, 0#8, ()) 1 200 8
        (Region.ofList 0 (List.replicate 280 0xFF))
        (serialize Payloads.paramRequestList (0#8, 0#8, ()) 1 200 8
          (Region.ofList 0 (List.replicate 280 0xFF))) length := by
  have hsize : (Region.ofList (0 : UInt8) (List.replicate 280 0xFF)).size = 280 := by
    rw [Region.ofList_size, List.length_replicate]
  exact (serialize_emits Payloads.paramRequestList (0#8, 0#8, ()) 1 200 8
    (Region.ofList 0 (List.replicate 280 0xFF)) (by decide) (by decide)).2 (Nat.le_of_eq hsize.symm)

end Avionicpp.Mavlink
