import Avionicpp.Mavlink.Payloads
import Avionicpp.Mavlink.Truncation

/-! # GPS_RAW_INT beside MAVLink's layout

The struct has the extension fields sorted in among the base fields, where MAVLink appends them. Encoder
and decoder agree with each other and with no peer, unless everything behind the altitude is zero: then
both layouts are the same bytes.
-/
namespace Avionicpp.Mavlink
open Foundations
set_option autoImplicit false

/-! ## What is asked -/

structure GpsBase where
  timeUsec : BitVec 64
  lat : BitVec 32
  lon : BitVec 32
  alt : BitVec 32
  eph : BitVec 16
  epv : BitVec 16
  vel : BitVec 16
  cog : BitVec 16
  fixType : BitVec 8
  satellitesVisible : BitVec 8
  deriving DecidableEq

@[ext] structure GpsExtension where
  altEllipsoid : BitVec 32
  hAcc : BitVec 32
  vAcc : BitVec 32
  velAcc : BitVec 32
  hdgAcc : BitVec 32
  yaw : BitVec 16
  deriving DecidableEq

def GpsExtension.zero : GpsExtension := ⟨0, 0, 0, 0, 0, 0⟩

/-- The struct with these values, its members in declaration order. -/
def gpsMessage (b : GpsBase) (e : GpsExtension) : Payloads.gpsRawInt.Message :=
  (b.timeUsec, b.lat, b.lon, b.alt, e.altEllipsoid, e.hAcc, e.vAcc, e.velAcc, e.hdgAcc,
    b.eph, b.epv, b.vel, b.cog, e.yaw, b.fixType, b.satellitesVisible, ())

/-- The base fields as MAVLink lays them out. -/
def GpsBase.bytes (b : GpsBase) : List UInt8 :=
  toBytes 8 b.timeUsec.toNat ++ toBytes 4 b.lat.toNat ++ toBytes 4 b.lon.toNat ++
    toBytes 4 b.alt.toNat ++ toBytes 2 b.eph.toNat ++ toBytes 2 b.epv.toNat ++
    toBytes 2 b.vel.toNat ++ toBytes 2 b.cog.toNat ++ toBytes 1 b.fixType.toNat ++
    toBytes 1 b.satellitesVisible.toNat

/-- The extension fields, which follow them. -/
def GpsExtension.bytes (e : GpsExtension) : List UInt8 :=
  toBytes 4 e.altEllipsoid.toNat ++ toBytes 4 e.hAcc.toNat ++ toBytes 4 e.vAcc.toNat ++
    toBytes 4 e.velAcc.toNat ++ toBytes 4 e.hdgAcc.toNat ++ toBytes 2 e.yaw.toNat

/-- Reading what a peer sends with these values, and sending what a peer reads. -/
structure WireCompatible (b : GpsBase) (e : GpsExtension) : Prop where
  reads : ∀ (buffer : Region UInt8) (view : MessageView), view.msgid = Payloads.gpsRawInt.messageId →
    (∃ k, b.bytes ++ e.bytes = payloadBytes buffer view ++ List.replicate k 0) →
    deserialize Payloads.gpsRawInt buffer view = .ok (gpsMessage b e)
  readsBase : ∀ (buffer : Region UInt8) (view : MessageView),
    view.msgid = Payloads.gpsRawInt.messageId → payloadBytes buffer view = b.bytes →
    deserialize Payloads.gpsRawInt buffer view = .ok (gpsMessage b .zero)
  writes : ∀ (sysid compid seq : UInt8) (buffer : Region UInt8), 280 ≤ buffer.size →
    ∃ length, (serialize Payloads.gpsRawInt (gpsMessage b e) sysid compid seq buffer).1 =
        .ok (12 + length) ∧
      Trimmed (b.bytes ++ e.bytes)
        ((serialize Payloads.gpsRawInt (gpsMessage b e) sysid compid seq buffer).2.read 10 length)

/-- All the fields behind the altitude are zero. -/
structure EndsAtAlt (b : GpsBase) (e : GpsExtension) : Prop where
  eph : b.eph = 0
  epv : b.epv = 0
  vel : b.vel = 0
  cog : b.cog = 0
  fixType : b.fixType = 0
  satellitesVisible : b.satellitesVisible = 0
  extension : e = .zero

/-! ## The two layouts -/

namespace GpsBase

def position (b : GpsBase) : List UInt8 :=
  toBytes 8 b.timeUsec.toNat ++ toBytes 4 b.lat.toNat ++ toBytes 4 b.lon.toNat ++
    toBytes 4 b.alt.toNat

def motion (b : GpsBase) : List UInt8 :=
  toBytes 2 b.eph.toNat ++ (toBytes 2 b.epv.toNat ++ (toBytes 2 b.vel.toNat ++
    toBytes 2 b.cog.toNat))

def fix (b : GpsBase) : List UInt8 := toBytes 1 b.fixType.toNat ++ toBytes 1 b.satellitesVisible.toNat

end GpsBase

def GpsExtension.accuracy (e : GpsExtension) : List UInt8 :=
  toBytes 4 e.altEllipsoid.toNat ++ (toBytes 4 e.hAcc.toNat ++ (toBytes 4 e.vAcc.toNat ++
    (toBytes 4 e.velAcc.toNat ++ toBytes 4 e.hdgAcc.toNat)))

theorem wire_layout (b : GpsBase) (e : GpsExtension) :
    b.bytes ++ e.bytes =
      b.position ++ (b.motion ++ b.fix ++ (e.accuracy ++ toBytes 2 e.yaw.toNat)) := by
  simp only [GpsBase.bytes, GpsExtension.bytes, GpsBase.position, GpsBase.motion, GpsBase.fix,
    GpsExtension.accuracy, List.append_assoc]

theorem struct_layout (b : GpsBase) (e : GpsExtension) :
    fieldsBytes Payloads.gpsRawInt.fields (gpsMessage b e) =
      b.position ++ (e.accuracy ++ (b.motion ++ toBytes 2 e.yaw.toNat ++ b.fix)) := by
  have hstruct : fieldsBytes Payloads.gpsRawInt.fields (gpsMessage b e) =
      toBytes 8 b.timeUsec.toNat ++ (toBytes 4 b.lat.toNat ++ (toBytes 4 b.lon.toNat ++
        (toBytes 4 b.alt.toNat ++ (toBytes 4 e.altEllipsoid.toNat ++ (toBytes 4 e.hAcc.toNat ++
        (toBytes 4 e.vAcc.toNat ++ (toBytes 4 e.velAcc.toNat ++ (toBytes 4 e.hdgAcc.toNat ++
        (toBytes 2 b.eph.toNat ++ (toBytes 2 b.epv.toNat ++ (toBytes 2 b.vel.toNat ++
        (toBytes 2 b.cog.toNat ++ (toBytes 2 e.yaw.toNat ++ (toBytes 1 b.fixType.toNat ++
        (toBytes 1 b.satellitesVisible.toNat ++ []))))))))))))))) := rfl
  rw [hstruct]
  simp only [GpsBase.position, GpsBase.motion, GpsBase.fix, GpsExtension.accuracy,
    List.append_assoc, List.append_nil]

theorem eq_zero_of_bytes {k w : ℕ} {x : BitVec w} (hw : 2 ^ w = 256 ^ k)
    (h : toBytes k x.toNat = List.replicate k 0) : x = 0 := by
  apply BitVec.eq_of_toNat_eq
  have hlt := x.isLt
  rw [hw] at hlt
  rw [toBytes_eq_zeros hlt h]
  exact BitVec.toNat_zero.symm

/-- A base payload alone is already misread, unless nothing stands behind the altitude. -/
theorem base_layout {b : GpsBase}
    (h : fieldsBytes Payloads.gpsRawInt.fields (gpsMessage b .zero) =
      b.bytes ++ GpsExtension.zero.bytes) :
    b.motion = List.replicate 8 0 ∧ b.fix = List.replicate 2 0 := by
  have hlen : b.motion.length + b.fix.length = 10 := by simp [GpsBase.motion, GpsBase.fix]
  have haccuracy : GpsExtension.zero.accuracy = List.replicate 10 0 ++ List.replicate 10 0 := rfl
  rw [struct_layout, wire_layout, haccuracy, List.append_assoc] at h
  have hfront := (List.append_inj (List.append_cancel_left h) (by simp [hlen])).1
  have hmotion : b.motion.length = 8 := by simp [GpsBase.motion]
  have hfix : b.fix.length = 2 := by simp [GpsBase.fix]
  obtain ⟨-, hm, hf⟩ := List.append_eq_replicate_iff.mp hfront.symm
  rw [hmotion] at hm
  rw [hfix] at hf
  exact ⟨hm, hf⟩

theorem extension_layout {b : GpsBase} {e : GpsExtension} (hmotion : b.motion = List.replicate 8 0)
    (hfix : b.fix = List.replicate 2 0)
    (h : fieldsBytes Payloads.gpsRawInt.fields (gpsMessage b e) = b.bytes ++ e.bytes) :
    e.accuracy = List.replicate 20 0 ∧ toBytes 2 e.yaw.toNat = List.replicate 2 0 := by
  have hlen : e.accuracy.length = 20 := by simp [GpsExtension.accuracy]
  rw [struct_layout, wire_layout, hmotion, hfix] at h
  have htail := List.append_cancel_left h
  have haccuracy := eq_zeros_of_shift (k := 10) (by omega) htail
  rw [hlen] at haccuracy
  -- behind the accuracy, the yaw is followed by two zeros here and preceded by them there
  have hyaw : toBytes 2 e.yaw.toNat ++ List.replicate 2 0 =
      List.replicate 2 0 ++ (toBytes 2 e.yaw.toNat ++ []) := by
    rw [haccuracy] at htail
    have hsplit : List.replicate 28 (0 : UInt8) ++ (toBytes 2 e.yaw.toNat ++ List.replicate 2 0) =
        List.replicate 28 0 ++ (List.replicate 2 0 ++ (toBytes 2 e.yaw.toNat ++ [])) := by
      rw [List.append_nil]
      exact htail
    exact List.append_cancel_left hsplit
  have hzero := eq_zeros_of_shift (k := 2) (by omega) hyaw
  rw [toBytes_length] at hzero
  exact ⟨haccuracy, hzero⟩

theorem endsAtAlt_of_layout {b : GpsBase} {e : GpsExtension}
    (h : fieldsBytes Payloads.gpsRawInt.fields (gpsMessage b e) = b.bytes ++ e.bytes)
    (hbase : fieldsBytes Payloads.gpsRawInt.fields (gpsMessage b .zero) =
      b.bytes ++ GpsExtension.zero.bytes) : EndsAtAlt b e := by
  obtain ⟨hmotion, hfix⟩ := base_layout hbase
  obtain ⟨haccuracy, hyaw⟩ := extension_layout hmotion hfix h
  simp only [GpsBase.motion, GpsBase.fix, List.append_eq_replicate_iff, toBytes_length]
    at hmotion hfix
  simp only [GpsExtension.accuracy, List.append_eq_replicate_iff, toBytes_length] at haccuracy
  obtain ⟨-, heph, -, hepv, -, hvel, hcog⟩ := hmotion
  obtain ⟨-, hfixType, hsatellites⟩ := hfix
  obtain ⟨-, haltitude, -, hhAcc, -, hvAcc, -, hvelAcc, hhdgAcc⟩ := haccuracy
  have hextension : e = .zero :=
    GpsExtension.ext (eq_zero_of_bytes rfl haltitude) (eq_zero_of_bytes rfl hhAcc)
      (eq_zero_of_bytes rfl hvAcc) (eq_zero_of_bytes rfl hvelAcc) (eq_zero_of_bytes rfl hhdgAcc)
      (eq_zero_of_bytes rfl hyaw)
  exact ⟨eq_zero_of_bytes rfl heph, eq_zero_of_bytes rfl hepv, eq_zero_of_bytes rfl hvel,
    eq_zero_of_bytes rfl hcog, eq_zero_of_bytes rfl hfixType, eq_zero_of_bytes rfl hsatellites,
    hextension⟩

theorem layout_of_endsAtAlt {b : GpsBase} {e : GpsExtension} (h : EndsAtAlt b e) :
    fieldsBytes Payloads.gpsRawInt.fields (gpsMessage b e) = b.bytes ++ e.bytes := by
  obtain ⟨heph, hepv, hvel, hcog, hfixType, hsatellites, hextension⟩ := h
  rw [struct_layout, wire_layout, GpsBase.motion, GpsBase.fix, heph, hepv, hvel, hcog, hfixType,
    hsatellites, hextension]
  rfl

/-! ## The result -/

theorem gpsBytes_length (b : GpsBase) (e : GpsExtension) :
    b.bytes.length = 30 ∧ (b.bytes ++ e.bytes).length = 52 := by
  simp [GpsBase.bytes, GpsExtension.bytes]

/-- A payload is read as the struct whose bytes it has, if zeros are appended. -/
theorem deserialize_gps_iff (b : GpsBase) (e : GpsExtension) (buffer : Region UInt8)
    (view : MessageView) (hid : view.msgid = Payloads.gpsRawInt.messageId) :
    deserialize Payloads.gpsRawInt buffer view = .ok (gpsMessage b e) ↔
      fieldsBytes Payloads.gpsRawInt.fields (gpsMessage b e) =
        zeroExtend 52 (payloadBytes buffer view) := by
  obtain ⟨message, hread, hbytes⟩ := deserialize_bytes Payloads.gpsRawInt buffer view hid
  have hsize : fieldsSize Payloads.gpsRawInt.fields = 52 := by decide
  rw [hsize] at hbytes
  rw [hread, ← hbytes, Except.ok.injEq]
  constructor
  · intro h
    rw [h]
  · intro h
    exact fieldsBytes_injective _ message (gpsMessage b e) h.symm

/-- A view of nothing but the given payload. -/
def gpsView (payload : List UInt8) : MessageView where
  msgid := Payloads.gpsRawInt.messageId
  sysid := 0
  compid := 0
  seq := 0
  payload := ⟨0, payload.length⟩

theorem gpsView_payload (payload : List UInt8) :
    payloadBytes (Region.ofList 0 payload) (gpsView payload) = payload := by
  apply List.ext_getElem
  · simp [payloadBytes, gpsView]
  · intro i hi hi'
    simp [payloadBytes, gpsView, Region.read_getElem, Region.ofList, hi']

theorem zeroExtend_cut {n k : ℕ} {bytes payload : List UInt8} (hlen : bytes.length = n)
    (h : bytes = payload ++ List.replicate k 0) : zeroExtend n payload = bytes := by
  rw [← zeroExtend_zeros n k payload, ← h, zeroExtend_of_le (Nat.le_of_eq hlen.symm),
    List.take_of_length_le (Nat.le_of_eq hlen)]

/-- **GPS_RAW_INT is read and written as its peers do exactly if all behind the altitude is zero.** -/
theorem gpsRawInt_compatible_iff (b : GpsBase) (e : GpsExtension) :
    WireCompatible b e ↔ EndsAtAlt b e := by
  obtain ⟨hbaseLength, hlength⟩ := gpsBytes_length b e
  have hzeros : zeroExtend 52 b.bytes = b.bytes ++ GpsExtension.zero.bytes := by
    rw [zeroExtend_of_ge (by omega), hbaseLength]
    rfl
  constructor
  · intro h
    have hwhole := h.reads (Region.ofList 0 (b.bytes ++ e.bytes)) (gpsView (b.bytes ++ e.bytes)) rfl
      ⟨0, by rw [gpsView_payload, List.replicate_zero, List.append_nil]⟩
    have hbase := h.readsBase (Region.ofList 0 b.bytes) (gpsView b.bytes) rfl (gpsView_payload _)
    rw [deserialize_gps_iff _ _ _ _ rfl, gpsView_payload] at hwhole hbase
    rw [zeroExtend_of_le (Nat.le_of_eq hlength.symm),
      List.take_of_length_le (Nat.le_of_eq hlength)] at hwhole
    rw [hzeros] at hbase
    exact endsAtAlt_of_layout hwhole hbase
  · intro h
    have hlayout := layout_of_endsAtAlt h
    refine ⟨?_, ?_, ?_⟩
    · rintro buffer view hid ⟨k, hcut⟩
      rw [deserialize_gps_iff b e buffer view hid, hlayout, zeroExtend_cut hlength hcut]
    · intro buffer view hid hpayload
      have hbase := layout_of_endsAtAlt { h with extension := rfl }
      rw [deserialize_gps_iff b _ buffer view hid, hpayload, hzeros]
      exact hbase
    · intro sysid compid seq buffer hsize
      obtain ⟨hresult, hread⟩ :=
        serialize_payload Payloads.gpsRawInt (gpsMessage b e) sysid compid seq hsize
      refine ⟨_, hresult, ?_⟩
      rw [hread, ← hlayout]
      exact payloadOf_trimmed _ _

/-- A position with a three-dimensional fix, from a receiver without extension fields. -/
def sampleFix : GpsBase where
  timeUsec := 1000000
  lat := 473600000
  lon := 85500000
  alt := 500000
  eph := 0
  epv := 0
  vel := 0
  cog := 0
  fixType := 3
  satellitesVisible := 0

/-- The type of the fix is read as an accuracy. -/
theorem sampleFix_incompatible : ¬ WireCompatible sampleFix .zero := by
  intro h
  have hread := h.readsBase (Region.ofList 0 sampleFix.bytes) (gpsView sampleFix.bytes) rfl
    (gpsView_payload _)
  rw [deserialize_gps_iff _ _ _ _ rfl, gpsView_payload] at hread
  exact absurd hread (by decide)

end Avionicpp.Mavlink
