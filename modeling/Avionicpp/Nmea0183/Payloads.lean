import Avionicpp.Foundations.Format

/-! # The payloads (`nmea0183/payloads`)

A payload struct is written once over a traits class: with `TxTraits` a member holds an optional
value, with `RxTraits` a token of the view. `Payload` is what both have in common. Every `Enum` of
the payloads is an `Enum<char>`.
-/
namespace Avionicpp.Nmea0183
open Foundations
set_option autoImplicit false

/-- The types of the members, with the precision and the width of their text. -/
inductive FieldKind where
  | float (type : FloatType) (precision width : ℕ)
  | int (width : ℕ)
  | char
  | string
  deriving DecidableEq, Repr

/-- `ValueType`; a floating-point value is its bit pattern, a `std::string_view` its text. -/
def FieldKind.Value : FieldKind → Type
  | .float type _ _ => BitVec type.bits
  | .int _ => Int32
  | .char => UInt8
  | .string => List UInt8

structure Field where
  kind : FieldKind
  name : String

structure Payload where
  messageId : List UInt8
  fields : List Field

namespace Payload

def kind (p : Payload) (i : Fin p.fields.length) : FieldKind := (p.fields.get i).kind

/-- The payload over `TxTraits`. -/
def Message (p : Payload) : Type := (i : Fin p.fields.length) → Option (p.kind i).Value

end Payload

namespace Payloads

def many (kind : FieldKind) (names : List String) : List Field := names.map fun name => ⟨kind, name⟩

def dtm : Payload where
  messageId := asciiText "DTM"
  fields :=
    many .string ["local_datum_code", "local_datum_subdivision_code"] ++
    many (.float .double 4 0) ["latitude_offset"] ++
    many .char ["latitude_offset_direction"] ++
    many (.float .double 4 0) ["longitude_offset"] ++
    many .char ["longitude_offset_direction"] ++
    many (.float .double 1 0) ["altitude_offset"] ++
    many .string ["reference_datum_code"]

def gbs : Payload where
  messageId := asciiText "GBS"
  fields :=
    many (.float .double 2 9) ["utc_time"] ++
    many (.float .float 1 0) ["lat_error", "lon_error", "alt_error"] ++
    many (.int 2) ["satellite_id"] ++
    many (.float .float 3 0) ["probability"] ++
    many (.float .float 1 0) ["bias", "std_dev"]

def gga : Payload where
  messageId := asciiText "GGA"
  fields :=
    many (.float .double 2 9) ["utc_time"] ++
    many (.float .double 4 9) ["latitude"] ++
    many .char ["latitude_direction"] ++
    many (.float .double 4 10) ["longitude"] ++
    many .char ["longitude_direction", "quality"] ++
    many (.int 2) ["num_satellites"] ++
    many (.float .float 1 0) ["hdop", "altitude"] ++
    many .char ["altitude_units"] ++
    many (.float .float 1 0) ["geoid_separation"] ++
    many .char ["geoid_separation_units"] ++
    many (.float .float 1 0) ["age_of_differential"] ++
    many (.int 4) ["station_id"]

def gll : Payload where
  messageId := asciiText "GLL"
  fields :=
    many (.float .double 4 9) ["latitude"] ++
    many .char ["latitude_direction"] ++
    many (.float .double 4 10) ["longitude"] ++
    many .char ["longitude_direction"] ++
    many (.float .double 2 9) ["utc_time"] ++
    many .char ["status", "mode_indicator"]

def gns : Payload where
  messageId := asciiText "GNS"
  fields :=
    many (.float .double 2 9) ["utc_time"] ++
    many (.float .double 4 9) ["latitude"] ++
    many .char ["latitude_direction"] ++
    many (.float .double 4 10) ["longitude"] ++
    many .char ["longitude_direction"] ++
    many .string ["mode_indicator"] ++
    many (.int 2) ["num_satellites"] ++
    many (.float .float 1 0) ["hdop", "altitude", "geoid_separation", "age_of_differential"] ++
    many (.int 4) ["station_id"] ++
    many .char ["navigational_status"]

def gsa : Payload where
  messageId := asciiText "GSA"
  fields :=
    many .char ["selection_mode", "fix_mode"] ++
    many (.int 2) ["sv_id_01", "sv_id_02", "sv_id_03", "sv_id_04", "sv_id_05", "sv_id_06",
      "sv_id_07", "sv_id_08", "sv_id_09", "sv_id_10", "sv_id_11", "sv_id_12"] ++
    many (.float .float 1 0) ["pdop", "hdop", "vdop"]

def gst : Payload where
  messageId := asciiText "GST"
  fields :=
    many (.float .double 2 9) ["utc_time"] ++
    many (.float .float 1 0) ["rms_std_dev", "semi_major_std_dev", "semi_minor_std_dev",
      "semi_major_orientation", "latitude_error_std_dev", "longitude_error_std_dev",
      "altitude_error_std_dev"]

def hdt : Payload where
  messageId := asciiText "HDT"
  fields :=
    many (.float .float 1 0) ["heading"] ++
    many .char ["true_indicator"]

def rmc : Payload where
  messageId := asciiText "RMC"
  fields :=
    many (.float .double 2 9) ["utc_time"] ++
    many .char ["status"] ++
    many (.float .double 4 9) ["latitude"] ++
    many .char ["latitude_direction"] ++
    many (.float .double 4 10) ["longitude"] ++
    many .char ["longitude_direction"] ++
    many (.float .float 1 0) ["speed", "course"] ++
    many (.int 6) ["date"] ++
    many (.float .float 1 0) ["magnetic_variation"] ++
    many .char ["magnetic_variation_direction", "mode_indicator"]

def rot : Payload where
  messageId := asciiText "ROT"
  fields :=
    many (.float .float 1 0) ["rate_of_turn"] ++
    many .char ["status"]

def vtg : Payload where
  messageId := asciiText "VTG"
  fields :=
    many (.float .float 1 0) ["course_true"] ++
    many .char ["reference_true"] ++
    many (.float .float 1 0) ["course_magnetic"] ++
    many .char ["reference_magnetic"] ++
    many (.float .float 1 0) ["speed_knots"] ++
    many .char ["units_knots"] ++
    many (.float .float 1 0) ["speed_kph"] ++
    many .char ["units_kph", "mode_indicator"]

def zda : Payload where
  messageId := asciiText "ZDA"
  fields :=
    many (.float .double 2 9) ["utc_time"] ++
    many (.int 2) ["day", "month"] ++
    many (.int 4) ["year"] ++
    many (.int 2) ["local_zone_hours", "local_zone_minutes"]

def all : List Payload := [dtm, gbs, gga, gll, gns, gsa, gst, hdt, rmc, rot, vtg, zda]

end Payloads
end Avionicpp.Nmea0183
