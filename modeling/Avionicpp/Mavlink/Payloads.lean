import Avionicpp.Mavlink.Checksum

/-! # The payloads (`mavlink/payloads`)

One definition for each payload struct, with its fields in declaration order.
-/
namespace Avionicpp.Mavlink.Payloads
set_option autoImplicit false

def many (type : FieldType) (names : List String) : List Field := names.map fun name => ⟨type, name⟩

def attitude : MessageT where
  messageId := 30
  messageName := "ATTITUDE"
  fields :=
    many (.scalar .uint32) ["time_boot_ms"] ++
    many (.scalar .float) ["roll", "pitch", "yaw", "rollspeed", "pitchspeed", "yawspeed"]

def attitudeQuaternion : MessageT where
  messageId := 31
  messageName := "ATTITUDE_QUATERNION"
  fields :=
    many (.scalar .uint32) ["time_boot_ms"] ++
    many (.scalar .float) ["q1", "q2", "q3", "q4", "rollspeed", "pitchspeed", "yawspeed"]

def authKey : MessageT where
  messageId := 7
  messageName := "AUTH_KEY"
  fields :=
    many (.array .char 32) ["key"]

def autopilotVersion : MessageT where
  messageId := 148
  messageName := "AUTOPILOT_VERSION"
  fields :=
    many (.scalar .uint64) ["capabilities", "uid"] ++
    many (.scalar .uint32) ["flight_sw_version", "middleware_sw_version", "os_sw_version",
      "board_version"] ++
    many (.scalar .uint16) ["vendor_id", "product_id"] ++
    many (.array .uint8 8) ["flight_custom_version", "middleware_custom_version",
      "os_custom_version"] ++
    many (.array .uint8 18) ["uid2"]

def changeOperatorControl : MessageT where
  messageId := 5
  messageName := "CHANGE_OPERATOR_CONTROL"
  fields :=
    many (.scalar .uint8) ["target_system", "control_request", "version"] ++
    many (.array .char 25) ["passkey"]

def changeOperatorControlAck : MessageT where
  messageId := 6
  messageName := "CHANGE_OPERATOR_CONTROL_ACK"
  fields :=
    many (.scalar .uint8) ["gcs_system_id", "control_request", "ack"]

def commandAck : MessageT where
  messageId := 77
  messageName := "COMMAND_ACK"
  fields :=
    many (.scalar .uint16) ["command"] ++
    many (.scalar .uint8) ["result"]

def commandInt : MessageT where
  messageId := 75
  messageName := "COMMAND_INT"
  fields :=
    many (.scalar .float) ["param1", "param2", "param3", "param4"] ++
    many (.scalar .int32) ["x", "y"] ++
    many (.scalar .float) ["z"] ++
    many (.scalar .uint16) ["command"] ++
    many (.scalar .uint8) ["target_system", "target_component", "frame", "current", "autocontinue"]

def commandLong : MessageT where
  messageId := 76
  messageName := "COMMAND_LONG"
  fields :=
    many (.scalar .float) ["param1", "param2", "param3", "param4", "param5", "param6", "param7"] ++
    many (.scalar .uint16) ["command"] ++
    many (.scalar .uint8) ["target_system", "target_component", "confirmation"]

def globalPositionInt : MessageT where
  messageId := 33
  messageName := "GLOBAL_POSITION_INT"
  fields :=
    many (.scalar .uint32) ["time_boot_ms"] ++
    many (.scalar .int32) ["lat", "lon", "alt", "relative_alt"] ++
    many (.scalar .int16) ["vx", "vy", "vz"] ++
    many (.scalar .uint16) ["hdg"]

def gpsRawInt : MessageT where
  messageId := 24
  messageName := "GPS_RAW_INT"
  fields :=
    many (.scalar .uint64) ["time_usec"] ++
    many (.scalar .int32) ["lat", "lon", "alt", "alt_ellipsoid"] ++
    many (.scalar .uint32) ["h_acc", "v_acc", "vel_acc", "hdg_acc"] ++
    many (.scalar .uint16) ["eph", "epv", "vel", "cog", "yaw"] ++
    many (.scalar .uint8) ["fix_type", "satellites_visible"]

def gpsStatus : MessageT where
  messageId := 25
  messageName := "GPS_STATUS"
  fields :=
    many (.scalar .uint8) ["satellites_visible"] ++
    many (.array .uint8 20) ["satellite_prn", "satellite_used", "satellite_elevation",
      "satellite_azimuth", "satellite_snr"]

def heartbeat : MessageT where
  messageId := 0
  messageName := "HEARTBEAT"
  fields :=
    many (.scalar .uint32) ["custom_mode"] ++
    many (.scalar .uint8) ["type", "autopilot", "base_mode", "system_status", "mavlink_version"]

def localPositionNed : MessageT where
  messageId := 32
  messageName := "LOCAL_POSITION_NED"
  fields :=
    many (.scalar .uint32) ["time_boot_ms"] ++
    many (.scalar .float) ["x", "y", "z", "vx", "vy", "vz"]

def paramRequestList : MessageT where
  messageId := 21
  messageName := "PARAM_REQUEST_LIST"
  fields :=
    many (.scalar .uint8) ["target_system", "target_component"]

def paramRequestRead : MessageT where
  messageId := 20
  messageName := "PARAM_REQUEST_READ"
  fields :=
    many (.scalar .int16) ["param_index"] ++
    many (.scalar .uint8) ["target_system", "target_component"] ++
    many (.array .char 16) ["param_id"]

def paramSet : MessageT where
  messageId := 23
  messageName := "PARAM_SET"
  fields :=
    many (.scalar .float) ["param_value"] ++
    many (.scalar .uint8) ["target_system", "target_component"] ++
    many (.array .char 16) ["param_id"] ++
    many (.scalar .uint8) ["param_type"]

def paramValue : MessageT where
  messageId := 22
  messageName := "PARAM_VALUE"
  fields :=
    many (.scalar .float) ["param_value"] ++
    many (.scalar .uint16) ["param_count", "param_index"] ++
    many (.array .char 16) ["param_id"] ++
    many (.scalar .uint8) ["param_type"]

def rawImu : MessageT where
  messageId := 27
  messageName := "RAW_IMU"
  fields :=
    many (.scalar .uint64) ["time_usec"] ++
    many (.scalar .int16) ["xacc", "yacc", "zacc", "xgyro", "ygyro", "zgyro", "xmag", "ymag",
      "zmag"]

def rawPressure : MessageT where
  messageId := 28
  messageName := "RAW_PRESSURE"
  fields :=
    many (.scalar .uint64) ["time_usec"] ++
    many (.scalar .int16) ["press_abs", "press_diff1", "press_diff2", "temperature"]

def rcChannelsRaw : MessageT where
  messageId := 35
  messageName := "RC_CHANNELS_RAW"
  fields :=
    many (.scalar .uint32) ["time_boot_ms"] ++
    many (.scalar .uint16) ["chan1_raw", "chan2_raw", "chan3_raw", "chan4_raw", "chan5_raw",
      "chan6_raw", "chan7_raw", "chan8_raw"] ++
    many (.scalar .uint8) ["port", "rssi"]

def rcChannelsScaled : MessageT where
  messageId := 34
  messageName := "RC_CHANNELS_SCALED"
  fields :=
    many (.scalar .uint32) ["time_boot_ms"] ++
    many (.scalar .int16) ["chan1_scaled", "chan2_scaled", "chan3_scaled", "chan4_scaled",
      "chan5_scaled", "chan6_scaled", "chan7_scaled", "chan8_scaled"] ++
    many (.scalar .uint8) ["port", "rssi"]

def scaledImu : MessageT where
  messageId := 26
  messageName := "SCALED_IMU"
  fields :=
    many (.scalar .uint32) ["time_boot_ms"] ++
    many (.scalar .int16) ["xacc", "yacc", "zacc", "xgyro", "ygyro", "zgyro", "xmag", "ymag",
      "zmag"]

def scaledPressure : MessageT where
  messageId := 29
  messageName := "SCALED_PRESSURE"
  fields :=
    many (.scalar .uint32) ["time_boot_ms"] ++
    many (.scalar .float) ["press_abs", "press_diff"] ++
    many (.scalar .int16) ["temperature"]

def sysStatus : MessageT where
  messageId := 1
  messageName := "SYS_STATUS"
  fields :=
    many (.scalar .uint32) ["onboard_control_sensors_present", "onboard_control_sensors_enabled",
      "onboard_control_sensors_health"] ++
    many (.scalar .uint16) ["load", "voltage_battery"] ++
    many (.scalar .int16) ["current_battery"] ++
    many (.scalar .uint16) ["drop_rate_comm", "errors_comm", "errors_count1", "errors_count2",
      "errors_count3", "errors_count4"] ++
    many (.scalar .int8) ["battery_remaining"]

def systemTime : MessageT where
  messageId := 2
  messageName := "SYSTEM_TIME"
  fields :=
    many (.scalar .uint64) ["time_unix_usec"] ++
    many (.scalar .uint32) ["time_boot_ms"]

def vfrHud : MessageT where
  messageId := 74
  messageName := "VFR_HUD"
  fields :=
    many (.scalar .float) ["airspeed", "groundspeed", "alt", "climb"] ++
    many (.scalar .int16) ["heading"] ++
    many (.scalar .uint16) ["throttle"]

def all : List MessageT :=
  [attitude, attitudeQuaternion, authKey, autopilotVersion, changeOperatorControl,
    changeOperatorControlAck, commandAck, commandInt, commandLong, globalPositionInt, gpsRawInt,
    gpsStatus, heartbeat, localPositionNed, paramRequestList, paramRequestRead, paramSet,
    paramValue, rawImu, rawPressure, rcChannelsRaw, rcChannelsScaled, scaledImu, scaledPressure,
    sysStatus, systemTime, vfrHud]

end Avionicpp.Mavlink.Payloads
