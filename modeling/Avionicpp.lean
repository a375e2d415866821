import Avionicpp.Coroutine.Framers
import Avionicpp.Mavlink.ErrorDetection
import Avionicpp.Mavlink.Exchange
import Avionicpp.Mavlink.FrameDistance
import Avionicpp.Mavlink.FramerBounds
import Avionicpp.Mavlink.GpsRawInt
import Avionicpp.Mavlink.PeerFrames
import Avionicpp.Mavlink.Recovery
import Avionicpp.Mavlink.Resynchronization
import Avionicpp.Mavlink.RoundTrip
import Avionicpp.Mavlink.Segmentation
import Avionicpp.Mavlink.Truncation
import Avionicpp.Mavlink.ViewLifetime
import Avionicpp.Nmea0183.Carriage
import Avionicpp.Nmea0183.ChecksumAgreement
import Avionicpp.Nmea0183.CoordinateText
import Avionicpp.Nmea0183.Coordinates
import Avionicpp.Nmea0183.Dispatch
import Avionicpp.Nmea0183.FieldGrammar
import Avionicpp.Nmea0183.FramerBounds
import Avionicpp.Nmea0183.FramerRecovery
import Avionicpp.Nmea0183.FramerSoundness
import Avionicpp.Nmea0183.LineErrors
import Avionicpp.Nmea0183.Receiver
import Avionicpp.Nmea0183.RoundTrip
import Avionicpp.Nmea0183.Segmentation
import Avionicpp.Nmea0183.SerializerBounds
import Avionicpp.Nmea0183.TimeText
import Avionicpp.Nmea0183.TimestampRoundTrip
import Avionicpp.Nmea0183.TimestampValidation
import Avionicpp.Nmea0183.ViewLifetime
import Avionicpp.Uart.CommState
import Avionicpp.Uart.DescriptorOwnership
import Avionicpp.Uart.HandleOwnership
import Avionicpp.Uart.LineAgreement
import Avionicpp.Uart.PortSettings
import Avionicpp.Uart.PosixTransfer
import Avionicpp.Uart.Win32Transfer
