import GpsNtp.Machinery.MachineInt
import GpsNtp.Machinery.Run
import GpsNtp.Machinery.Bytes
import GpsNtp.Machinery.AcceptTable
import GpsNtp.Machinery.Seqlock
import GpsNtp.Machinery.EdgeTrain
import GpsNtp.Machinery.Utf8
import GpsNtp.Machinery.Ascii
import GpsNtp.Machinery.VarText
import GpsNtp.Machinery.Lines
import GpsNtp.Machinery.Trim
import GpsNtp.Machinery.Split
import GpsNtp.Machinery.Volume
import GpsNtp.Machinery.Ewma
import GpsNtp.Machinery.Fraction
import GpsNtp.Machinery.TopBits
import GpsNtp.Machinery.Parity
import GpsNtp.Machinery.Calendar
import GpsNtp.Machinery.Bcd
import GpsNtp.Machinery.Mpsc
import GpsNtp.Machinery.Search
import GpsNtp.Machinery.FlatJson
import GpsNtp.Machinery.Refine
import GpsNtp.Machinery.LeadsTo
import GpsNtp.Machinery.Serve
import GpsNtp.Machinery.Markup
import GpsNtp.Machinery.Sorted
import GpsNtp.Pps.Monitor
import GpsNtp.Ntp.Protection
import GpsNtp.Ntp.RateLimit
import GpsNtp.Ntp.Allowlist
import GpsNtp.Ntp.Cidr
import GpsNtp.Ntp.Server
import GpsNtp.Ntp.Pulse
import GpsNtp.Ntp.WellFormed
import GpsNtp.Ntp.Discipline
import GpsNtp.Ntp.Packet
import GpsNtp.Ntp.Poll
import GpsNtp.Ntp.Discard
import GpsNtp.Ntp.Runs
import GpsNtp.Ntp.SyncState
import GpsNtp.Ntp.Bootstrap
import GpsNtp.Ntp.TimestampOrder
import GpsNtp.Ntp.Dispersion
import GpsNtp.Ntp.Recovery
import GpsNtp.Ntp.Confirmation
import GpsNtp.Ntp.IntegerSecond
import GpsNtp.Ntp.Rejected
import GpsNtp.Ntp.Reflection
import GpsNtp.Ntp.Shapes
import GpsNtp.Ntp.ServoRange
import GpsNtp.Ntp.Convergence
import GpsNtp.Ntp.Encoding
import GpsNtp.Pps.RangeFilter
import GpsNtp.Ntp.Diagnostics
import GpsNtp.Ntp.Framing
import GpsNtp.Sdlog.Queue
import GpsNtp.Sdlog.Flush
import GpsNtp.Sdlog.Accounted
import GpsNtp.Sdlog.Conservation
import GpsNtp.Sdlog.Form
import GpsNtp.Sdlog.Delete
import GpsNtp.Sdlog.Download
import GpsNtp.Sdlog.Listing
import GpsNtp.Sdlog.Press
import GpsNtp.Gps.Nmea
import GpsNtp.Gps.Sentence
import GpsNtp.Gps.Checksum
import GpsNtp.Gps.Datetime
import GpsNtp.Gps.Uart
import GpsNtp.Gps.Chunking
import GpsNtp.Gps.Splice
import GpsNtp.Rtc.Registers
import GpsNtp.Rtc.Clock
import GpsNtp.Rtc.Bus
import GpsNtp.Ui.Shown
import GpsNtp.Ui.TimeSource
import GpsNtp.Ui.Pages
import GpsNtp.Timezone.Worker
import GpsNtp.Timezone.Cache
import GpsNtp.Timezone.Json
import GpsNtp.App.Lookups
import GpsNtp.App.Feedback
import GpsNtp.Board.Pins
import GpsNtp.Scripts.Query
import GpsNtp.Scripts.Load
import GpsNtp.Storage.Deadline
import GpsNtp.Storage.Calls
import GpsNtp.Storage.Progress
import GpsNtp.Storage.Usage
