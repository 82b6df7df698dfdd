import TcpFuzz.Lib.Bytes
import TcpFuzz.Lib.EndAroundCarry
import TcpFuzz.Packet.Header
import TcpFuzz.Packet.Fields
import TcpFuzz.Packet.Parser
import TcpFuzz.Packet.Wire
import TcpFuzz.Packet.ParserCorrect
import TcpFuzz.Lib.Peek
import TcpFuzz.Packet.Scan
import TcpFuzz.Packet.ParserReads
import TcpFuzz.Packet.Metadata
import TcpFuzz.Packet.Lengths
import TcpFuzz.Packet.Build
import TcpFuzz.Packet.Icmp
import TcpFuzz.Packet.IpHeader
import TcpFuzz.Packet.Built
import TcpFuzz.Packet.RoundTrip
import TcpFuzz.Packet.IcmpRoundTrip
import TcpFuzz.Packet.Checksum
import TcpFuzz.Packet.InternetChecksum
import TcpFuzz.Packet.ChecksumPacket
import TcpFuzz.Lib.Crc
import TcpFuzz.Packet.SctpCrc
import TcpFuzz.Packet.Encapsulate
import TcpFuzz.Packet.GreHeader
import TcpFuzz.Packet.Finish
import TcpFuzz.Packet.HeaderOrder
import TcpFuzz.Packet.Encapsulated
import TcpFuzz.Packet.Aggregate
import TcpFuzz.Packet.Placed
import TcpFuzz.Tcp.Options
import TcpFuzz.Tcp.OptionWalk
import TcpFuzz.Tcp.OptionAccess
import TcpFuzz.Live.Socket
import TcpFuzz.Live.Address
import TcpFuzz.Live.Mapping
import TcpFuzz.Live.Inbound
import TcpFuzz.Live.Stream
import TcpFuzz.Live.Consistency
import TcpFuzz.Live.Outbound
import TcpFuzz.Live.Translation
import TcpFuzz.Live.HashMap
import TcpFuzz.Live.Verify
import TcpFuzz.Live.FlowLabel
import TcpFuzz.Live.Sniffed
import TcpFuzz.Live.Aggregated
import TcpFuzz.Live.Timestamps
import TcpFuzz.Live.TupleFrame
import TcpFuzz.Live.OutboundOptions
import TcpFuzz.Live.Lookup
import TcpFuzz.Live.SocketSteps
import TcpFuzz.Live.IsnSteps
import TcpFuzz.Live.Isn
import TcpFuzz.Syscall.Thread
import TcpFuzz.Syscall.Fds
import TcpFuzz.Syscall.Args
import TcpFuzz.Syscall.OptStats
import TcpFuzz.Syscall.Handlers
import TcpFuzz.Syscall.Invoke
import TcpFuzz.Wire.Conn
import TcpFuzz.Wire.Argv
import TcpFuzz.Wire.System
import TcpFuzz.Wire.Stages
import TcpFuzz.Wire.LockStep
import TcpFuzz.Wire.Frames
import TcpFuzz.Wire.Setup
import TcpFuzz.Wire.EventTimes
import TcpFuzz.Wire.EventWait
import TcpFuzz.Fuzz.Input
import TcpFuzz.Fuzz.Packet
import TcpFuzz.Fuzz.Generated
import TcpFuzz.Lib.Regex
import TcpFuzz.Lib.Scanner
import TcpFuzz.Lib.Traced
import TcpFuzz.Script.Lexer
import TcpFuzz.Script.TcpOption
import TcpFuzz.Script.Expression
import TcpFuzz.Script.Escapes
import TcpFuzz.Script.FlagNames
import TcpFuzz.Script.OptionList
import TcpFuzz.Script.Grammar
import TcpFuzz.Script.SpecPacket
import TcpFuzz.Script.PacketPrefix
import TcpFuzz.Script.PacketToString
import TcpFuzz.Script.DumpLength
import TcpFuzz.Script.CStrings
import TcpFuzz.Fuzz.Inject
import TcpFuzz.Fuzz.Result
import TcpFuzz.Fuzz.Driver
import TcpFuzz.Fuzz.Chunks
import TcpFuzz.Fuzz.Steps
import TcpFuzz.Fuzz.Report
import TcpFuzz.Fuzz.ScriptText
import TcpFuzz.Fuzz.Room
import TcpFuzz.Fuzz.RoomSteps
import TcpFuzz.Fuzz.ScriptRoom
import TcpFuzz.Fuzz.Compare
import TcpFuzz.Fuzz.Choices
import TcpFuzz.Fuzz.OnceSteps
import TcpFuzz.Fuzz.Once
import TcpFuzz.Fuzz.Repeated
import TcpFuzz.Fuzz.Tracks
import TcpFuzz.Fuzz.Stimuli
