import Nais.Lib.Base128
import Nais.Lib.Cut
import Nais.Lib.Memory
import Nais.Lib.Run
import Nais.Lib.Wire
import Nais.Lib.Refine
import Nais.Lib.Cursor
import Nais.Board.Nais
import Nais.Board.Unmarshall
import Nais.Board.Bocia
import Nais.Board.Reply
import Nais.Board.Answers
import Nais.Board.Tcp
import Nais.Board.Safety
import Nais.Board.Uart
import Nais.Host.Marshall
import Nais.Host.Tape
import Nais.Host.Framing
import Nais.Host.Records
import Nais.Host.RecordKind
import Nais.Host.Resync
import Nais.Host.IotTest
import Nais.Host.Registry
import Nais.Host.WaitAck
import Nais.Host.Models
import Nais.Lib.Json
import Nais.Host.WsText
import Nais.Host.Cleanup
import Nais.Host.Packet
import Nais.Host.Unmarshall
import Nais.Host.Dispatch
import Nais.Host.Emission
import Nais.Host.Line
import Nais.Host.Heirs
import Nais.Host.LeftAlone
import Nais.Host.Idle
import Nais.Host.Broadcast
import Nais.Host.Delivery
import Nais.Host.Junction
import Nais.Host.Lifecycle
import Nais.Lib.Chain
import Nais.Codec
import Nais.Timer.Xtimer
import Nais.Timer.Insertion
import Nais.Timer.Machine
import Nais.Timer.Order
import Nais.Timer.Ahead
import Nais.Timer.Early
import Nais.Timer.Wakeup
import Nais.Timer.Reading
import Nais.Timer.Wrap
import Nais.Timer.WrapHandler
import Nais.Timer.MatchHandler
import Nais.Timer.Deadlines
import Nais.Timer.Periodic
import Nais.Board.ReadLine
import Nais.Lib.Halt
import Nais.Board.HexDump
import Nais.Timer.Armed
import Nais.Board.Channels
import Nais.Board.EventLoop
import Nais.Board.Wakeup
import Nais.Board.CloseSoon
import Nais.Board.RemoteDebug
import Nais.Timer.Clock
import Nais.Board.ConfigFile
import Nais.Board.ConfigPath
import Nais.Board.UartReader
import Nais.Board.UartBounds
import Nais.Board.UartSound
import Nais.Board.Encoders
import Nais.Lib.Ledger
import Nais.Board.Mqtt
import Nais.Board.Connections
import Nais.Board.Ownership
import Nais.Host.Routing
import Nais.Board.TcpServer
import Nais.Board.Transmit
import Nais.Board.MqttInit
import Nais.Lib.Stock
import Nais.Protobuf.Descriptor
import Nais.Protobuf.Tables
import Nais.Protobuf.Unpack
import Nais.Lib.Route
import Nais.Protobuf.Meaning
import Nais.Protobuf.Varint
import Nais.Protobuf.Scan
import Nais.Protobuf.Parse
import Nais.Protobuf.Decode
import Nais.Protobuf.Pack
import Nais.Protobuf.Encode
import Nais.Protobuf.Written
import Nais.Protobuf.RoundTrip
import Nais.Protobuf.Merge
import Nais.Protobuf.Overread
import Nais.Protobuf.Messages
import Nais.Board.SyncPool
import Nais.Board.MqttReceiver
import Nais.Board.Published
import Nais.System
