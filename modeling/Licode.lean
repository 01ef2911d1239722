import Licode.ByteBufferRun
import Licode.Client.SignOut
import Licode.Server.LoginSession
import Licode.Server.HandleState
import Licode.Server.EventQueue
import Licode.Server.Locks
import Licode.Channel.Offline
import Licode.Channel.Subscribers
import Licode.Media.Dtls
import Licode.Media.SendLoop
import Licode.Media.IceState
import Licode.Media.LocalCandidates
import Licode.Media.TransportState
import Licode.Media.GlobalState
import Licode.Media.VideoSequence
import Licode.Media.RtcpForwarder
import Licode.Media.FeedbackTranslation
import Licode.Media.SdpMalformed
import Licode.Media.SdpRoundTrip
import Licode.Media.Recording
import Licode.Media.PayloadUse
import Licode.Media.PacketOrder
import Licode.Server.SpareNul
import Licode.Server.NoExit
import Licode.Media.FeedbackRouting
import Licode.Media.FanOut
import Licode.Media.PacketCopies
import Licode.Media.Remb
import Licode.Media.RecorderClock
import Licode.Media.CandidateLines
import Licode.Media.CodecCounters
import Licode.Media.PayloadMaps
import Licode.Media.PayloadQueries
import Licode.Media.RtpExtensions
import Licode.Media.ExtensionBlocks
import Licode.Media.RepeatedSdp
import Licode.ByteBufferValues
import Licode.VarIntBytes
import Licode.Media.SubPackets
import Licode.Media.RtcpReports
import Licode.Lib.Merge
import Licode.Media.ReportOrder
import Licode.Media.ReportArithmetic
import Licode.Media.NackSet
import Licode.Lib.Tally
import Licode.Media.StatsTotals
import Licode.Media.Resender
import Licode.Lib.Ownership
import Licode.Channel.PeerMaps
import Licode.Server.Settings
import Licode.Media.TransportTimers
import Licode.Lib.Cuts
import Licode.Media.SplitLoops
import Licode.Login.Handshake
import Licode.Login.ServerPackets
import Licode.Login.ClientPackets
import Licode.Login.Received
import Licode.Login.Steps
import Licode.Login.Completion
import Licode.Login.Agreement
import Licode.Lib.Parity
import Licode.Lib.Peeling
import Licode.Lib.SortedRange
import Licode.Media.FecPackets
import Licode.Media.ForwardErrorCorrection
import Licode.Media.FecDecoder
import Licode.Media.FecReceiver
import Licode.Media.FecRecovery
import Licode.Media.FecInvariant
import Licode.Media.FecSoundness
import Licode.Media.RedPackets
import Licode.Media.FecRun
import Licode.Media.FecGenerator
import Licode.Media.FecCompleteness
import Licode.Media.FecFrame
import Licode.Media.SrtpTransport
import Licode.Media.SrtpSession
import Licode.Lib.FirstOfName
import Licode.Server.IniFile
import Licode.Server.SavedSettings
import Licode.Lib.Lasting
import Licode.Server.Startup
