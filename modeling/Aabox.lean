import Aabox.AudioInbound
import Aabox.AudioLog
import Aabox.AudioRuns
import Aabox.BringUp
import Aabox.Cancellation
import Aabox.ChannelMap
import Aabox.ChannelPlan
import Aabox.Channels
import Aabox.Control
import Aabox.ControlLoop
import Aabox.Conversation
import Aabox.Delivery
import Aabox.DestinationWatch
import Aabox.Dispatch
import Aabox.Encoders
import Aabox.Encrypted
import Aabox.FeedLoops
import Aabox.FixRouting
import Aabox.FlowControl
import Aabox.FrameStream
import Aabox.Framing
import Aabox.Generations
import Aabox.HandleFrame
import Aabox.Handlers.Audio
import Aabox.Handlers.Sensor
import Aabox.Handlers.Video
import Aabox.Handshake
import Aabox.HeadUnit
import Aabox.InboundFragments
import Aabox.Lib.Adler
import Aabox.Lib.Base64
import Aabox.Lib.Bytes
import Aabox.Lib.Chunks
import Aabox.Lib.Edits
import Aabox.Lib.Fallible
import Aabox.Lib.Feed
import Aabox.Lib.Fifo
import Aabox.Lib.Groups
import Aabox.Lib.Loop
import Aabox.Lib.Mpsc
import Aabox.Lib.Prefixed
import Aabox.Lib.Protobuf
import Aabox.Lib.Reader
import Aabox.Lib.Refine
import Aabox.Lib.Run
import Aabox.Lib.Sweep
import Aabox.Lib.Text
import Aabox.Lib.Watch
import Aabox.Lib.Wire
import Aabox.LivePath
import Aabox.MapRuns
import Aabox.MessageLoop
import Aabox.Messages
import Aabox.Nal
import Aabox.NavPipeline
import Aabox.NavRoutes
import Aabox.NavRunner
import Aabox.Osrm
import Aabox.OsrmRoute
import Aabox.Picture
import Aabox.Pings
import Aabox.ReadFrame
import Aabox.Resigner.Atomic
import Aabox.Resigner.Cert
import Aabox.Resigner.Checked
import Aabox.Resigner.Complete
import Aabox.Resigner.Dalvik
import Aabox.Resigner.Dex
import Aabox.Resigner.Eocd
import Aabox.Resigner.Frame
import Aabox.Resigner.Grammar
import Aabox.Resigner.Intact
import Aabox.Resigner.Layout
import Aabox.Resigner.Lookup
import Aabox.Resigner.Overflow
import Aabox.Resigner.Process
import Aabox.Resigner.Repack
import Aabox.Resigner.Rewrite
import Aabox.Resigner.Semantics
import Aabox.Resigner.Sign
import Aabox.Resigner.SignVerify
import Aabox.Resigner.SignedApk
import Aabox.Resigner.StaticWalk
import Aabox.Resigner.Uleb
import Aabox.Resigner.Verify
import Aabox.Resigner.Walk
import Aabox.Resigner.Watcher
import Aabox.ScreenRecord
import Aabox.SendEncrypted
import Aabox.Startup
import Aabox.TlsTunnel
import Aabox.TunnelPipe
import Aabox.UsbData
import Aabox.UsbStream
import Aabox.VideoRuns
import Aabox.VideoStart
import Aabox.WindDown
import Aabox.WireLog
