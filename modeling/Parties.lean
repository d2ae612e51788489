import Parties.Lib.SerialNumber
import Parties.Lib.OrderedMap
import Parties.Lib.Machine
import Parties.Video.Common
import Parties.Video.Decodable
import Parties.Video.FrameReorder
import Parties.Video.FrameReorderRules
import Parties.Video.FrameReorderDelivery
import Parties.Video.FrameReorderInvariant
import Parties.Video.FrameReorderConfluence
import Parties.Voice.Mixer
import Parties.Voice.Capture
import Parties.Voice.CaptureCuts
import Parties.Voice.Lossless
import Parties.Video.Playout
import Parties.Video.ReceiveRouter
import Parties.Video.RouterIsolation
import Parties.Client.WatchHop
import Parties.Client.WatchRestart
import Parties.Protocol
import Parties.Video.Backlog
import Parties.Server.KeyframeRequests
import Parties.Server.KeyframeAnswers
import Parties.Permissions
import Parties.Server.State
import Parties.Server.Streams
import Parties.Server.OutstandingBalance
import Parties.Server.PendingBytes
import Parties.Server.VideoOutstanding
import Parties.Server.VideoPath
import Parties.Server.Handlers
import Parties.Server.IngressStreams
import Parties.Server.KeyframeRuns
import Parties.Server.ListedStreams
import Parties.Server.RegistryRuns
import Parties.Server.OneSession
import Parties.Server.ReplayGuard
import Parties.Server.StreamRegistry
import Parties.Voice.JitterInvariant
import Parties.Voice.StartupOrder
import Parties.Voice.Recovery
import Parties.Wire.ControlFraming
import Parties.Server.ChannelCapacity
import Parties.Server.RoleHierarchy
import Parties.Server.Datagrams
import Parties.Server.FrameOffers
import Parties.Server.HousedStreams
import Parties.Server.MainLoop
import Parties.Server.SubscriptionScope
import Parties.Server.ViewerRuns
import Parties.Server.RunningShares
import Parties.Server.ShareEnds
import Parties.Server.ShareRestart
import Parties.Server.MessageSizes
import Parties.Server.QuietSteps
import Parties.Server.ChannelDeletion
import Parties.Server.StoredRoles
import Parties.Server.AdminRequests
import Parties.Video.PlayoutShift
import Parties.Video.RequestPacing
import Parties.Video.PlayoutQueue
import Parties.Video.LossReports
import Parties.Video.AbortedFrames
import Parties.Wire.VideoFraming
import Parties.Client.VideoSend
import Parties.Lib.Tally
import Parties.Video.SendController
import Parties.Client.SendAccounting
import Parties.Server.FrameIngress
import Parties.Client.FrameReceive
import Parties.Server.FrameForward
import Parties.Client.ChatClient
import Parties.Client.ChatReading
import Parties.Server.StoredChat
import Parties.Client.PinUpdates
import Parties.Client.ChatHop
import Parties.Lib.Announcements
import Parties.Client.ChatView
import Parties.Client.AttachedFiles
import Parties.Server.AttachmentPaths
import Parties.Server.WholeSends
import Parties.Server.FileRetention
import Parties.Client.HistoryPaging
import Parties.Server.GateBackoff
import Parties.Wire.DatagramBacklog
import Parties.Wire.DatagramWaits
import Parties.Lib.StreamCuts
import Parties.Wire.ControlCuts
import Parties.Lib.Binary64
import Parties.Video.RateController
import Parties.Video.RateBounds
import Parties.Video.RatePublish
import Parties.Video.BaseRtt
import Parties.Client.Connection
import Parties.Client.TrustedServer
import Parties.Client.ReconnectPolicy
import Parties.Client.FailedSend
import Parties.Client.CameraRuns
import Parties.Client.TextSegments
import Parties.Wire.FieldSequences
import Parties.Server.ServerQuery
import Parties.Video.StaleFlush
import Parties.Lib.RingSlots
import Parties.Voice.EchoAlignment
import Parties.Server.LobbyRuns
import Parties.Lib.EventLog
import Parties.Video.DecodeLoop
import Parties.Video.DecoderFeed
import Parties.Video.DecoderRequests
import Parties.Video.ViewerDecode
import Parties.Video.EncodeSlots
import Parties.Video.EncodePictures
import Parties.Server.FileTransfers
import Parties.Server.FileDelivery
import Parties.Voice.StreamAudioPlayer
import Parties.Voice.StreamAudioOrder
import Parties.Voice.StreamAudioCuts
import Parties.Client.ServerBrowser
import Parties.Client.ServerPolling
import Parties.Client.ServerStatus
import Parties.Client.WatchGrid
import Parties.Client.GridAgreement
import Parties.Voice.AudioDevices
import Parties.Voice.DeviceOrder
