import TinyRtc.Common
import TinyRtc.BigEndian
import TinyRtc.CString
import TinyRtc.Decimal
import TinyRtc.SlotArray
import TinyRtc.PairGrid
import TinyRtc.LabelledRuns
import TinyRtc.SerialNumbers
import TinyRtc.Chunking
import TinyRtc.MarkedRuns
import TinyRtc.CounterMode
import TinyRtc.CrcDivision
import TinyRtc.BinaryRounding
import TinyRtc.BoundedReads
import TinyRtc.PolledStream
import TinyRtc.TracedPrograms
import TinyRtc.TypeLengthValue
import TinyRtc.MediaCodec
import TinyRtc.Rtp
import TinyRtc.RtpReads
import TinyRtc.Packetization
import TinyRtc.Rtcp
import TinyRtc.AnnexB
import TinyRtc.FuaFragments
import TinyRtc.H264RoundTrip
import TinyRtc.FrameNalus
import TinyRtc.DelimitedNalus
import TinyRtc.GenericChunks
import TinyRtc.Sdp
import TinyRtc.SdpGenerator
import TinyRtc.SdpParser
import TinyRtc.SdpScanning
import TinyRtc.SdpLines
import TinyRtc.SdpMediaLines
import TinyRtc.SdpCandidateLines
import TinyRtc.SdpRoundTrip
import TinyRtc.SdpCursor
import TinyRtc.SdpBounds
import TinyRtc.SdpTextLines
import TinyRtc.Srtp
import TinyRtc.SrtpKeystream
import TinyRtc.Inet
import TinyRtc.Stun
import TinyRtc.Ice
import TinyRtc.IceMatching
import TinyRtc.IceEffects
import TinyRtc.ReflexiveCandidates
import TinyRtc.CandidateTables
import TinyRtc.SelectedPair
import TinyRtc.Dtls
import TinyRtc.Jitter
import TinyRtc.CongestionControl
import TinyRtc.Pacing
import TinyRtc.Connection
import TinyRtc.Negotiation
import TinyRtc.MediaSend
import TinyRtc.IncomingRtp
import TinyRtc.ProcessEvents
import TinyRtc.SrtpRoundTrip
import TinyRtc.CallEffects
import TinyRtc.SecureMedia
import TinyRtc.AuthenticatedMedia
import TinyRtc.FingerprintBinding
import TinyRtc.FrameAssembly
import TinyRtc.MediaDelivery
import TinyRtc.LossyDelivery
import TinyRtc.FrameTimestamps
import TinyRtc.JitterRuns
import TinyRtc.PlayoutOrder
import TinyRtc.JitterAtomicity
import TinyRtc.MinimumDelay
import TinyRtc.ClosedState
import TinyRtc.RemoteAtomicity
import TinyRtc.RemoteTracks
import TinyRtc.DtlsRoles
import TinyRtc.AnswerMedia
import TinyRtc.LocalTracks
import TinyRtc.SendSteps
import TinyRtc.NegotiatedPayload
import TinyRtc.SequenceNumbers
import TinyRtc.MarkerPlacement
import TinyRtc.PacketizerBounds
import TinyRtc.GenericDelivery
import TinyRtc.SecureSending
import TinyRtc.TrickledCandidates
import TinyRtc.Demultiplexing
import TinyRtc.Signaling
import TinyRtc.SignalingEscape
import TinyRtc.SignalingExtract
import TinyRtc.FormattedScan
import TinyRtc.SignalingMessages
import TinyRtc.SignalingCandidates
import TinyRtc.CandidateParsers
import TinyRtc.StunFinalize
import TinyRtc.StunFingerprint
import TinyRtc.StunReads
import TinyRtc.StunMessages
import TinyRtc.WebSocket
import TinyRtc.WebSocketSegmentation
import TinyRtc.WebSocketFrames
import TinyRtc.WebSocketFragments
import TinyRtc.ReceiveBuffers
import TinyRtc.BufferRefinement
import TinyRtc.HostPriorities
import TinyRtc.SignalingDrain
import TinyRtc.RecognisedMessages
import TinyRtc.LastWrites
import TinyRtc.SdpBuffer
import TinyRtc.MappedAddresses
import TinyRtc.CheckAddresses
import TinyRtc.SdpSections
import TinyRtc.SectionEffects
import TinyRtc.CodecIdentification
import TinyRtc.MediaDirections
import TinyRtc.SdpLineStarts
import TinyRtc.FlatJson
import TinyRtc.JsonFields
import TinyRtc.RateAdaptation
import TinyRtc.ReportAccess
import TinyRtc.RtpPadding
import TinyRtc.SendResults
import TinyRtc.Base64
import TinyRtc.Base64Encoder
import TinyRtc.ArrayRemoval
import TinyRtc.SizeConversions
import TinyRtc.PeerList
import TinyRtc.SdpOrigins
import TinyRtc.LineEnds
import TinyRtc.SdpLineEnds
import TinyRtc.ComponentRuns
import TinyRtc.ContextEvents
import TinyRtc.ContextRuns
import TinyRtc.SessionKeys
import TinyRtc.SecureSession
import TinyRtc.MediaSessions
import TinyRtc.TerminatedReads
import TinyRtc.HeaderLines
import TinyRtc.WebSocketHandshake
import TinyRtc.SignalingUrl
import TinyRtc.FramedStreams
import TinyRtc.SignalingCreate
import TinyRtc.SignalingSession
import TinyRtc.CertifiedContexts
import TinyRtc.CarriedDescriptions
import TinyRtc.DescriptionExchange
import TinyRtc.TwoParties
import TinyRtc.DottedQuads
import TinyRtc.IceCallEffects
import TinyRtc.IceNetwork
import TinyRtc.IceRoundTrips
import TinyRtc.SignalledDescriptions
import TinyRtc.OnePlaceMailboxes
import TinyRtc.DtlsDatagrams
import TinyRtc.SenderReports
import TinyRtc.RemoteTrackRuns
import TinyRtc.TrackIsolation
import TinyRtc.NegotiatedMedia
import TinyRtc.VideoStreams
