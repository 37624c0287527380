import RcControl.Lib.Run
import RcControl.Lib.Unwinding
import RcControl.Lib.Registry
import RcControl.Lib.NalStream
import RcControl.Lib.Serial
import RcControl.FrameQueue.Model
import RcControl.FrameQueue.Reassembly
import RcControl.FrameQueue.HighWater
import RcControl.FrameQueue.Holes
import RcControl.Server.Isolation
import RcControl.Server.Reconnect
import RcControl.Server.LateOffer
import RcControl.Server.AllOrNothing
import RcControl.Streaming.FanOut
import RcControl.Streaming.Packetise
import RcControl.Streaming.Drive
import RcControl.Streaming.RtpTime
import RcControl.Lib.Custody
import RcControl.Recorder.Flow
import RcControl.Signalling.Teardown
import RcControl.Signalling.Handle
import RcControl.Signalling.Order
import RcControl.Lib.Lifecycle
import RcControl.Recorder.Discipline
import RcControl.FrameQueue.Reinit
import RcControl.FrameQueue.HandedOut
import RcControl.FrameQueue.Clear
import RcControl.FrameQueue.FrameFlags
import RcControl.FrameQueue.Construction
import RcControl.Recorder.Report
import RcControl.Recorder.PortBuffers
import RcControl.Streaming.Reports
import RcControl.Lib.Gate
import RcControl.Browser.Candidates
import RcControl.Lib.While
import RcControl.Lib.Links
import RcControl.Mmal.Queue
import RcControl.Mmal.Port
import RcControl.Recorder.Fill
import RcControl.Lib.Crew
import RcControl.Dispatch.Model
import RcControl.Dispatch.Order
import RcControl.Dispatch.Rest
import RcControl.Streaming.Dispatched
import RcControl.Mmal.Reference
import RcControl.Mmal.Traffic
import RcControl.Mmal.LinkedPort
import RcControl.Vcos.Delivery
import RcControl.Streaming.EndToEnd
import RcControl.Recorder.Progress
import RcControl.Mmal.Service
import RcControl.Mmal.Lifetime
import RcControl.Vcos.Lending
