import RcControl.FrameQueue.Model
import RcControl.Lib.Registry
import RcControl.Lib.Run
import Mathlib.Algebra.Order.Field.Rat
import Mathlib.Data.Rat.Floor

/-!
# The streamer

`addToStream`, `startStream` and the callback that hands each buffer of the encoder to the tracks of
the clients that are ready. The clients are objects behind shared pointers: the registry maps ids to
pointers, and a pointer that is in no entry is dead. The floating-point times are rationals. What
libdatachannel does with a sample is its answer to `send`, which may be an exception.
-/

namespace RcControl.Streaming

open Mmal Lib

/-! ### RTP time -/

/-- `rtc::RtpPacketizationConfig`, as far as the streamer reads and sets it. -/
structure RtpConfig where
  timestamp : BitVec 32
  startTimestamp : BitVec 32
  startTime : ℚ

/-- `H264RtpPacketizer::defaultClockRate`. -/
def clockRate : ℕ := 90 * 1000

/-- `EpochStart::T1970`, the seconds from 1900 to 1970. -/
def epochT1970 : ℕ := 2208988800

/-- `secondsToTimestamp`, for the times that are not negative. -/
def secondsToTimestamp (seconds : ℚ) : BitVec 32 := BitVec.ofInt 32 (seconds * clockRate).floor

def timestampToSeconds (timestamp : BitVec 32) : ℚ := (timestamp.toNat : ℚ) / clockRate

/-- `setStartTime` without a start timestamp, which takes the current one. -/
def RtpConfig.setStartTime (c : RtpConfig) (startTime : ℚ) (epochStart : ℕ) : RtpConfig :=
  { c with startTime := startTime + epochStart, startTimestamp := c.timestamp }

/-- `rtc::RtcpSrReporter`. -/
structure Sender where
  rtpConfig : RtpConfig
  previousReportedTimestamp : BitVec 32
  needsToReport : Bool
  timeOffset : ℚ

def Sender.startRecording (r : Sender) : Sender :=
  { r with
    previousReportedTimestamp := r.rtpConfig.timestamp
    timeOffset := r.rtpConfig.startTime - timestampToSeconds r.rtpConfig.timestamp }

def Sender.setNeedsToReport (r : Sender) : Sender := { r with needsToReport := true }

/-- A report that was asked for goes out before the packet. -/
def Sender.report (r : Sender) : Sender :=
  if r.needsToReport then
    { r with needsToReport := false, previousReportedTimestamp := r.rtpConfig.timestamp }
  else r

/-! ### Clients -/

/-- `Client::State`. -/
inductive State where
  | Waiting | WaitingForVideo | WaitingForAudio | Ready
  deriving DecidableEq

/-- `Client`, with the reporter of its video track. -/
structure Client where
  state : State
  video : Option Sender

/-- What the streamer does to a client, in the order it does it. -/
inductive Action where
  /-- `setStartTime` has returned. -/
  | setStartTime (c : ℕ)
  /-- `startRecording` has returned. -/
  | startRecording (c : ℕ)
  /-- `track->send(sample)` has returned, or thrown. -/
  | send (c : ℕ) (sample : List UInt8) (threw : Bool)

/-- What happens around the streamer. -/
inductive Event (κ : Type) where
  /-- A client is created, its RTP time beginning at `timestamp`, and emplaced in `clients`. -/
  | register (id : κ) (timestamp : BitVec 32)
  /-- The track of the client opens at the time `now`, in microseconds. -/
  | trackOpen (c : ℕ) (now : ℕ)
  /-- The client under `id` is hung up and erased. -/
  | hangup (id : κ)
  /-- The recorder hands over a buffer; `throws` says whose `send` fails. -/
  | camBuffer (x : BufferHeader) (throws : ℕ → Bool)

end RcControl.Streaming

namespace RcControl

open Lib Mmal Streaming

/-- The state of the streamer. -/
structure Streamer (κ : Type) [DecidableEq κ] where
  clients : Registry κ ℕ
  /-- The objects behind the pointers. -/
  object : ℕ → Client
  /-- The next pointer `make_shared` gives out. -/
  next : ℕ
  /-- `onCamBuffer` holds a function. -/
  onCamBuffer : Bool
  frameQueue : FrameQueue

namespace Streamer

variable {κ : Type} [DecidableEq κ]

/-- No clients, and the queue as the recorder has set it up. -/
def start (q : FrameQueue) : Streamer κ where
  clients := ∅
  object := fun _ => ⟨.Waiting, none⟩
  next := 0
  onCamBuffer := false
  frameQueue := q

/-- The client is in `clients`, so that a weak pointer to it can be locked. -/
def alive (s : Streamer κ) (c : ℕ) : Bool := s.clients.entries.any fun e => e.2 == c

/-- `createPeerConnection`: a client that waits, with a video track. -/
def createClient (s : Streamer κ) (timestamp : BitVec 32) : ℕ × Streamer κ :=
  (s.next, { s with
    object := Function.update s.object s.next ⟨.Waiting, some ⟨⟨timestamp, 0, 0⟩, 0, false, 0⟩⟩
    next := s.next + 1 })

def register (s : Streamer κ) (id : κ) (timestamp : BitVec 32) : Streamer κ :=
  let (c, s) := createClient s timestamp
  { s with clients := s.clients.emplace id c }

def startStream (s : Streamer κ) : Streamer κ := { s with onCamBuffer := true }

/-- `addToStream`; `now` is the wall clock in microseconds. Without a video track `value()` throws. -/
def addToStream (s : Streamer κ) (c : ℕ) (now : ℕ) : List Action × Streamer κ :=
  match (s.object c).video with
  | none => ([], s)
  | some video =>
    let currentTime_s : ℚ := (now : ℚ) / (1000 * 1000)
    let video := { video with rtpConfig := video.rtpConfig.setStartTime currentTime_s epochT1970 }
    let video := video.startRecording
    let s := { s with object := Function.update s.object c ⟨.Ready, some video⟩ }
    ([.setStartTime c, .startRecording c], startStream s)

/-- The callback of the track: the weak pointer is locked when the dispatched function runs. -/
def onOpen (s : Streamer κ) (c : ℕ) (now : ℕ) : List Action × Streamer κ :=
  if s.alive c then addToStream s c now else ([], s)

def hangup (s : Streamer κ) (id : κ) : Streamer κ := { s with clients := s.clients.erase id }

/-- The tracks the callback collects: those of the clients that are ready. -/
def tracks (s : Streamer κ) : List ℕ :=
  (s.clients.entries.map Sigma.snd).filter fun c =>
    (s.object c).state == .Ready && (s.object c).video.isSome

/-- The sample: the bytes in use, copied one by one. -/
def sampleOf (x : BufferHeader) : List UInt8 := x.payload

/-- The RTP time of a sample, and whether a sender report is due. -/
def stamp (x : BufferHeader) (video : Sender) : Sender :=
  let sampleTime := x.dts.toNat
  let elapsedSeconds : ℚ := (sampleTime : ℚ) / (1000 * 1000)
  let elapsedTimestamp := secondsToTimestamp elapsedSeconds
  let video := { video with rtpConfig :=
    { video.rtpConfig with timestamp := video.rtpConfig.startTimestamp + elapsedTimestamp } }
  let reportElapsedTimestamp := video.rtpConfig.timestamp - video.previousReportedTimestamp
  if 1 < timestampToSeconds reportElapsedTimestamp then video.setNeedsToReport else video

/-- One round of the loop over the tracks. An exception ends the round, not the loop. -/
def sendSample (x : BufferHeader) (throws : Bool) (object : ℕ → Client) (c : ℕ) :
    Action × (ℕ → Client) :=
  (.send c (sampleOf x) throws,
    Function.update object c { object c with
      video := (object c).video.map fun video =>
        if throws then stamp x video else (stamp x video).report })

/-- The loop over the tracks. -/
def sendAll (x : BufferHeader) (throws : ℕ → Bool) (object : ℕ → Client) :
    List ℕ → List Action × (ℕ → Client)
  | [] => ([], object)
  | c :: cs =>
    let (a, object) := sendSample x (throws c) object c
    let (as, object) := sendAll x throws object cs
    (a :: as, object)

/-- The function `startStream` stores in `onCamBuffer`. -/
def camCallback (pf : FrameQueue.Platform) (s : Streamer κ) (x : BufferHeader) (throws : ℕ → Bool) :
    Except FrameQueue.Fault (List Action × Streamer κ) :=
  match FrameQueue.writeBack pf s.frameQueue (some x) with
  | .error f => .error f
  | .ok (_, q) =>
    let (_, q) := FrameQueue.readFront q
    let (actions, object) := sendAll x throws s.object s.tracks
    .ok (actions, { s with frameQueue := q, object := object })

def step (pf : FrameQueue.Platform) (s : Streamer κ) :
    Event κ → Except FrameQueue.Fault (List Action × Streamer κ)
  | .register id timestamp => .ok ([], s.register id timestamp)
  | .trackOpen c now => .ok (s.onOpen c now)
  | .hangup id => .ok ([], s.hangup id)
  | .camBuffer x throws => if s.onCamBuffer then s.camCallback pf x throws else .ok ([], s)

end Streamer

end RcControl
