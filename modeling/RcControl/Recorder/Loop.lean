import RcControl.Lib.Run
import RcControl.Mmal.Core
import Mathlib.Logic.Function.Basic

/-!
# The main loop of the recorder

`start_recorder` once its ports are enabled without a tunnel: two pools, two queues, three ports, and
the loop. The loop goes on by one call of MMAL at a time, and between any two calls (so also inside
`send_buffer_from_queue`) the ports may call back. A header is its pool and its place in that pool:
what it carries is not looked at here.

That a port hands back what it was sent, each header by one callback, is assumed of MMAL: a callback
with any other header is a fault. So is what the release of a header does, which is to put it in the
queue of its pool.
-/

namespace RcControl.Recorder

open Mmal Lib

/-- The pools: the two of `start_recorder`, and those the components take event headers from. -/
inductive PoolId where
  | encoderIn | encoderOut | cameraEvents | encoderEvents
  deriving DecidableEq

/-- An `MMAL_BUFFER_HEADER_T *`. -/
structure Header where
  pool : PoolId
  nth : ℕ
  deriving DecidableEq

inductive PortId where
  | videoPort | encoderInput | encoderOutput
  deriving DecidableEq

/-- The pool an event at the port takes its header from. -/
def PortId.eventPool : PortId → PoolId
  | .videoPort => .cameraEvents
  | .encoderInput | .encoderOutput => .encoderEvents

/-- The calls of `send_buffer_from_queue`: two inside `fill_port_from_pool`, one that passes frames on. -/
inductive Call where
  | fillVideo | fillEncoder | forward
  deriving DecidableEq

/-- The port a call sends to. -/
def Call.port : Call → PortId
  | .fillVideo => .videoPort
  | .fillEncoder => .encoderOutput
  | .forward => .encoderInput

/-- Where the loop is. -/
inductive Point where
  /-- `vcos_event_flags_get`, then the look at `*stop`. -/
  | wait
  /-- The `while` of `fill_port_from_pool`, with `status` a success. -/
  | fill (call : Call)
  /-- `mmal_queue_get` in `send_buffer_from_queue`. -/
  | get (call : Call)
  /-- `mmal_port_send_buffer`, with the buffer in hand. -/
  | send (call : Call) (buffer : Header)
  /-- `mmal_queue_put_back`, after the send has failed. -/
  | putBack (call : Call) (buffer : Header) (status : Status)
  /-- `mmal_queue_get(queue_encoder_out)`. -/
  | take
  /-- The streaming callback. -/
  | process (buffer : Header)
  /-- `mmal_buffer_header_release`. -/
  | release (buffer : Header)
  /-- The change of a camera parameter. -/
  | change
  /-- The loop is left. -/
  | left (status : Status)
  deriving DecidableEq

/-- What an event shows. -/
inductive Note where
  /-- The port called back with a buffer. -/
  | returned (port : PortId) (buffer : Header)
  /-- The port was sent a buffer, and took it. -/
  | sent (port : PortId) (buffer : Header)
  /-- The streaming callback was called. -/
  | seen (buffer : Header)
  deriving DecidableEq

inductive Fault where
  /-- The port calls back with a header it was not sent. -/
  | notHeld
  deriving DecidableEq

/-- What can happen next. -/
inductive Event where
  /-- The loop makes its next call; `stop` and `status` are what it finds in `*stop` and what
  `mmal_port_send_buffer` returns. -/
  | loop (stop : Bool) (status : Status)
  /-- The port calls back. -/
  | callback (port : PortId) (buffer : Header) (cmd : BitVec 32)

end RcControl.Recorder

namespace RcControl

open Mmal Recorder

/-- The state of the recorder. -/
structure Recorder where
  /-- The queue of each pool. -/
  pool : PoolId → Queue Header
  /-- What each port was sent and has not returned. -/
  held : PortId → List Header
  queueEncoderIn : Queue Header
  queueEncoderOut : Queue Header
  point : Point

namespace Recorder

/-- As many headers in each pool as `size` says, all of them in its queue. -/
def start (size : PoolId → ℕ) : Recorder where
  pool p := (List.range (size p)).map (Header.mk p)
  held _ := []
  queueEncoderIn := []
  queueEncoderOut := []
  point := .wait

def setPool (s : Recorder) (p : PoolId) (q : Queue Header) : Recorder :=
  { s with pool := Function.update s.pool p q }

def setHeld (s : Recorder) (p : PortId) (l : List Header) : Recorder :=
  { s with held := Function.update s.held p l }

/-- The queue a call takes from. -/
def source (s : Recorder) : Call → Queue Header
  | .fillVideo => s.pool .encoderIn
  | .fillEncoder => s.pool .encoderOut
  | .forward => s.queueEncoderIn

def setSource (s : Recorder) (call : Call) (q : Queue Header) : Recorder :=
  match call with
  | .fillVideo => s.setPool .encoderIn q
  | .fillEncoder => s.setPool .encoderOut q
  | .forward => { s with queueEncoderIn := q }

/-- `mmal_buffer_header_release`, of the last reference. -/
def bufferHeaderRelease (s : Recorder) (buffer : Header) : Recorder :=
  s.setPool buffer.pool ((s.pool buffer.pool).put buffer)

/-! ### The loop -/

/-- What comes after `fill_port_from_pool` with a success, and after the frame is passed on. -/
def afterCall : Call → Point
  | .fillVideo => .fill .fillEncoder
  | .fillEncoder => .get .forward
  | .forward => .take

/-- What comes after `send_buffer_from_queue` with a success: another round of the `while`, if there
is one. -/
def afterSend : Call → Point
  | .fillVideo => .fill .fillVideo
  | .fillEncoder => .fill .fillEncoder
  | .forward => afterCall .forward

/-- `send_buffer_from_queue`, up to the send. -/
def takeFromQueue (s : Recorder) (call : Call) : Recorder :=
  match (s.source call).get with
  | none => { s with point := afterSend call }
  | some (buffer, q) => { s.setSource call q with point := .send call buffer }

/-- The send. -/
def sendToPort (s : Recorder) (call : Call) (buffer : Header) (status : Status) :
    List Note × Recorder :=
  if status = .success then
    ([.sent call.port buffer],
      { s.setHeld call.port (s.held call.port ++ [buffer]) with point := afterSend call })
  else ([], { s with point := .putBack call buffer status })

/-- The loop up to its next call, and that call. -/
def loopStep (s : Recorder) (stop : Bool) (status : Status) : List Note × Recorder :=
  match s.point with
  | .wait => ([], { s with point := if stop then .left .success else .fill .fillVideo })
  | .fill call =>
    ([], { s with point := if 0 < (s.source call).length then .get call else afterCall call })
  | .get call => ([], takeFromQueue s call)
  | .send call buffer => sendToPort s call buffer status
  | .putBack call buffer status =>
    ([], { s.setSource call ((s.source call).putBack buffer) with point := .left status })
  | .take =>
    match s.queueEncoderOut.get with
    | none => ([], { s with point := .change })
    | some (buffer, q) => ([], { s with queueEncoderOut := q, point := .process buffer })
  | .process buffer => ([.seen buffer], { s with point := .release buffer })
  | .release buffer => ([], { s.bufferHeaderRelease buffer with point := .change })
  | .change => ([], { s with point := .wait })
  | .left _ => ([], s)

/-! ### The callbacks -/

/-- `generic_output_port_cb`, for a port that is not the encoder's input; its `userdata` is the queue
`setup_output_port` made for it. -/
def genericOutputPortCb (s : Recorder) (port : PortId) (buffer : Header) (cmd : BitVec 32) :
    List Note × Recorder :=
  if cmd ≠ 0 then ([], s.bufferHeaderRelease buffer)
  else
    match port with
    | .videoPort => ([.returned port buffer], { s with queueEncoderIn := s.queueEncoderIn.put buffer })
    | _ => ([.returned port buffer], { s with queueEncoderOut := s.queueEncoderOut.put buffer })

/-- `generic_input_port_cb`. -/
def genericInputPortCb (s : Recorder) (buffer : Header) (_cmd : BitVec 32) : List Note × Recorder :=
  ([], s.bufferHeaderRelease buffer)

/-- The callback the port was enabled with. -/
def portCb (s : Recorder) (port : PortId) (buffer : Header) (cmd : BitVec 32) : List Note × Recorder :=
  match port with
  | .encoderInput => genericInputPortCb s buffer cmd
  | .videoPort | .encoderOutput => genericOutputPortCb s port buffer cmd

/-- The port gives up a header it holds, or takes one from the pool of its component for an event. -/
def handBack (s : Recorder) (port : PortId) (buffer : Header) (cmd : BitVec 32) : Except Fault Recorder :=
  if buffer ∈ s.held port then .ok (s.setHeld port ((s.held port).erase buffer))
  else
    match (s.pool port.eventPool).get with
    | some (event, q) =>
      if event = buffer ∧ cmd ≠ 0 then .ok (s.setPool port.eventPool q) else .error .notHeld
    | none => .error .notHeld

def step (s : Recorder) : Event → Except Fault (List Note × Recorder)
  | .loop stop status => .ok (s.loopStep stop status)
  | .callback port buffer cmd =>
    match s.handBack port buffer cmd with
    | .error f => .error f
    | .ok s => .ok (s.portCb port buffer cmd)

end Recorder

end RcControl
