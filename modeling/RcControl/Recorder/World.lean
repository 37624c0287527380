import RcControl.Lib.Lifecycle
import RcControl.Mmal.Core
import Mathlib.Logic.Function.Basic

/-!
# What the recorder creates and destroys

The calls of VCOS and MMAL that `start_recorder` makes to set itself up and to take itself down. What a
call returns is given (`Calls`), and so is what the components ask of their ports; which calls were
made, what was created and destroyed, and with which ports enabled, is recorded in the `World`. The
main loop is here what it comes to: the statuses of its calls, iteration by iteration.

A pointer is the resource it was set to, whether or not that still exists. `goto error` is an
`Attempt` that fails.
-/

namespace RcControl.Recorder

open Mmal Lib Lib.Lifecycle

/-! ### What the code is given -/

inductive Component where
  | camera | encoder
  deriving DecidableEq

inductive ComponentName where
  | camera | videoEncoder | imageEncoder
  deriving DecidableEq

inductive Port where
  | control | viewfinder | video | still | encoderInput | encoderOutput
  deriving DecidableEq

/-- The parameters that are set. -/
inductive Parameter where
  | changeEventRequest | cameraNum | zeroCopy | algorithmControl | cameraConfig | capture
  deriving DecidableEq

/-- The calls whose results differ from run to run. -/
inductive Site where
  | eventFlagsCreate
  | componentCreate (name : ComponentName)
  | componentEnable (component : Component)
  | parameterSet (port : Port) (parameter : Parameter)
  | formatCommit (port : Port)
  | formatFullCopy
  | queueCreate (port : Port)
  | poolCreate (port : Port)
  | portConnect
  | portEnable (port : Port)
  | portDisable (port : Port)
  deriving DecidableEq

/-- What a component asks of the buffers of a port. -/
structure Requirements where
  bufferNumMin : BitVec 32
  bufferNumRecommended : BitVec 32
  bufferSizeMin : BitVec 32
  bufferSizeRecommended : BitVec 32

/-- The buffer numbers of an `MMAL_PORT_T`. -/
structure Buffers extends Requirements where
  bufferNum : BitVec 32
  bufferSize : BitVec 32

/-- What the calls in one iteration of the loop return. -/
structure Iteration where
  fillVideo : Status
  fillEncoder : Status
  forward : Status

/-- What the calls return. -/
structure Calls where
  /-- The status of the `n`th call, if it is this one. For a pool or a queue, a success is a pointer
  that is not null. -/
  status : ℕ → Site → Status
  /-- `mmal_component_create` that fails leaves its pointer set: it frees the component without
  resetting it when it has no mutex for it, and resets it in every other case. -/
  leavesPointer : ComponentName → Bool
  /-- The component has the ports it is asked for. -/
  hasPorts : ComponentName → Bool
  /-- The ports of a component just created. -/
  created : Port → Buffers
  /-- What its component asks of a port once a format is committed on another, or on itself. -/
  committed : Port → Port → Requirements
  /-- The three conversions of `sscanf` with `"%4ux%4u:%7s"`. -/
  sscanf : String → Option (ℕ × ℕ × String)
  /-- The iterations of the loop before `*stop` is set. -/
  loop : List Iteration

inductive Change where
  | none | imageEffect | rotation | zoom | focus | drc | hdr | contrast | brightness | saturation
  | sharpness
  deriving DecidableEq

/-- `MMALCAM_BEHAVIOUR_T`, as far as it is read here. -/
structure Behaviour where
  vformat : String
  change : Change
  zeroCopy : Bool
  tunneling : Bool

/-- `MMALCAM_INIT_STATUS_T`. -/
inductive InitResult where
  | success | errorEventFlags | errorVcsmInit | errorCamera | errorRender | errorViewfinder
  | errorEncoder | errorEncoderIn | errorEncoderOut | errorWriter | errorCameraCapture
  deriving DecidableEq

/-! ### What it leaves behind -/

/-- What is created and destroyed; queues and pools are named by the port they are made for. -/
inductive Resource where
  | eventFlags
  | component (c : Component)
  | queue (port : Port)
  | pool (port : Port)
  deriving DecidableEq

structure World where
  buffers : Port → Buffers
  /-- `is_enabled`. -/
  enabled : Port → Bool
  /-- `video_port` and `encoder_input` are connected. -/
  connected : Bool
  /-- The calls made, with what they returned. -/
  calls : List (Site × Status)
  /-- What was created and destroyed. -/
  log : List (Lifecycle.Step Resource)
  /-- The calls of `mmal_port_pool_destroy`, with `is_enabled` of the port then. -/
  poolDestroys : List (Port × Bool)
  initResult : InitResult
  /-- The posts of `init_sem`, with `init_result` then. -/
  posts : List InitResult
  /-- The arguments of `f_buffer->init`. -/
  frameQueue : Option (BitVec 32 × BitVec 32)

/-- Before the first call; `init_result` is what the caller left in it. -/
def World.start (c : Calls) (initResult : InitResult) : World where
  buffers := c.created
  enabled _ := false
  connected := false
  calls := []
  log := []
  poolDestroys := []
  initResult := initResult
  posts := []
  frameQueue := none

namespace World

/-! ### The calls -/

def call (c : Calls) (site : Site) (w : World) : Status × World :=
  let status := c.status w.calls.length site
  (status, { w with calls := w.calls ++ [(site, status)] })

def acquire (r : Resource) (w : World) : World := { w with log := w.log ++ [.acquire r] }

def release (r : Resource) (w : World) : World := { w with log := w.log ++ [.release r] }

/-- `if (p) destroy(p)`. -/
def releaseIf (p : Option Resource) (w : World) : World :=
  match p with
  | none => w
  | some r => w.release r

/-- `mmal_component_create`, with what it leaves in the pointer. -/
def componentCreate (c : Calls) (component : Component) (name : ComponentName) (w : World) :
    Status × Option Resource × World :=
  let (status, w) := w.call c (.componentCreate name)
  if status = .success then
    (status, some (.component component), w.acquire (.component component))
  else (status, if c.leavesPointer name then some (.component component) else none, w)

/-- A call that returns what it creates, or a null pointer. -/
def create (c : Calls) (site : Site) (r : Resource) (w : World) : Option Resource × World :=
  let (status, w) := w.call c site
  if status = .success then (some r, w.acquire r) else (none, w)

/-- `mmal_queue_create`. -/
def queueCreate (c : Calls) (port : Port) (w : World) : Option Resource × World :=
  w.create c (.queueCreate port) (.queue port)

/-- `mmal_port_pool_create`. -/
def poolCreate (c : Calls) (port : Port) (w : World) : Option Resource × World :=
  w.create c (.poolCreate port) (.pool port)

def setBuffers (port : Port) (b : Buffers) (w : World) : World :=
  { w with buffers := Function.update w.buffers port b }

def setEnabled (port : Port) (b : Bool) (w : World) : World :=
  { w with enabled := Function.update w.enabled port b }

end World

/-- No fewer and no smaller buffers than the minimum. -/
def Buffers.raise (b : Buffers) : Buffers :=
  { b with
    bufferNum := if b.bufferNum < b.bufferNumMin then b.bufferNumMin else b.bufferNum
    bufferSize := if b.bufferSize < b.bufferSizeMin then b.bufferSizeMin else b.bufferSize }

/-- The recommended buffers, or the minimum if that is more. -/
def Buffers.recommend (b : Buffers) : Buffers :=
  Buffers.raise { b with bufferNum := b.bufferNumRecommended, bufferSize := b.bufferSizeRecommended }

/-- `MMAL_MAX` of the numbers of two ports, and of their sizes. -/
def Buffers.max (a b : Buffers) : BitVec 32 × BitVec 32 :=
  (if a.bufferNum > b.bufferNum then a.bufferNum else b.bufferNum,
    if a.bufferSize > b.bufferSize then a.bufferSize else b.bufferSize)

namespace World

/-- The ports of the component that has this port. -/
def siblings : Port → List Port
  | .control | .viewfinder | .video | .still => [.viewfinder, .video, .still]
  | .encoderInput | .encoderOutput => [.encoderInput, .encoderOutput]

/-- `mmal_port_format_commit`: the component may ask for other buffers on all its ports, and those of
the port (and of the output ports, for an input) are raised to what it asks. -/
def formatCommit (c : Calls) (port : Port) (w : World) : Status × World :=
  let (status, w) := w.call c (.formatCommit port)
  let raised := if port = .encoderInput then [.encoderInput, .encoderOutput] else [port]
  let buffers := fun p =>
    if p ∈ siblings port then
      let b : Buffers := { w.buffers p with toRequirements := c.committed port p }
      if p ∈ raised then b.raise else b
    else w.buffers p
  (status, { w with buffers := buffers })

/-- Both ports get the larger numbers. -/
def maximize (w : World) : World :=
  let (num, size) := (w.buffers .encoderInput).max (w.buffers .video)
  (w.setBuffers .encoderInput { w.buffers .encoderInput with bufferNum := num, bufferSize := size })
    |>.setBuffers .video { w.buffers .video with bufferNum := num, bufferSize := size }

/-- A connected port takes the port it is connected to along. -/
def switch (port : Port) (b : Bool) (w : World) : World :=
  if w.connected ∧ port = .video then (w.setEnabled port b).setEnabled .encoderInput b
  else w.setEnabled port b

/-- `mmal_port_enable`. -/
def portEnable (c : Calls) (port : Port) (w : World) : Status × World :=
  let w := if w.connected ∧ port = .video then w.maximize else w
  let (status, w) := w.call c (.portEnable port)
  (status, if status = .success then w.switch port true else w)

/-- `mmal_port_disable`. A port that cannot be disabled stays enabled. -/
def portDisable (c : Calls) (port : Port) (w : World) : World :=
  let (status, w) := w.call c (.portDisable port)
  if status = .success then w.switch port false else w

/-- `disable_port`. -/
def disablePort (c : Calls) (port : Port) (w : World) : World :=
  if w.enabled port then w.portDisable c port else w

/-- `if (pool) mmal_port_pool_destroy(port, pool)`. -/
def portPoolDestroyIf (c : Calls) (port : Port) (pool : Option Resource) (w : World) : World :=
  match pool with
  | none => w
  | some r =>
    let w := { w with poolDestroys := w.poolDestroys ++ [(port, w.enabled port)] }
    let w := w.disablePort c port
    w.release r

/-- `vcos_semaphore_post(&behaviour->init_sem)`. -/
def post (w : World) : World := { w with posts := w.posts ++ [w.initResult] }

end World

/-- A stretch of code with a label `error` after it: what is in `status` when it comes to its end, or
when it jumps to the label. -/
abbrev Attempt := Except Status Status × World

namespace Attempt

def andThen (a : Attempt) (f : Status → World → Attempt) : Attempt :=
  match a with
  | (.ok status, w) => f status w
  | (.error status, w) => (.error status, w)

/-- `status = call; if (status != MMAL_SUCCESS) goto error`. -/
def must (r : Status × World) : Attempt :=
  if r.1 = .success then (.ok r.1, r.2) else (.error r.1, r.2)

/-- The same, but `MMAL_ENOSYS` is as good as a success. -/
def mayLack (r : Status × World) : Attempt :=
  if r.1 = .success ∨ r.1 = .enosys then (.ok r.1, r.2) else (.error r.1, r.2)

/-- `status = call`, whatever it is. -/
def may (r : Status × World) : Attempt := (.ok r.1, r.2)

end Attempt

end RcControl.Recorder
