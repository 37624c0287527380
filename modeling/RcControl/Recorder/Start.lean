import RcControl.Recorder.World

/-!
# Setting the recorder up, and taking it down

`start_recorder` with `create_camera`, `create_encoder`, `setup_output_port` and `connect_ports`, each
with its label `error`.
-/

namespace RcControl.Recorder

open Mmal Attempt

/-! ### The video format -/

inductive Encoding where
  | h263 | mp4v | h264 | jpeg
  deriving DecidableEq

/-- `vcos_strncasecmp(vcodec, codec, 4)` is zero. -/
def sameCodec (vcodec codec : String) : Bool :=
  (vcodec.toList.take 4).map Char.toLower = codec.toList

/-- `parse_vformat`, as far as its result is read. -/
def parseVformat (c : Calls) (vformat : String) : Option Encoding :=
  match c.sscanf vformat with
  | none => none
  | some (width, height, vcodec) =>
    if sameCodec vcodec "h263" then
      if (width, height) ∈ [(128, 96), (176, 144), (352, 288), (704, 576), (1408, 1152)] then some .h263
      else none
    else if sameCodec vcodec "mp4v" then some .mp4v
    else if sameCodec vcodec "h264" then some .h264
    else if sameCodec vcodec "jpeg" then some .jpeg
    else none

/-! ### The components -/

def VIDEO_OUTPUT_BUFFERS_NUM : BitVec 32 := 3

/-- "Ensure there are enough buffers to avoid dropping frames". -/
def ensureBuffers (port : Port) (w : World) : World :=
  if (w.buffers port).bufferNum < VIDEO_OUTPUT_BUFFERS_NUM then
    w.setBuffers port { w.buffers port with bufferNum := VIDEO_OUTPUT_BUFFERS_NUM }
  else w

/-- `if (enable_zero_copy())`, of two ports. -/
def setZeroCopy (c : Calls) (b : Behaviour) (port other : Port) (status : Status) (w : World) :
    Attempt :=
  if b.zeroCopy then
    mayLack (w.call c (.parameterSet port .zeroCopy)) |>.andThen fun _ w =>
    mayLack (w.call c (.parameterSet other .zeroCopy))
  else (.ok status, w)

/-- `create_camera`, from the component to the label. -/
def setUpCamera (c : Calls) (b : Behaviour) (w : World) : Attempt :=
  if c.hasPorts .camera then
    may (w.call c (.parameterSet .control .changeEventRequest)) |>.andThen fun _ w =>
    may (w.call c (.parameterSet .control .cameraNum)) |>.andThen fun status w =>
    setZeroCopy c b .video .still status w |>.andThen fun _ w =>
    let w := if b.change = .hdr then (w.call c (.parameterSet .control .algorithmControl)).2 else w
    must (w.portEnable c .control) |>.andThen fun _ w =>
    if parseVformat c b.vformat = none then (.error .einval, w)
    else
      let w := (w.call c (.parameterSet .control .cameraConfig)).2
      must (w.formatCommit c .viewfinder) |>.andThen fun _ w =>
      must (w.formatCommit c .video) |>.andThen fun _ w =>
      must ((ensureBuffers .video w).formatCommit c .still) |>.andThen fun _ w =>
      may ((ensureBuffers .still w).call c (.componentEnable .camera))
  else (.error .einval, w)

/-- A component is created and set up; at the label `error` it is destroyed, if there is one. -/
def createComponent (c : Calls) (component : Component) (name : ComponentName)
    (setUp : World → Attempt) (w : World) : Status × Option Resource × World :=
  let (status, p, w) := w.componentCreate c component name
  match if status = .success then setUp w else (.error status, w) with
  | (.ok status, w) => (status, p, w)
  | (.error status, w) => (status, none, w.releaseIf p)

/-- `create_camera`. -/
def createCamera (c : Calls) (b : Behaviour) (w : World) : Status × Option Resource × World :=
  createComponent c .camera .camera (setUpCamera c b) w

/-- `create_encoder`, from the component to the label. -/
def setUpEncoder (c : Calls) (b : Behaviour) (name : ComponentName) (w : World) : Attempt :=
  if c.hasPorts name then
    must (w.formatCommit c .encoderOutput) |>.andThen fun status w =>
    let w := w.setBuffers .encoderOutput (w.buffers .encoderOutput).recommend
    setZeroCopy c b .encoderOutput .encoderInput status w |>.andThen fun _ w =>
    must (w.call c (.componentEnable .encoder))
  else (.error .einval, w)

/-- `create_encoder`. -/
def createEncoder (c : Calls) (b : Behaviour) (w : World) : Status × Option Resource × World :=
  match parseVformat c b.vformat with
  | none => (.einval, none, w)
  | some encoding =>
    let name := if encoding = .jpeg then .imageEncoder else .videoEncoder
    createComponent c .encoder name (setUpEncoder c b name) w

/-! ### The ports -/

/-- A queue and a pool, as two pointers. -/
structure Pointers where
  queue : Option Resource
  pool : Option Resource

def Pointers.null : Pointers := ⟨none, none⟩

/-- The label `error` of `setup_output_port`, which leaves `*p_queue` and `*p_pool` alone. -/
def setupOutputPortError (status : Status) (p : Pointers) (w : World) : Status × Pointers × World :=
  (status, .null, (w.releaseIf p.queue).releaseIf p.pool)

/-- `setup_output_port`. -/
def setupOutputPort (c : Calls) (port : Port) (w : World) : Status × Pointers × World :=
  match w.queueCreate c port with
  | (none, w) => setupOutputPortError .enomem .null w
  | (some queue, w) =>
    match w.poolCreate c port with
    | (none, w) => setupOutputPortError .enomem ⟨some queue, none⟩ w
    | (some pool, w) =>
      let (status, w) := w.portEnable c port
      if status = .success then (.success, ⟨some queue, some pool⟩, w)
      else setupOutputPortError status ⟨some queue, some pool⟩ w

/-- The label `error` of `connect_ports`: what `*p_queue` and `*p_pool` point to is destroyed, and they
stay as they are. -/
def connectPortsError (c : Calls) (status : Status) (p : Pointers) (w : World) :
    Status × Pointers × World :=
  let w := (w.disablePort c .encoderInput).disablePort c .video
  (status, p, (w.releaseIf p.pool).releaseIf p.queue)

/-- The buffers of two ports that are not connected. -/
def matchBuffers (w : World) : World :=
  ((w.setBuffers .encoderInput (w.buffers .encoderInput).recommend).setBuffers .video
    (w.buffers .video).recommend).maximize

/-- `connect_ports`, if `enable_tunneling()`. -/
def tunnelPorts (c : Calls) (w : World) : Status × Pointers × World :=
  let (status, w) := w.call c .portConnect
  if status ≠ .success then (status, .null, w)
  else
    let (status, w) := World.portEnable c .video { w with connected := true }
    (status, .null, { w with connected := decide (status = .success) })

/-- `connect_ports`, its "non-tunneling setup". -/
def queuePorts (c : Calls) (w : World) : Status × Pointers × World :=
  let (status, p, w) := setupOutputPort c .video (matchBuffers w)
  if status ≠ .success then connectPortsError c status p w
  else
    let (status, w) := w.portEnable c .encoderInput
    if status ≠ .success then connectPortsError c status p w
    else (status, p, w)

/-- `connect_ports`, of `video_port` and `encoder_input`. -/
def connectPorts (c : Calls) (b : Behaviour) (w : World) : Status × Pointers × World :=
  let (status, w) := w.call c .formatFullCopy
  if status ≠ .success then (status, .null, w)
  else
    let (status, w) := w.formatCommit c .encoderInput
    if status ≠ .success then (status, .null, w)
    else if b.tunneling then tunnelPorts c w else queuePorts c w

/-! ### The recorder -/

/-- The variables the label `error` of `start_recorder` looks at. -/
structure Variables where
  camera : Option Resource
  encoder : Option Resource
  encoderIn : Pointers
  encoderOut : Pointers

/-- The label `error` of `start_recorder`. -/
def startRecorderError (c : Calls) (status : Status) (v : Variables) (w : World) : Status × World :=
  let w := w.portPoolDestroyIf c .video v.encoderIn.pool
  let w := w.portPoolDestroyIf c .encoderOutput v.encoderOut.pool
  let w := (w.releaseIf v.encoder).releaseIf v.camera
  let w := (w.releaseIf v.encoderIn.queue).releaseIf v.encoderOut.queue
  let w := w.release .eventFlags
  (status, if w.initResult = .success then w else w.post)

/-- The status with which the loop is left. Without a pool or a queue there is nothing to send. -/
def mainLoop (v : Variables) (status : Status) : List Iteration → Status
  | [] => status
  | i :: rest =>
    let fillVideo := if v.encoderIn.pool.isSome then i.fillVideo else .success
    let fillEncoder := if v.encoderOut.pool.isSome then i.fillEncoder else .success
    let forward := if v.encoderIn.queue.isSome then i.forward else .success
    if fillVideo ≠ .success then fillVideo
    else if fillEncoder ≠ .success then fillEncoder
    else if forward ≠ .success then forward
    else mainLoop v .success rest

/-- `start_recorder` from the end of its initialisation. -/
def record (c : Calls) (status : Status) (v : Variables) (w : World) : Status × World :=
  let w := World.post { w with initResult := .success }
  let status := mainLoop v status c.loop
  let w := ((w.disablePort c .video).disablePort c .encoderInput).disablePort c .encoderOutput
  startRecorderError c status v w

/-- `f_buffer->init`, with what the encoder recommends. -/
def initFrameQueue (w : World) : World :=
  let port := w.buffers .encoderOutput
  { w with frameQueue := some (port.bufferNumRecommended * 3, port.bufferSizeRecommended * 3) }

/-- `start_recorder`, once `connect_ports` has succeeded. -/
def startOutput (c : Calls) (camera encoder : Option Resource) (encoderIn : Pointers) (w : World) :
    Status × World :=
  let (status, encoderOut, w) := setupOutputPort c .encoderOutput w
  let v : Variables := ⟨camera, encoder, encoderIn, encoderOut⟩
  if status ≠ .success then startRecorderError c status v { w with initResult := .errorEncoderOut }
  else
    let (status, w) := w.call c (.parameterSet .video .capture)
    if status ≠ .success ∧ status ≠ .enosys then
      startRecorderError c status v { w with initResult := .errorCameraCapture }
    else record c status v w

/-- `start_recorder`, once it has its two components. -/
def startPorts (c : Calls) (b : Behaviour) (camera encoder : Option Resource) (w : World) :
    Status × World :=
  let (status, encoderIn, w) := connectPorts c b (initFrameQueue w)
  if status ≠ .success then
    startRecorderError c status ⟨camera, encoder, encoderIn, .null⟩
      { w with initResult := .errorEncoderIn }
  else startOutput c camera encoder encoderIn w

/-- `start_recorder`. -/
def startRecorder (c : Calls) (b : Behaviour) (w : World) : Status × World :=
  let (status, w) := w.call c .eventFlagsCreate
  if status ≠ .success then
    startRecorderError c .success ⟨none, none, .null, .null⟩ { w with initResult := .errorEventFlags }
  else
    let (status, camera, w) := createCamera c b (w.acquire .eventFlags)
    if camera = none then
      startRecorderError c status ⟨none, none, .null, .null⟩ { w with initResult := .errorCamera }
    else
      let (status, encoder, w) := createEncoder c b w
      if encoder = none then
        startRecorderError c status ⟨camera, none, .null, .null⟩ { w with initResult := .errorEncoder }
      else startPorts c b camera encoder w

end RcControl.Recorder
