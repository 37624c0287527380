import RcControl.Recorder.Stages

/-!
# The initialisation

`start_recorder` up to "Initialisation now complete": it gets there, or jumps to its label `error`
(`startRecorder_eq`). What the stages do to the world, apart from what the jumps say of it, is calls and
updates of a few fields; what these keep, the stages keep (`Stable`).
-/

namespace RcControl.Recorder

open Mmal Attempt

/-- What there is at the label `error`: `status`, the variables, and the world. -/
abbrev Failure := Status × Variables × World

/-- `start_recorder` up to its two components. -/
def createComponents (c : Calls) (b : Behaviour) (w : World) :
    Except Failure (Option Resource × Option Resource × World) :=
  let (status, w) := w.call c .eventFlagsCreate
  if status ≠ .success then
    .error (.success, ⟨none, none, .null, .null⟩, { w with initResult := .errorEventFlags })
  else
    let (status, camera, w) := createCamera c b (w.acquire .eventFlags)
    if camera = none then
      .error (status, ⟨none, none, .null, .null⟩, { w with initResult := .errorCamera })
    else
      let (status, encoder, w) := createEncoder c b w
      if encoder = none then
        .error (status, ⟨camera, none, .null, .null⟩, { w with initResult := .errorEncoder })
      else .ok (camera, encoder, w)

/-- `start_recorder` from its two components to "Initialisation now complete". -/
def enablePorts (c : Calls) (b : Behaviour) (camera encoder : Option Resource) (w : World) :
    Except Failure (Status × Variables × World) :=
  let (status, encoderIn, w) := connectPorts c b (initFrameQueue w)
  if status ≠ .success then
    .error (status, ⟨camera, encoder, encoderIn, .null⟩, { w with initResult := .errorEncoderIn })
  else
    let (status, encoderOut, w) := setupOutputPort c .encoderOutput w
    let v : Variables := ⟨camera, encoder, encoderIn, encoderOut⟩
    if status ≠ .success then .error (status, v, { w with initResult := .errorEncoderOut })
    else
      let (status, w) := w.call c (.parameterSet .video .capture)
      if status ≠ .success ∧ status ≠ .enosys then
        .error (status, v, { w with initResult := .errorCameraCapture })
      else .ok (status, v, w)

/-- `start_recorder` up to "Initialisation now complete". -/
def initialise (c : Calls) (b : Behaviour) (w : World) : Except Failure (Status × Variables × World) :=
  match createComponents c b w with
  | .error failure => .error failure
  | .ok (camera, encoder, w) => enablePorts c b camera encoder w

variable {c : Calls} {b : Behaviour} {w w' : World}

/-- **The recorder is its initialisation** and what comes after it. -/
theorem startRecorder_eq (c : Calls) (b : Behaviour) (w : World) :
    startRecorder c b w = match initialise c b w with
      | .error (status, v, w) => startRecorderError c status v w
      | .ok (status, v, w) => record c status v w := by
  unfold startRecorder initialise createComponents
  dsimp only
  split_ifs
  · rfl
  · rfl
  · rfl
  · unfold startPorts enablePorts startOutput
    dsimp only
    split_ifs <;> rfl

/-! ### What the stages keep -/

/-- A property of the world that the calls of the stages and what they update keep. The two calls that
`start_recorder` makes itself are not among them. -/
structure Stable (c : Calls) (P : World → Prop) : Prop where
  call : ∀ {w site}, P w → site ≠ .eventFlagsCreate → site ≠ .parameterSet .video .capture →
    P (w.call c site).2
  buffers : ∀ {w} buffers, P w → P { w with buffers := buffers }
  enabled : ∀ {w} enabled, P w → P { w with enabled := enabled }
  connected : ∀ {w} connected, P w → P { w with connected := connected }
  log : ∀ {w} log, P w → P { w with log := log }
  poolDestroys : ∀ {w} destroys, P w → P { w with poolDestroys := destroys }

namespace Stable

variable {P : World → Prop} (hP : Stable c P)
include hP

lemma releaseIf (p : Option Resource) (h : P w) : P (w.releaseIf p) := by
  cases p with
  | none => exact h
  | some r => exact hP.log _ h

lemma create {site : Site} (r : Resource) (h : P w) (hflags : site ≠ .eventFlagsCreate)
    (hcapture : site ≠ .parameterSet .video .capture) : P (w.create c site r).2 := by
  have hw := hP.call h hflags hcapture
  unfold World.create
  dsimp only
  split
  · exact hP.log _ hw
  · exact hw

lemma formatCommit (port : Port) (h : P w) : P (w.formatCommit c port).2 :=
  hP.buffers _ (hP.call h (by simp) (by simp))

lemma switch (port : Port) (on : Bool) (h : P w) : P (w.switch port on) := by
  unfold World.switch
  split
  · exact hP.enabled _ (hP.enabled _ h)
  · exact hP.enabled _ h

lemma maximize (h : P w) : P w.maximize := hP.buffers _ (hP.buffers _ h)

lemma portEnable (port : Port) (h : P w) : P (w.portEnable c port).2 := by
  have hw : P (if w.connected ∧ port = .video then w.maximize else w) := by
    split
    · exact hP.maximize h
    · exact h
  have hw : P (World.call c (.portEnable port) _).2 := hP.call hw (by simp) (by simp)
  unfold World.portEnable
  dsimp only
  generalize World.call c (.portEnable port) _ = r at hw ⊢
  split
  · exact hP.switch port true hw
  · exact hw

lemma disablePort (port : Port) (h : P w) : P (w.disablePort c port) := by
  unfold World.disablePort World.portDisable
  split
  · have hw : P (World.call c (.portDisable port) _).2 := hP.call h (by simp) (by simp)
    dsimp only
    split
    · exact hP.switch port false hw
    · exact hw
  · exact h

lemma setZeroCopy (port other : Port) (status : Status) (h : P w) :
    P (setZeroCopy c b port other status w).2 := by
  unfold Recorder.setZeroCopy
  split
  · exact andThen_keeps (mayLack_keeps (hP.call h (by simp) (by simp))) fun _ w hw =>
      mayLack_keeps (hP.call hw (by simp) (by simp))
  · exact h

lemma ensureBuffers (port : Port) (h : P w) : P (ensureBuffers port w) := by
  unfold Recorder.ensureBuffers
  split
  · exact hP.buffers _ h
  · exact h

lemma setUpCamera (h : P w) : P (setUpCamera c b w).2 := by
  unfold Recorder.setUpCamera
  split
  swap
  · exact h
  apply andThen_keeps (hP.call h (by simp) (by simp))
  intro _ w hw
  apply andThen_keeps (hP.call hw (by simp) (by simp))
  intro status w hw
  apply andThen_keeps (hP.setZeroCopy .video .still status hw)
  intro _ w hw
  have hhdr : P (if b.change = .hdr then
      (w.call c (.parameterSet .control .algorithmControl)).2 else w) := by
    split
    · exact hP.call hw (by simp) (by simp)
    · exact hw
  apply andThen_keeps (must_keeps (hP.portEnable .control hhdr))
  intro _ w hw
  split
  · exact hw
  have hw : P (World.call c (.parameterSet .control .cameraConfig) _).2 := hP.call hw (by simp) (by simp)
  apply andThen_keeps (must_keeps (hP.formatCommit .viewfinder hw))
  intro _ w hw
  apply andThen_keeps (must_keeps (hP.formatCommit .video hw))
  intro _ w hw
  apply andThen_keeps (must_keeps (hP.formatCommit .still (hP.ensureBuffers .video hw)))
  intro _ w hw
  exact hP.call (hP.ensureBuffers .still hw) (by simp) (by simp)

lemma setUpEncoder (name : ComponentName) (h : P w) : P (setUpEncoder c b name w).2 := by
  unfold Recorder.setUpEncoder
  split
  swap
  · exact h
  apply andThen_keeps (must_keeps (hP.formatCommit .encoderOutput h))
  intro status w hw
  apply andThen_keeps (hP.setZeroCopy .encoderOutput .encoderInput status (hP.buffers _ hw))
  intro _ w hw
  exact must_keeps (hP.call hw (by simp) (by simp))

lemma createComponent {component : Component} {name : ComponentName} {setUp : World → Attempt}
    (hsetUp : ∀ {w}, P w → P (setUp w).2) (h : P w) :
    P (createComponent c component name setUp w).2.2 := by
  have hw : P (World.call c (.componentCreate name) _).2 := hP.call h (by simp) (by simp)
  unfold Recorder.createComponent World.componentCreate
  generalize w.call c (.componentCreate name) = r at hw ⊢
  obtain ⟨status, w⟩ := r
  dsimp only at hw ⊢
  by_cases hs : status = .success
  · have hset := hsetUp (hP.log (w.log ++ [.acquire (.component component)]) hw)
    simp only [hs, if_true]
    change P (setUp (w.acquire (.component component))).2 at hset
    generalize setUp (w.acquire (.component component)) = r at hset ⊢
    obtain ⟨_ | status, w⟩ := r
    · exact hP.releaseIf (some (.component component)) hset
    · exact hset
  · simp only [hs, if_false]
    exact hP.releaseIf _ hw

lemma createCamera (h : P w) : P (createCamera c b w).2.2 := hP.createComponent hP.setUpCamera h

lemma createEncoder (h : P w) : P (createEncoder c b w).2.2 := by
  unfold Recorder.createEncoder
  split
  · exact h
  · exact hP.createComponent (hP.setUpEncoder _) h

lemma setupOutputPort (port : Port) (h : P w) : P (setupOutputPort c port w).2.2 := by
  unfold Recorder.setupOutputPort
  have hw : P (w.queueCreate c port).2 := hP.create _ h (by simp) (by simp)
  generalize w.queueCreate c port = r at hw ⊢
  obtain ⟨_ | queue, w⟩ := r
  · exact hw
  have hw : P (w.poolCreate c port).2 := hP.create _ hw (by simp) (by simp)
  dsimp only
  generalize w.poolCreate c port = r at hw ⊢
  obtain ⟨_ | pool, w⟩ := r
  · exact hP.releaseIf none (hP.releaseIf (some queue) hw)
  have hw := hP.portEnable port hw
  dsimp only
  split
  · exact hw
  · exact hP.releaseIf (some pool) (hP.releaseIf (some queue) hw)

lemma connectPortsError (status : Status) (p : Pointers) (h : P w) :
    P (connectPortsError c status p w).2.2 :=
  hP.releaseIf _ (hP.releaseIf _ (hP.disablePort .video (hP.disablePort .encoderInput h)))

lemma tunnelPorts (h : P w) : P (tunnelPorts c w).2.2 := by
  unfold Recorder.tunnelPorts
  have hw : P (World.call c .portConnect _).2 := hP.call h (by simp) (by simp)
  dsimp only
  split
  · exact hw
  · exact hP.connected _ (hP.portEnable .video (hP.connected _ hw))

lemma queuePorts (h : P w) : P (queuePorts c w).2.2 := by
  unfold Recorder.queuePorts
  have hw : P (Recorder.setupOutputPort c .video (matchBuffers w)).2.2 :=
    hP.setupOutputPort .video (hP.maximize (hP.buffers _ (hP.buffers _ h)))
  dsimp only
  split
  · exact hP.connectPortsError _ _ hw
  have hw := hP.portEnable .encoderInput hw
  split
  · exact hP.connectPortsError _ _ hw
  · exact hw

lemma connectPorts (h : P w) : P (connectPorts c b w).2.2 := by
  unfold Recorder.connectPorts
  have hw : P (World.call c .formatFullCopy _).2 := hP.call h (by simp) (by simp)
  dsimp only
  split
  · exact hw
  have hw := hP.formatCommit .encoderInput hw
  split
  · exact hw
  split
  · exact hP.tunnelPorts hw
  · exact hP.queuePorts hw

lemma portPoolDestroyIf (port : Port) (pool : Option Resource) (h : P w) :
    P (w.portPoolDestroyIf c port pool) := by
  cases pool with
  | none => exact h
  | some r => exact hP.log _ (hP.disablePort port (hP.poolDestroys _ h))

/-- The label `error` does the same, and then looks at `init_result`. -/
lemma startRecorderError (status : Status) (v : Variables) (h : P w) :
    ∃ w', P w' ∧ startRecorderError c status v w =
      (status, if w'.initResult = .success then w' else w'.post) := by
  refine ⟨_, ?_, rfl⟩
  refine hP.log _ (hP.releaseIf _ (hP.releaseIf _ (hP.releaseIf _ (hP.releaseIf _ ?_))))
  exact hP.portPoolDestroyIf .encoderOutput _ (hP.portPoolDestroyIf .video _ h)

end Stable

end RcControl.Recorder
