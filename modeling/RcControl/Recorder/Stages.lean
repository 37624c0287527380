import RcControl.Recorder.Books

/-!
# How the stages of the recorder end

`create_camera`, `create_encoder`, `setup_output_port` and `connect_ports` on the books: each has a
lemma with one case for each way it can end.
-/

namespace RcControl.Recorder

open Mmal Lib.Lifecycle

variable {c : Calls} {b : Behaviour} {t : Bool} {made : List Resource}
variable {on : Port → Bool} {w : World}

/-! ### The components -/

namespace Attempt

lemma andThen_keeps {P : World → Prop} {a : Attempt} {f : Status → World → Attempt} (ha : P a.2)
    (hf : ∀ status w, P w → P (f status w).2) : P (a.andThen f).2 := by
  obtain ⟨_ | status, w⟩ := a
  · exact ha
  · exact hf status w ha

lemma must_keeps {P : World → Prop} {r : Status × World} (hr : P r.2) : P (must r).2 := by
  unfold must
  split <;> exact hr

lemma mayLack_keeps {P : World → Prop} {r : Status × World} (hr : P r.2) : P (mayLack r).2 := by
  unfold mayLack
  split <;> exact hr

end Attempt

open Attempt

section SetUp

variable {held : Option (List Resource)} {harm : Prop}

lemma setZeroCopy_books (port other : Port) (status : Status) (h : Books c t made held on harm w) :
    Books c t made held on harm (setZeroCopy c b port other status w).2 := by
  have hsilent : ∀ port {w}, Books c t made held on harm w →
      Books c t made held on harm (w.call c (.parameterSet port .zeroCopy)).2 :=
    fun port w hw => hw.silent _ (by simp [Harmful])
  unfold setZeroCopy
  split
  · exact andThen_keeps (mayLack_keeps (hsilent port h)) fun _ w hw =>
      mayLack_keeps (hsilent other hw)
  · exact h

lemma ensureBuffers_books (port : Port) (h : Books c t made held on harm w) :
    Books c t made held on harm (ensureBuffers port w) := by
  unfold ensureBuffers
  split
  · exact h.setBuffers port _
  · exact h

lemma setUpCamera_books (h : Books c t made held on harm w) :
    Books c t made held on harm (setUpCamera c b w).2 := by
  unfold setUpCamera
  split
  · apply andThen_keeps (h.silent _ (by simp [Harmful]))
    intro _ w hw
    apply andThen_keeps (hw.silent _ (by simp [Harmful]))
    intro status w hw
    apply andThen_keeps (setZeroCopy_books .video .still status hw)
    intro _ w hw
    have hhdr : Books c t made held on harm (if b.change = .hdr then
        (w.call c (.parameterSet .control .algorithmControl)).2 else w) := by
      split
      · exact hw.silent _ (by simp [Harmful])
      · exact hw
    apply andThen_keeps (must_keeps hhdr.portEnable_control)
    intro _ w hw
    split
    · exact hw
    · have hw := hw.silent (.parameterSet .control .cameraConfig) (by simp [Harmful])
      apply andThen_keeps (must_keeps (hw.formatCommit .viewfinder))
      intro _ w hw
      apply andThen_keeps (must_keeps (hw.formatCommit .video))
      intro _ w hw
      refine andThen_keeps (must_keeps ((ensureBuffers_books .video hw).formatCommit .still))
        fun _ w hw => ?_
      exact (ensureBuffers_books .still hw).silent _ (by simp [Harmful])
  · exact h

lemma setUpEncoder_books (name : ComponentName) (h : Books c t made held on harm w) :
    Books c t made held on harm (setUpEncoder c b name w).2 := by
  unfold setUpEncoder
  split
  · apply andThen_keeps (must_keeps (h.formatCommit .encoderOutput))
    intro status w hw
    have hw := hw.setBuffers .encoderOutput (w.buffers .encoderOutput).recommend
    apply andThen_keeps (setZeroCopy_books .encoderOutput .encoderInput status hw)
    intro _ w hw
    exact must_keeps (hw.silent _ (by simp [Harmful]))
  · exact h

end SetUp

variable {held : List Resource}

/-- How the creation of a component ends: it is there, or it is gone again, or one was destroyed that
never was. -/
inductive Created (c : Calls) (t : Bool) (made held : List Resource) (on : Port → Bool)
    (r : Resource) : Option Resource → World → Prop
  | there {w : World} (h : Books c t (made ++ [r]) (some (r :: held)) on False w) :
      Created c t made held on r (some r) w
  | gone {w : World} (h : Books c t (made ++ [r]) (some held) on False w) :
      Created c t made held on r none w
  | never {w : World} (h : Books c t (made ++ [r]) none on True w) : Created c t made held on r none w

lemma createComponent_books {component : Component} {name : ComponentName} {setUp : World → Attempt}
    (hsetUp : ∀ {made held w}, Books c t made held on False w → Books c t made held on False (setUp w).2)
    (h : Books c t made (some held) on False w) (hnew : .component component ∉ held) :
    ∃ status p w', createComponent c component name setUp w = (status, p, w') ∧
      Created c t made held on (.component component) p w' := by
  have hmade := List.sublist_append_left made [Resource.component component]
  obtain ⟨status, w', heq, hw⟩ := h.call (.componentCreate name)
  simp only [createComponent, World.componentCreate, heq]
  by_cases hs : status = .success
  · have hw := hw.harmless (by simp [Harmful, hs])
    have hset := hsetUp (hw.acquire (.component component))
    rcases hr : setUp (w'.acquire (.component component)) with ⟨_ | status, w''⟩
    all_goals
      rw [hr] at hset
      simp only [hs, if_true, hr]
      refine ⟨_, _, _, rfl, ?_⟩
    · refine .gone ?_
      simpa [World.releaseIf] using hset.releaseHeld (r := .component component) (by simp)
    · exact .there hset
  · simp only [hs, if_false]
    refine ⟨_, _, _, rfl, ?_⟩
    by_cases hleaves : c.leavesPointer name
    · simp only [hleaves, if_true]
      exact .never ((hw.releaseStray hnew).weaken hmade (by simp [Harmful, hs, hleaves]))
    · simp only [hleaves]
      exact .gone (hw.weaken hmade (by simp [Harmful, hleaves]))

lemma createCamera_books (h : Books c t made (some held) on False w)
    (hnew : .component .camera ∉ held) :
    ∃ status p w', createCamera c b w = (status, p, w') ∧
      Created c t made held on (.component .camera) p w' :=
  createComponent_books setUpCamera_books h hnew

lemma createEncoder_books (h : Books c t made (some held) on False w)
    (hnew : .component .encoder ∉ held) :
    ∃ status p w', createEncoder c b w = (status, p, w') ∧
      Created c t made held on (.component .encoder) p w' := by
  unfold createEncoder
  split
  · exact ⟨_, _, _, rfl, .gone (h.weaken (List.sublist_append_left _ _) Iff.rfl)⟩
  · exact createComponent_books (setUpEncoder_books _) h hnew

/-! ### The ports -/

/-- The queue and the pool of a port. -/
def Pointers.of (port : Port) : Pointers := ⟨some (.queue port), some (.pool port)⟩

lemma Pointers.null_pool : Pointers.null.pool = none := rfl

lemma Pointers.of_pool (port : Port) : (Pointers.of port).pool = some (.pool port) := rfl

/-- Either both are there and the port is enabled, or both are gone. -/
lemma setupOutputPort_books {port : Port} (hport : Pooled port)
    (h : Books c t made (some held) on False w) :
    ∃ status p w', setupOutputPort c port w = (status, p, w') ∧
      ((status = .success ∧ p = .of port ∧ Books c t (made ++ [.queue port, .pool port])
        (some (.pool port :: .queue port :: held)) (Function.update on port true) False w') ∨
      (status ≠ .success ∧ p = .null ∧ Books c t (made ++ [.queue port, .pool port])
        (some held) on (port = .encoderOutput ∧ ¬ t) w')) := by
  unfold setupOutputPort World.queueCreate World.poolCreate
  obtain ⟨p, w₁, heq, ⟨rfl, hw⟩ | ⟨rfl, hw⟩⟩ := h.create (.queueCreate port) (.queue port)
    (fun _ => Iff.rfl)
  swap
  -- no queue
  · rw [heq]
    refine ⟨_, _, _, rfl, Or.inr ⟨by decide, rfl, ?_⟩⟩
    exact hw.weaken (List.sublist_append_left _ _) (by rw [false_or])
  rw [heq]
  dsimp only
  obtain ⟨p, w₂, heq, ⟨rfl, hw⟩ | ⟨rfl, hw⟩⟩ := hw.create (.poolCreate port) (.pool port)
    (fun _ => Iff.rfl)
  swap
  -- no pool
  · rw [heq]
    refine ⟨_, _, _, rfl, Or.inr ⟨by decide, rfl, ?_⟩⟩
    have hw := hw.releaseHeld (r := .queue port) List.mem_cons_self
    rw [List.erase_cons_head] at hw
    exact hw.weaken (by simp) (by rw [false_or])
  rw [heq]
  dsimp only
  obtain ⟨status, w₃, heq, ⟨hs, hw⟩ | ⟨hs, hw⟩⟩ := hw.portEnable hport
  · rw [heq]
    refine ⟨_, _, _, if_pos hs, Or.inl ⟨rfl, rfl, ?_⟩⟩
    exact hw.weaken (by simp) Iff.rfl
  -- not enabled
  · rw [heq]
    refine ⟨_, _, _, if_neg hs, Or.inr ⟨hs, rfl, ?_⟩⟩
    have hw := (hw.releaseHeld (r := .queue port) (by simp)).releaseHeld (r := .pool port) (by simp)
    have hheld : ((Resource.pool port :: .queue port :: held).erase (.queue port)).erase (.pool port)
        = held := by simp
    rw [hheld] at hw
    exact hw.weaken (by simp) (by rw [false_or])

/-- The label `error` of `connect_ports` with nothing to undo. -/
lemma connectPortsError_null (h : Books c t made (some held) on False w) (hon : on .video = false)
    (status : Status) :
    ∃ w', connectPortsError c status .null w = (status, .null, w') ∧
      Books c t made (some held) on False w' := by
  have hw := h.disablePort_unpooled .encoderInput (by simp [Pooled])
  refine ⟨_, rfl, ?_⟩
  simpa [Pointers.null, World.releaseIf, hw.disablePort_off (Or.inl rfl) hon] using hw

/-- The label `error` of `connect_ports`, when the input of the encoder could not be enabled. -/
lemma connectPortsError_stale
    (h : Books c t made (some (.pool .video :: .queue .video :: held)) on True w)
    (hon : on .video = true) (status : Status) :
    ∃ w' on', connectPortsError c status (.of .video) w = (status, .of .video, w') ∧
      Books c t made (some held) on' True w' := by
  have hw := h.disablePort_unpooled .encoderInput (by simp [Pooled])
  obtain ⟨on', hw⟩ : ∃ on', Books c t made (some (.pool .video :: .queue .video :: held)) on' True
      ((w.disablePort c .encoderInput).disablePort c .video) := by
    rcases hw.disablePort (Or.inl rfl) hon with hw | hw
    · exact ⟨_, hw⟩
    · exact ⟨_, hw.congr (by rw [true_or])⟩
  have hw := (hw.releaseHeld (r := .pool .video) (by simp)).releaseHeld (r := .queue .video) (by simp)
  rw [List.erase_cons_head, List.erase_cons_head] at hw
  exact ⟨_, on', rfl, hw⟩

/-- What `connect_ports` may make. -/
def connecting : List Resource := [.queue .video, .pool .video]

/-- How `connect_ports` ends: tunnelled, or with a queue and a pool, or with nothing, or with pointers to
a queue and a pool that are gone. -/
inductive Connected (c : Calls) (made held : List Resource) (on : Port → Bool) :
    Bool → Status → Pointers → World → Prop
  | tunnelled {w : World} (h : Books c true (made ++ connecting) (some held)
      (Function.update on .video true) False w) : Connected c made held on true .success .null w
  | queued {w : World} (h : Books c false (made ++ connecting) (some (.pool .video :: .queue .video :: held))
      (Function.update on .video true) False w) :
      Connected c made held on false .success (.of .video) w
  | failed {t : Bool} {status : Status} {w : World} (hs : status ≠ .success)
      (h : Books c t (made ++ connecting) (some held) on False w) :
      Connected c made held on t status .null w
  | stale {status : Status} {w : World} {on' : Port → Bool} (hs : status ≠ .success)
      (h : Books c false (made ++ connecting) (some held) on' True w) :
      Connected c made held on false status (.of .video) w

lemma made_connecting : made.Sublist (made ++ connecting) := List.sublist_append_left _ _

lemma tunnelPorts_books (h : Books c true made (some held) on False w) :
    ∃ status p w', tunnelPorts c w = (status, p, w') ∧ Connected c made held on true status p w' := by
  unfold tunnelPorts
  have hw := h.silent .portConnect (by simp [Harmful])
  generalize w.call c .portConnect = r at hw ⊢
  obtain ⟨status, w⟩ := r
  by_cases hs : status = .success
  swap
  · exact ⟨_, _, _, if_pos hs, .failed hs (hw.weaken made_connecting Iff.rfl)⟩
  dsimp only
  rw [if_neg (not_not.2 hs)]
  have hw : Books c true made (some held) on False { w with connected := true } := { hw with }
  obtain ⟨status, w', heq, ⟨rfl, hw⟩ | ⟨hs, hw⟩⟩ := hw.portEnable (Or.inl rfl)
  · rw [heq]
    exact ⟨_, _, _, rfl, .tunnelled { hw.weaken made_connecting Iff.rfl with }⟩
  · rw [heq]
    exact ⟨_, _, _, rfl, .failed hs { hw.weaken made_connecting (by simp) with }⟩

lemma queuePorts_books (h : Books c false made (some held) on False w) (hon : on .video = false) :
    ∃ status p w', queuePorts c w = (status, p, w') ∧ Connected c made held on false status p w' := by
  unfold queuePorts
  have hw : Books c false made (some held) on False (matchBuffers w) := { h with }
  obtain ⟨status, p, w', heq, ⟨rfl, rfl, hw⟩ | ⟨hs, rfl, hw⟩⟩ := setupOutputPort_books (Or.inl rfl) hw
  all_goals
    rw [heq]
    dsimp only
  · rw [if_neg (not_not.2 rfl)]
    obtain ⟨status, w', heq, ⟨rfl, hw⟩ | ⟨hs, hw⟩⟩ :=
      hw.portEnable_unpooled .encoderInput (by simp [Pooled])
    all_goals rw [heq]
    · exact ⟨_, _, _, if_neg (not_not.2 rfl), .queued hw⟩
    · obtain ⟨w', on', herror, hw⟩ := connectPortsError_stale
        (hw.congr (by simp)) (by simp) status
      exact ⟨_, _, _, (if_pos hs).trans herror, .stale hs hw⟩
  · obtain ⟨w', herror, hw⟩ := connectPortsError_null
      (hw.congr (by simp)) hon status
    exact ⟨_, _, _, (if_pos hs).trans herror, .failed hs hw⟩

lemma connectPorts_books (h : Books c b.tunneling made (some held) on False w)
    (hon : on .video = false) :
    ∃ status p w', connectPorts c b w = (status, p, w') ∧
      Connected c made held on b.tunneling status p w' := by
  unfold connectPorts
  have hw := h.silent .formatFullCopy (by simp [Harmful])
  generalize w.call c .formatFullCopy = r at hw ⊢
  obtain ⟨status, w⟩ := r
  by_cases hs : status = .success
  swap
  · exact ⟨_, _, _, if_pos hs, .failed hs (hw.weaken made_connecting Iff.rfl)⟩
  dsimp only
  rw [if_neg (not_not.2 hs)]
  have hw := hw.formatCommit .encoderInput
  dsimp only at hw
  generalize w.formatCommit c .encoderInput = r at hw ⊢
  obtain ⟨status, w⟩ := r
  by_cases hs : status = .success
  swap
  · exact ⟨_, _, _, if_pos hs, .failed hs (hw.weaken made_connecting Iff.rfl)⟩
  dsimp only
  rw [if_neg (not_not.2 hs)]
  cases htunneling : b.tunneling with
  | false => exact queuePorts_books (htunneling ▸ hw) hon
  | true => exact tunnelPorts_books (htunneling ▸ hw)

end RcControl.Recorder
