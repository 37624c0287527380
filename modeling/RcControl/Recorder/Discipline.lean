import RcControl.Recorder.Stages

/-!
# The discipline of the recorder

The label `error` of `start_recorder` settles the books unless a harmful failure has happened, and so
`start_recorder` keeps its discipline exactly when none happens to it (`startRecorder_disciplined_iff`).
-/

namespace RcControl.Recorder

open Mmal Lib.Lifecycle

variable {c : Calls} {b : Behaviour} {t : Bool} {made : List Resource}
variable {on : Port → Bool} {w : World}

/-! ### The label `error` -/

/-- What the label `error` of `start_recorder` destroys. -/
def Variables.teardown (v : Variables) : List (Lib.Lifecycle.Step Resource) :=
  ([v.encoderIn.pool, v.encoderOut.pool, v.encoder, v.camera, v.encoderIn.queue, v.encoderOut.queue,
    some .eventFlags].filterMap id).map .release

/-- The label `error` leaves nothing behind, and finds the ports of the pools disabled. -/
def Variables.Settles (v : Variables) (held : Option (List Resource)) (on : Port → Bool) : Prop :=
  (held.bind fun held => settle held v.teardown) = some [] ∧
    (v.encoderIn.pool = none ∨ on .video = false) ∧
    (v.encoderOut.pool = none ∨ on .encoderOutput = false)

instance (v : Variables) (held : Option (List Resource)) (on : Port → Bool) :
    Decidable (v.Settles held on) := by unfold Variables.Settles; infer_instance

section Error

variable (c) (status : Status) (v : Variables) (w) (port : Port) (p : Option Resource)

lemma disablePort_log : (w.disablePort c port).log = w.log := by
  unfold World.disablePort World.portDisable World.switch
  dsimp only
  split_ifs <;> rfl

lemma disablePort_poolDestroys : (w.disablePort c port).poolDestroys = w.poolDestroys := by
  unfold World.disablePort World.portDisable World.switch
  dsimp only
  split_ifs <;> rfl

lemma disablePort_calls : w.calls <+: (w.disablePort c port).calls := by
  unfold World.disablePort World.portDisable World.switch
  dsimp only
  split_ifs
  all_goals first | exact List.prefix_rfl | exact List.prefix_append _ _

lemma disablePort_video_output :
    (w.disablePort c .video).enabled .encoderOutput = w.enabled .encoderOutput := by
  unfold World.disablePort World.portDisable World.switch
  dsimp only
  split_ifs <;> simp [World.call, World.setEnabled]

lemma releaseIf_log : (w.releaseIf p).log = w.log ++ p.toList.map .release := by
  cases p <;> simp [World.releaseIf, World.release]

lemma releaseIf_poolDestroys : (w.releaseIf p).poolDestroys = w.poolDestroys := by
  cases p <;> rfl

lemma releaseIf_calls : (w.releaseIf p).calls = w.calls := by
  cases p <;> rfl

lemma portPoolDestroyIf_log :
    (w.portPoolDestroyIf c port p).log = w.log ++ p.toList.map .release := by
  cases p with
  | none => simp [World.portPoolDestroyIf]
  | some r => simp [World.portPoolDestroyIf, World.release, disablePort_log]

lemma portPoolDestroyIf_poolDestroys : (w.portPoolDestroyIf c port p).poolDestroys =
    w.poolDestroys ++ p.toList.map fun _ => (port, w.enabled port) := by
  cases p with
  | none => simp [World.portPoolDestroyIf]
  | some r => simp [World.portPoolDestroyIf, World.release, disablePort_poolDestroys]

lemma portPoolDestroyIf_calls : w.calls <+: (w.portPoolDestroyIf c port p).calls := by
  cases p with
  | none => exact List.prefix_rfl
  | some r =>
    exact disablePort_calls c
      { w with poolDestroys := w.poolDestroys ++ [(port, w.enabled port)] } port

/-- A port that is not enabled is not disabled. -/
lemma portPoolDestroyIf_calls_off (hoff : p = none ∨ w.enabled port = false) :
    (w.portPoolDestroyIf c port p).calls = w.calls := by
  rcases p with _ | r
  · rfl
  · obtain hnone | hoff := hoff
    · cases hnone
    · simp [World.portPoolDestroyIf, World.release, World.disablePort, hoff]

lemma portPoolDestroyIf_video_output :
    (w.portPoolDestroyIf c .video p).enabled .encoderOutput = w.enabled .encoderOutput := by
  cases p with
  | none => rfl
  | some r =>
    exact disablePort_video_output c
      { w with poolDestroys := w.poolDestroys ++ [(.video, w.enabled .video)] }

/-- Posting the semaphore does not matter. -/
lemma startRecorderError_log :
    (startRecorderError c status v w).2.log = w.log ++ v.teardown := by
  unfold startRecorderError
  dsimp only
  rw [apply_ite World.log]
  simp only [World.post, ite_self, World.release, releaseIf_log, portPoolDestroyIf_log]
  rcases v with ⟨camera, encoder, ⟨queueIn, poolIn⟩, ⟨queueOut, poolOut⟩⟩
  simp only [Variables.teardown, List.append_assoc, List.append_cancel_left_eq]
  rcases camera <;> rcases encoder <;> rcases queueIn <;> rcases poolIn <;> rcases queueOut <;>
    rcases poolOut <;> rfl

lemma startRecorderError_poolDestroys : (startRecorderError c status v w).2.poolDestroys =
    w.poolDestroys ++ (v.encoderIn.pool.toList.map fun _ => (.video, w.enabled .video)) ++
      v.encoderOut.pool.toList.map fun _ => (.encoderOutput, w.enabled .encoderOutput) := by
  unfold startRecorderError
  dsimp only
  rw [apply_ite World.poolDestroys]
  simp only [World.post, ite_self, World.release, releaseIf_poolDestroys,
    portPoolDestroyIf_poolDestroys, portPoolDestroyIf_video_output]

lemma startRecorderError_calls : (startRecorderError c status v w).2.calls =
    ((w.portPoolDestroyIf c .video v.encoderIn.pool).portPoolDestroyIf c .encoderOutput
      v.encoderOut.pool).calls := by
  unfold startRecorderError
  dsimp only
  rw [apply_ite World.calls]
  simp only [World.post, ite_self, World.release, releaseIf_calls]

end Error

variable {held : Option (List Resource)} {harm : Prop}

/-- Whether the discipline is kept is decided before the label `error`. -/
lemma Books.disciplined_iff (h : Books c t made held on harm w) (hnodup : made.Nodup)
    (status : Status) (v : Variables) :
    Disciplined (startRecorderError c status v w).2 ↔ v.Settles held on := by
  have hacquired : Lib.Lifecycle.acquired (w.log ++ v.teardown) = Lib.Lifecycle.acquired w.log := by
    have hteardown : Lib.Lifecycle.acquired v.teardown = [] := by
      unfold Variables.teardown
      induction List.filterMap id _ with
      | nil => rfl
      | cons r l ih => exact ih
    rw [acquired_append, hteardown, List.append_nil]
  have hbalanced : Balanced (startRecorderError c status v w).2.log ↔
      (held.bind fun held => settle held v.teardown) = some [] := by
    rw [startRecorderError_log,
      balanced_iff_settle (hacquired ▸ h.acquired.nodup hnodup), settle_append, h.settles]
  have hdisabled : (∀ destroy ∈ (startRecorderError c status v w).2.poolDestroys,
      destroy.2 = false) ↔ (v.encoderIn.pool = none ∨ on .video = false) ∧
        (v.encoderOut.pool = none ∨ on .encoderOutput = false) := by
    rw [startRecorderError_poolDestroys, h.intact, h.enabled .video (Or.inl rfl),
      h.enabled .encoderOutput (Or.inr rfl)]
    rcases v.encoderIn.pool <;> rcases v.encoderOut.pool <;> simp
  rw [Variables.Settles, ← hbalanced, ← hdisabled]
  constructor
  · intro hdis
    exact ⟨hdis.balanced, hdis.disabled⟩
  · intro hdis
    exact ⟨hdis.1, hdis.2⟩

/-- The label `error` does no harm where none was done. -/
lemma Books.harmed_iff (h : Books c t made held on harm w) (status : Status) (v : Variables)
    (hsettles : ¬ harm → v.Settles held on) :
    Harmed c t (startRecorderError c status v w).2 ↔ harm := by
  rw [← h.harmed]
  unfold Harmed
  rw [startRecorderError_calls]
  constructor
  · intro hharmed
    by_contra hunharmed
    obtain ⟨-, hin, hout⟩ := hsettles fun hharm => hunharmed (h.harmed.2 hharm)
    rw [← h.enabled .video (Or.inl rfl)] at hin
    rw [← h.enabled .encoderOutput (Or.inr rfl),
      ← portPoolDestroyIf_video_output c w v.encoderIn.pool] at hout
    rw [portPoolDestroyIf_calls_off _ _ _ _ hout, portPoolDestroyIf_calls_off _ _ _ _ hin] at hharmed
    exact hunharmed hharmed
  · rintro ⟨x, hx, hharm⟩
    refine ⟨x, ?_, hharm⟩
    exact ((portPoolDestroyIf_calls c _ _ _).trans (portPoolDestroyIf_calls c _ _ _)).subset hx

/-- The discipline is kept if no harm was done. -/
def Sound (c : Calls) (t : Bool) (w : World) : Prop := Disciplined w ↔ ¬ Harmed c t w

/-- **The label `error`** is left with the discipline kept if the books settle unless harm was done. -/
lemma Books.sound (h : Books c t made held on harm w) (hnodup : made.Nodup) {status : Status}
    {v : Variables} (hsettles : v.Settles held on ↔ ¬ harm) :
    Sound c t (startRecorderError c status v w).2 := by
  rw [Sound, h.disciplined_iff hnodup, h.harmed_iff status v hsettles.2, hsettles]

/-! ### The recorder -/

section Recorder

variable {held : List Resource} {v : Variables} {status : Status}

/-- The ports are disabled one after the other, and each may fail to be. -/
lemma record_sound (h : Books c t made (some held) on False w) (hnodup : made.Nodup)
    (hvideo : on .video = true) (houtput : on .encoderOutput = true)
    (hheld : settle held v.teardown = some []) (hin : v.encoderIn.pool = none ↔ t = true)
    (hout : v.encoderOut.pool ≠ none) : Sound c t (record c status v w).2 := by
  have hw : Books c t made (some held) on False (World.post { w with initResult := .success }) :=
    { h with }
  unfold record
  dsimp only
  have hinput : ¬ Pooled .encoderInput := by simp [Pooled]
  rcases hw.disablePort (Or.inl rfl) hvideo with hw | hw
  · rcases (hw.disablePort_unpooled _ hinput).disablePort (Or.inr rfl) (by simp [houtput]) with hw | hw
    · exact hw.sound hnodup (by simp [Variables.Settles, hheld])
    · exact hw.sound hnodup (by simp [Variables.Settles, houtput, hout])
  · rcases (hw.disablePort_unpooled _ hinput).disablePort (Or.inr rfl) houtput with hw | hw
    · exact hw.sound hnodup (by simp [Variables.Settles, hheld, hvideo, hin])
    · exact hw.sound hnodup (by simp [Variables.Settles, houtput, hout])

/-- From here on it matters whether the video port has a pool. -/
lemma startOutput_sound {camera encoder : Option Resource} {encoderIn : Pointers}
    (h : Books c t made (some held) on False w)
    (hnodup : (made ++ [Resource.queue .encoderOutput, .pool .encoderOutput]).Nodup)
    (hvideo : on .video = true)
    (hheld : settle held (Variables.teardown ⟨camera, encoder, encoderIn, .null⟩) = some [])
    (hall : settle (.pool .encoderOutput :: .queue .encoderOutput :: held)
      (Variables.teardown ⟨camera, encoder, encoderIn, .of .encoderOutput⟩) = some [])
    (hin : encoderIn.pool = none ↔ t = true) :
    Sound c t (startOutput c camera encoder encoderIn w).2 := by
  unfold startOutput
  obtain ⟨status, p, w, heq, ⟨rfl, rfl, hw⟩ | ⟨hs, rfl, hw⟩⟩ := setupOutputPort_books (Or.inr rfl) h
  all_goals
    rw [heq]
    dsimp only
  · rw [if_neg (not_not.2 rfl)]
    obtain ⟨status, w, heq, hw⟩ := hw.call (.parameterSet .video .capture)
    rw [heq]
    by_cases hs : status ≠ .success ∧ status ≠ .enosys
    · rw [if_pos hs]
      exact (hw.setInitResult _).sound hnodup (by simp [Variables.Settles, Pointers.of_pool, Harmful, hs])
    · rw [if_neg hs]
      have hw := hw.harmless (by simpa [Harmful] using hs)
      exact record_sound hw hnodup (by simp [hvideo]) (by simp) hall hin (by simp [Pointers.of_pool])
  · rw [if_pos hs]
    exact (hw.setInitResult _).sound hnodup
      (by simp [Variables.Settles, Pointers.null_pool, hheld, hvideo, hin])

/-- What `start_recorder` may make, up to its two components. -/
def components : List Resource := [.eventFlags, .component .camera, .component .encoder]

lemma startPorts_sound (h : Books c b.tunneling components (some components.reverse)
    (fun _ => false) False w) : Sound c b.tunneling
      (startPorts c b (some (.component .camera)) (some (.component .encoder)) w).2 := by
  unfold startPorts
  have hw : Books c b.tunneling components (some components.reverse) (fun _ => false) False
    (initFrameQueue w) := { h with }
  obtain ⟨status, p, w, heq, hconnected⟩ := connectPorts_books hw rfl
  rw [heq]
  dsimp only
  generalize b.tunneling = t at hconnected ⊢
  cases hconnected with
  | tunnelled hw => exact startOutput_sound hw (by decide) rfl rfl rfl (by decide)
  | queued hw => exact startOutput_sound hw (by decide) rfl rfl rfl (by decide)
  | failed hs hw =>
    rw [if_pos hs]
    exact (hw.setInitResult _).sound (by decide) (by decide)
  | stale hs hw =>
    -- the pool and the queue are destroyed again
    rw [if_pos hs]
    exact (hw.setInitResult _).sound (by decide)
      (iff_of_false (fun hsettles => absurd hsettles.1 (by decide)) (not_not.2 trivial))

theorem startRecorder_sound (initResult : InitResult) :
    Sound c b.tunneling (startRecorder c b (World.start c initResult)).2 := by
  unfold startRecorder
  obtain ⟨status, w, heq, hw⟩ := (Books.start initResult).call .eventFlagsCreate
  rw [heq]
  dsimp only
  by_cases hs : status = .success
  swap
  · rw [if_pos hs]
    exact (hw.setInitResult _).sound (by decide)
      (iff_of_false (by decide) (by simp [Harmful, hs]))
  rw [if_neg (not_not.2 hs)]
  have hw := (hw.harmless (by simp [Harmful, hs])).acquire .eventFlags
  obtain ⟨status, camera, w, heq, hcamera⟩ := createCamera_books (b := b) hw (by decide)
  rw [heq]
  dsimp only
  cases hcamera with
  | gone hw => exact (hw.setInitResult _).sound (by decide) (by decide)
  | never hw => exact (hw.setInitResult _).sound (by decide) (by decide)
  | there hw =>
  rw [if_neg (by simp)]
  obtain ⟨status, encoder, w, heq, hencoder⟩ := createEncoder_books (b := b) hw (by decide)
  rw [heq]
  dsimp only
  cases hencoder with
  | gone hw => exact (hw.setInitResult _).sound (by decide) (by decide)
  | never hw => exact (hw.setInitResult _).sound (by decide) (by decide)
  | there hw =>
  rw [if_neg (by simp)]
  exact startPorts_sound hw

end Recorder

/-- **The recorder keeps its discipline** exactly when none of its calls fails harmfully. -/
theorem startRecorder_disciplined_iff (c : Calls) (b : Behaviour) (initResult : InitResult) :
    Disciplined (startRecorder c b (World.start c initResult)).2 ↔
      ∀ x ∈ (startRecorder c b (World.start c initResult)).2.calls, ¬ Harmful c b.tunneling x := by
  have hsound : Disciplined _ ↔ ¬ Harmed c b.tunneling _ := startRecorder_sound initResult
  rw [hsound, Harmed]
  simp only [not_exists, not_and]

/-- Everything succeeds, but for the input of the encoder. -/
def inputFails : Calls where
  status _ site := if site = .portEnable .encoderInput then .enomem else .success
  leavesPointer _ := false
  hasPorts _ := true
  created _ := ⟨⟨1, 1, 1024, 4096⟩, 1, 1024⟩
  committed _ _ := ⟨1, 1, 1024, 4096⟩
  sscanf _ := some (640, 480, "h264")
  loop := []

/-- A pool and a queue are destroyed by `connect_ports` and by `start_recorder`. -/
theorem inputFails_undisciplined :
    ¬ Disciplined (startRecorder inputFails ⟨"640x480:h264", .none, false, false⟩
      (World.start inputFails .success)).2 := by
  intro h
  have hlog : (startRecorder inputFails ⟨"640x480:h264", .none, false, false⟩
      (World.start inputFails .success)).2.log =
    [.acquire .eventFlags, .acquire (.component .camera), .acquire (.component .encoder),
      .acquire (.queue .video), .acquire (.pool .video), .release (.pool .video),
      .release (.queue .video), .release (.pool .video), .release (.component .encoder),
      .release (.component .camera), .release (.queue .video), .release .eventFlags] := by
    decide
  have := h.balanced.once (.pool .video)
  rw [hlog] at this
  exact absurd (this (by decide)) (by decide)

end RcControl.Recorder
