import RcControl.Recorder.Initialise

/-!
# What the recorder says of its outcome

`init_sem` is posted once, and `init_result` tells whether the initialisation was completed. The status
that is returned is one variable for all the calls: it is left as it was where a call does not set it,
and keeps a failure that is tolerated where no later call sets it. `reports_iff` is when it is right.
-/

namespace RcControl.Recorder

open Mmal

/-- The calls of the iteration that are made all succeed. -/
structure Iteration.GoesWell (v : Variables) (i : Iteration) : Prop where
  fillVideo : v.encoderIn.pool.isSome → i.fillVideo = .success
  fillEncoder : v.encoderOut.pool.isSome → i.fillEncoder = .success
  forward : v.encoderIn.queue.isSome → i.forward = .success

/-- The initialisation is completed, with these variables. -/
def CompletesWith (c : Calls) (b : Behaviour) (r : InitResult) (v : Variables) : Prop :=
  ∃ status w, initialise c b (World.start c r) = .ok (status, v, w)

/-- The outcome is reported as it is: by one post, and by the status that is returned. -/
structure Reports (c : Calls) (b : Behaviour) (r : InitResult) : Prop where
  post : ∃ result, (startRecorder c b (World.start c r)).2.posts = [result] ∧
    (result = .success ↔ ∃ v, CompletesWith c b r v)
  status : (startRecorder c b (World.start c r)).1 = .success ↔
    ∃ v, CompletesWith c b r v ∧ ∀ i ∈ c.loop, i.GoesWell v

/-- A failure that is lost, or one that is tolerated and not: the event flags could not be created, or
the start of the capture is not implemented and the loop is left at once. -/
def Misreported (c : Calls) : Site × Status → Prop
  | (.eventFlagsCreate, status) => status ≠ .success
  | (.parameterSet .video .capture, status) => status = .enosys ∧ c.loop = []
  | _ => False

/-- Whether such a call has been made, and what was said so far. -/
structure Tells (c : Calls) (misreported : Prop) (r : InitResult) (posts : List InitResult) (w : World) :
    Prop where
  calls : (∃ x ∈ w.calls, Misreported c x) ↔ misreported
  initResult : w.initResult = r
  posts : w.posts = posts

section Report

variable {c : Calls} {b : Behaviour} {m : Prop} {r : InitResult} {posts : List InitResult}
  {w w' : World} {v : Variables} {status : Status}

lemma Tells.call (h : Tells c m r posts w) (site : Site) :
    Tells c (m ∨ Misreported c (site, (w.call c site).1)) r posts (w.call c site).2 := by
  refine ⟨?_, h.initResult, h.posts⟩
  rw [← h.calls]
  simp [World.call, or_and_right, exists_or]

lemma Tells.congr {m' : Prop} (h : Tells c m r posts w) (hm : m ↔ m') : Tells c m' r posts w :=
  ⟨h.calls.trans hm, h.initResult, h.posts⟩

lemma Tells.setInitResult (h : Tells c m r posts w) (r' : InitResult) :
    Tells c m r' posts { w with initResult := r' } := ⟨h.calls, rfl, h.posts⟩

/-- The stages neither say anything nor make one of the calls. -/
lemma stable_tells (c : Calls) (m : Prop) (r : InitResult) (posts : List InitResult) :
    Stable c (Tells c m r posts) where
  call {w site} h hflags hcapture := by
    refine (h.call site).congr (or_iff_left ?_)
    unfold Misreported
    split
    · rename_i heq
      exact absurd (congrArg Prod.fst heq) hflags
    · rename_i heq
      exact absurd (congrArg Prod.fst heq) hcapture
    · exact not_false
  buffers _ h := ⟨h.calls, h.initResult, h.posts⟩
  enabled _ h := ⟨h.calls, h.initResult, h.posts⟩
  connected _ h := ⟨h.calls, h.initResult, h.posts⟩
  log _ h := ⟨h.calls, h.initResult, h.posts⟩
  poolDestroys _ h := ⟨h.calls, h.initResult, h.posts⟩

lemma tells_start (c : Calls) (r : InitResult) : Tells c False r [] (World.start c r) :=
  ⟨by simp [World.start], rfl, rfl⟩

/-! ### The statuses of the stages -/

open Attempt

/-- A jump to the label is with a failure. -/
def Attempt.Honest (a : Attempt) : Prop := ∀ status w, a = (.error status, w) → status ≠ .success

lemma andThen_honest {a : Attempt} {f : Status → World → Attempt} (ha : a.Honest)
    (hf : ∀ status w, (f status w).Honest) : (a.andThen f).Honest := by
  obtain ⟨_ | status, w⟩ := a
  · exact ha
  · exact hf status w

lemma must_honest (x : Status × World) : (must x).Honest := by
  rintro status w h
  unfold must at h
  split at h
  · simp at h
  · rename_i hs
    simp only [Prod.mk.injEq, Except.error.injEq] at h
    exact h.1 ▸ hs

lemma mayLack_honest (x : Status × World) : (mayLack x).Honest := by
  rintro status w h
  unfold mayLack at h
  split at h
  · simp at h
  · rename_i hs
    simp only [Prod.mk.injEq, Except.error.injEq] at h
    exact h.1 ▸ fun hsuccess => hs (Or.inl hsuccess)

lemma ok_honest (status : Status) (w : World) : Attempt.Honest (.ok status, w) := by
  intro status w h
  simp at h

lemma einval_honest (w : World) : Attempt.Honest (.error .einval, w) := by
  intro status w h
  simp only [Prod.mk.injEq, Except.error.injEq] at h
  exact h.1 ▸ by decide

lemma setZeroCopy_honest (port other : Port) (status : Status) (w : World) :
    (setZeroCopy c b port other status w).Honest := by
  unfold setZeroCopy
  split
  · exact andThen_honest (mayLack_honest _) fun _ _ => mayLack_honest _
  · exact ok_honest status w

lemma setUpCamera_honest (w : World) : (setUpCamera c b w).Honest := by
  unfold setUpCamera
  split
  swap
  · exact einval_honest w
  refine andThen_honest (ok_honest _ _) fun _ w => andThen_honest (ok_honest _ _) fun status w =>
    andThen_honest (setZeroCopy_honest _ _ _ _) fun _ w => andThen_honest (must_honest _) fun _ w => ?_
  split
  · exact einval_honest w
  exact andThen_honest (must_honest _) fun _ w => andThen_honest (must_honest _) fun _ w =>
    andThen_honest (must_honest _) fun _ w => ok_honest _ _

lemma setUpEncoder_honest (name : ComponentName) (w : World) : (setUpEncoder c b name w).Honest := by
  unfold setUpEncoder
  split
  · exact andThen_honest (must_honest _) fun _ w => andThen_honest (setZeroCopy_honest _ _ _ _) fun _ w =>
      must_honest _
  · exact einval_honest w

/-- A component that is not there was not created with success. -/
lemma createComponent_none {component : Component} {name : ComponentName} {setUp : World → Attempt}
    (hsetUp : ∀ w, (setUp w).Honest) (h : createComponent c component name setUp w = (status, none, w')) :
    status ≠ .success := by
  unfold createComponent World.componentCreate at h
  generalize w.call c (.componentCreate name) = x at h
  obtain ⟨s, w₁⟩ := x
  dsimp only at h
  by_cases hs : s = .success
  · simp only [hs, if_true] at h
    have hhonest := hsetUp (w₁.acquire (.component component))
    generalize setUp (w₁.acquire (.component component)) = a at h hhonest
    obtain ⟨s' | s', w₂⟩ := a
    · simp only [Prod.mk.injEq] at h
      exact h.1 ▸ hhonest s' w₂ rfl
    · simp at h
  · simp only [hs, if_false, Prod.mk.injEq] at h
    exact h.1 ▸ hs

lemma createCamera_none (h : createCamera c b w = (status, none, w')) : status ≠ .success :=
  createComponent_none setUpCamera_honest h

lemma createEncoder_none (h : createEncoder c b w = (status, none, w')) : status ≠ .success := by
  unfold createEncoder at h
  split at h
  · simp only [Prod.mk.injEq] at h
    exact h.1 ▸ by decide
  · exact createComponent_none (setUpEncoder_honest _) h

/-- An iteration goes well if the calls that are made succeed, the others counting as a success. -/
lemma goesWell_iff (v : Variables) (i : Iteration) : i.GoesWell v ↔
    (if v.encoderIn.pool.isSome then i.fillVideo else .success) = .success ∧
      (if v.encoderOut.pool.isSome then i.fillEncoder else .success) = .success ∧
      (if v.encoderIn.queue.isSome then i.forward else .success) = .success := by
  simp only [ite_eq_right_iff]
  exact ⟨fun h => ⟨h.fillVideo, h.fillEncoder, h.forward⟩, fun ⟨h₁, h₂, h₃⟩ => ⟨h₁, h₂, h₃⟩⟩

/-- The status of the loop, once it is entered. -/
lemma mainLoop_success (v : Variables) (status : Status) (l : List Iteration) :
    mainLoop v status l = .success ↔ (∀ i ∈ l, i.GoesWell v) ∧ (l = [] → status = .success) := by
  induction l generalizing status with
  | nil => simp [mainLoop]
  | cons i l ih =>
    rw [List.forall_mem_cons, goesWell_iff, mainLoop]
    generalize (if v.encoderIn.pool.isSome then i.fillVideo else .success) = s₁
    generalize (if v.encoderOut.pool.isSome then i.fillEncoder else .success) = s₂
    generalize (if v.encoderIn.queue.isSome then i.forward else .success) = s₃
    by_cases h₁ : s₁ = .success
    swap
    · rw [if_pos h₁]
      exact iff_of_false h₁ fun h => h₁ h.1.1.1
    by_cases h₂ : s₂ = .success
    swap
    · rw [if_neg (not_not.2 h₁), if_pos h₂]
      exact iff_of_false h₂ fun h => h₂ h.1.1.2.1
    by_cases h₃ : s₃ = .success
    swap
    · rw [if_neg (not_not.2 h₁), if_neg (not_not.2 h₂), if_pos h₃]
      exact iff_of_false h₃ fun h => h₃ h.1.1.2.2
    rw [if_neg (not_not.2 h₁), if_neg (not_not.2 h₂), if_neg (not_not.2 h₃), ih]
    simp [h₁, h₂, h₃]

/-! ### The recorder -/

/-- The label `error`. -/
lemma startRecorderError_tells (h : Tells c m r posts w) (status : Status) (v : Variables) :
    ∃ w', startRecorderError c status v w = (status, w') ∧
      Tells c m r (if r = .success then posts else posts ++ [r]) w' := by
  obtain ⟨w', hw', heq⟩ := (stable_tells c m r posts).startRecorderError status v h
  refine ⟨_, heq, ?_⟩
  rw [hw'.initResult]
  split
  · exact hw'
  · exact ⟨hw'.calls, hw'.initResult, congrArg₂ _ hw'.posts (congrArg (fun x => [x]) hw'.initResult)⟩

/-- How the initialisation ends. -/
inductive Initialised (c : Calls) : Except Failure (Status × Variables × World) → Prop
  /-- The event flags could not be created, and `status` is as it was. -/
  | unset (r : InitResult) (v : Variables) (w : World) (hr : r ≠ .success) (h : Tells c True r [] w) :
      Initialised c (.error (.success, v, w))
  | failed (r : InitResult) (status : Status) (v : Variables) (w : World) (hr : r ≠ .success)
      (hs : status ≠ .success) (h : Tells c False r [] w) : Initialised c (.error (status, v, w))
  | completed (r : InitResult) (status : Status) (v : Variables) (w : World)
      (hs : status = .success ∨ status = .enosys)
      (h : Tells c (status = .enosys ∧ c.loop = []) r [] w) : Initialised c (.ok (status, v, w))

lemma enablePorts_ends (h : Tells c False r [] w) (camera encoder : Option Resource) :
    Initialised c (enablePorts c b camera encoder w) := by
  have hstable := stable_tells c False r []
  unfold enablePorts
  have hw : Tells c False r [] (connectPorts c b (initFrameQueue w)).2.2 :=
    hstable.connectPorts ⟨h.calls, h.initResult, h.posts⟩
  generalize connectPorts c b (initFrameQueue w) = x at hw ⊢
  obtain ⟨status, encoderIn, w⟩ := x
  dsimp only
  split
  · rename_i hs
    exact .failed _ _ _ _ (by decide) hs (hw.setInitResult .errorEncoderIn)
  have hw : Tells c False r [] (setupOutputPort c .encoderOutput w).2.2 :=
    hstable.setupOutputPort .encoderOutput hw
  generalize setupOutputPort c .encoderOutput w = x at hw ⊢
  obtain ⟨status, encoderOut, w⟩ := x
  dsimp only
  split
  · rename_i hs
    exact .failed _ _ _ _ (by decide) hs (hw.setInitResult .errorEncoderOut)
  have hw := hw.call (.parameterSet .video .capture)
  generalize w.call c (.parameterSet .video .capture) = x at hw ⊢
  obtain ⟨status, w⟩ := x
  dsimp only
  split
  · rename_i hs
    refine .failed _ _ _ _ (by decide) hs.1 ((hw.congr ?_).setInitResult .errorCameraCapture)
    simp [Misreported, hs.2]
  · rename_i hs
    refine .completed r status _ w ?_ (hw.congr (Iff.of_eq (false_or _)))
    rw [not_and_or, not_not, not_not] at hs
    exact hs

theorem initialise_ends (c : Calls) (b : Behaviour) (r : InitResult) :
    Initialised c (initialise c b (World.start c r)) := by
  have hstable := stable_tells c False r []
  unfold initialise createComponents
  have hw := (tells_start c r).call .eventFlagsCreate
  generalize (World.start c r).call c .eventFlagsCreate = x at hw ⊢
  obtain ⟨status, w⟩ := x
  dsimp only at hw ⊢
  by_cases hs : status = .success
  swap
  · rw [if_pos hs]
    exact .unset _ _ _ (by decide) ((hw.congr (by simpa [Misreported] using hs)).setInitResult
      .errorEventFlags)
  rw [if_neg (not_not.2 hs)]
  have hw : Tells c False r [] (w.acquire .eventFlags) :=
    hstable.log _ (hw.congr (by simpa [Misreported] using hs))
  have hnone : ∀ status w', createCamera c b (w.acquire .eventFlags) = (status, none, w') →
      status ≠ .success := fun _ _ => createCamera_none
  have hw : Tells c False r [] (createCamera c b (w.acquire .eventFlags)).2.2 := hstable.createCamera hw
  generalize createCamera c b (w.acquire .eventFlags) = x at hw hnone ⊢
  obtain ⟨status, camera, w⟩ := x
  dsimp only
  by_cases hcamera : camera = none
  · rw [if_pos hcamera]
    exact .failed _ _ _ _ (by decide) (hnone _ _ (by rw [hcamera])) (hw.setInitResult .errorCamera)
  rw [if_neg hcamera]
  have hnone : ∀ status w', createEncoder c b w = (status, none, w') → status ≠ .success :=
    fun _ _ => createEncoder_none
  have hw : Tells c False r [] (createEncoder c b w).2.2 := hstable.createEncoder hw
  generalize createEncoder c b w = x at hw hnone ⊢
  obtain ⟨status, encoder, w⟩ := x
  dsimp only
  by_cases hencoder : encoder = none
  · rw [if_pos hencoder]
    exact .failed _ _ _ _ (by decide) (hnone _ _ (by rw [hencoder])) (hw.setInitResult .errorEncoder)
  · rw [if_neg hencoder]
    exact enablePorts_ends hw camera encoder

/-- What comes after the initialisation. -/
lemma record_tells (h : Tells c m r [] w) (status : Status) (v : Variables) :
    ∃ w', record c status v w = (mainLoop v status c.loop, w') ∧ Tells c m .success [.success] w' := by
  have hstable := stable_tells c m .success [.success]
  have hpost : Tells c m .success [.success] (World.post { w with initResult := .success }) :=
    ⟨h.calls, rfl, congrArg (· ++ [InitResult.success]) h.posts⟩
  exact startRecorderError_tells (hstable.disablePort .encoderOutput
    (hstable.disablePort .encoderInput (hstable.disablePort .video hpost))) _ v

lemma Tells.reported_iff (h : Tells c m r posts w) : (∀ x ∈ w.calls, ¬ Misreported c x) ↔ ¬ m := by
  rw [← h.calls]
  simp only [not_exists, not_and]

lemma not_completesWith {f : Failure} (h : initialise c b (World.start c r) = .error f) :
    ¬ ∃ v, CompletesWith c b r v := by
  rintro ⟨v, status, w, hok⟩
  cases h.symm.trans hok

/-- An initialisation that was not completed is reported by its status and its result. -/
lemma reports_of_failed {f : Failure} {r' : InitResult} (h : initialise c b (World.start c r) = .error f)
    (hposts : (startRecorder c b (World.start c r)).2.posts = [r']) (hr : r' ≠ .success)
    (hs : (startRecorder c b (World.start c r)).1 ≠ .success) : Reports c b r where
  post := ⟨r', hposts, iff_of_false hr (not_completesWith h)⟩
  status := iff_of_false hs fun ⟨v, hv, _⟩ => not_completesWith h ⟨v, hv⟩

/-- One that was completed is, unless a status that is not a success was tolerated and nothing came
after it. -/
lemma reports_completed_iff (h : initialise c b (World.start c r) = .ok (status, v, w))
    (hs : status = .success ∨ status = .enosys)
    (hrec : startRecorder c b (World.start c r) = (mainLoop v status c.loop, w'))
    (hposts : w'.posts = [.success]) : Reports c b r ↔ ¬ (status = .enosys ∧ c.loop = []) := by
  have hwith : ∀ v', CompletesWith c b r v' ↔ v' = v := by
    intro v'
    rw [CompletesWith, h]
    simp [eq_comm]
  constructor
  · rintro hreports ⟨henosys, hloop⟩
    have hsuccess := hreports.status.2 ⟨v, (hwith v).2 rfl, by simp [hloop]⟩
    rw [hrec, hloop] at hsuccess
    exact absurd (henosys.symm.trans hsuccess) (by decide)
  · intro hgood
    have hempty : c.loop = [] → status = .success := fun hloop =>
      hs.resolve_right fun henosys => hgood ⟨henosys, hloop⟩
    refine ⟨⟨.success, ?_, by simp [hwith]⟩, ?_⟩
    · rw [hrec]
      exact hposts
    · rw [hrec, mainLoop_success, and_iff_left hempty]
      simp [hwith]

/-- **What the recorder says of its outcome** is right exactly if no call is misreported. -/
theorem reports_iff (c : Calls) (b : Behaviour) (r : InitResult) :
    Reports c b r ↔
      ∀ x ∈ (startRecorder c b (World.start c r)).2.calls, ¬ Misreported c x := by
  have hends := initialise_ends c b r
  have heq := startRecorder_eq c b (World.start c r)
  generalize hinit : initialise c b (World.start c r) = i at hends heq
  cases hends with
  | unset r' v w hr h =>
    obtain ⟨w', herror, hw⟩ := startRecorderError_tells h .success v
    have hrec : startRecorder c b (World.start c r) = (.success, w') := heq.trans herror
    rw [hrec, hw.reported_iff, iff_false_right (not_not.2 trivial)]
    intro hreports
    obtain ⟨v, hv, -⟩ := hreports.status.1 (congrArg Prod.fst hrec)
    exact not_completesWith hinit ⟨v, hv⟩
  | failed r' status v w hr hs h =>
    obtain ⟨w', herror, hw⟩ := startRecorderError_tells h status v
    rw [if_neg hr] at hw
    have hrec : startRecorder c b (World.start c r) = (status, w') := heq.trans herror
    rw [hrec, hw.reported_iff, iff_true_right not_false]
    refine reports_of_failed hinit ?_ hr ?_
    · rw [hrec]
      exact hw.posts
    · rw [hrec]
      exact hs
  | completed r' status v w hs h =>
    obtain ⟨w', hrecord, hw⟩ := record_tells h status v
    have hrec : startRecorder c b (World.start c r) = (mainLoop v status c.loop, w') := heq.trans hrecord
    rw [reports_completed_iff hinit hs hrec hw.posts, hrec, hw.reported_iff]

end Report

/-- Everything succeeds, but for the event flags. -/
def flagsFail : Calls where
  status _ site := if site = .eventFlagsCreate then .enomem else .success
  leavesPointer _ := false
  hasPorts _ := true
  created _ := ⟨⟨1, 1, 1024, 4096⟩, 1, 1024⟩
  committed _ _ := ⟨1, 1, 1024, 4096⟩
  sscanf _ := some (640, 480, "h264")
  loop := []

/-- Nothing is initialised, and a success is returned. -/
theorem flagsFail_misreported : ¬ Reports flagsFail ⟨"640x480:h264", .none, false, false⟩ .success := by
  intro h
  obtain ⟨v, ⟨status, w, hw⟩, -⟩ := h.status.1 rfl
  simp [initialise, createComponents, World.call, flagsFail] at hw

end RcControl.Recorder
