import RcControl.Recorder.Initialise
import RcControl.FrameQueue.Reinit
import Mathlib.Data.Nat.GCD.Basic

/-!
# The buffers of the ports

How many buffers the ports have, and how large, at the main loop: `create_camera` gives the video port
at least `VIDEO_OUTPUT_BUFFERS_NUM`, and `connect_ports` without a tunnel starts again from what the
ports recommend (`enough_iff`). The frame queue gets three times what the output of the encoder
recommends, in 32 bits, and `create_encoder` gives that port the larger of what it recommends and
requires (`roomy_iff`).
-/

namespace RcControl.Recorder

open Mmal Attempt Lib.Run

/-! ### Attempts that come to their end -/

namespace Attempt

variable {a : Attempt} {f : Status → World → Attempt} {x : Status × World} {status : Status} {w : World}

lemma andThen_eq_ok (h : a.andThen f = (.ok status, w)) :
    ∃ s w₁, a = (.ok s, w₁) ∧ f s w₁ = (.ok status, w) := by
  obtain ⟨_ | s, w₁⟩ := a
  · simp [andThen] at h
  · exact ⟨s, w₁, rfl, h⟩

lemma must_eq_ok (h : must x = (.ok status, w)) : x.2 = w := by
  unfold must at h
  split at h
  · exact congrArg Prod.snd h
  · simp at h

end Attempt

section Setup

variable {c : Calls} {b : Behaviour} {r : InitResult} {status : Status} {w w' : World}

lemma setZeroCopy_buffers (port other : Port) (status : Status) (w : World) :
    (setZeroCopy c b port other status w).2.buffers = w.buffers := by
  have hcall : ∀ site (w' : World), w'.buffers = w.buffers →
      (mayLack (w'.call c site)).2.buffers = w.buffers :=
    fun _ _ hw' => mayLack_keeps (P := fun w' => w'.buffers = w.buffers) hw'
  unfold setZeroCopy
  split
  · exact andThen_keeps (P := fun w' => w'.buffers = w.buffers) (hcall _ w rfl) fun _ w' hw' =>
      hcall _ w' hw'
  · rfl

lemma switch_buffers (port : Port) (on : Bool) (w : World) :
    (w.switch port on).buffers = w.buffers := by
  unfold World.switch
  split <;> rfl

lemma portEnable_buffers (c : Calls) (port : Port) (w : World) : (w.portEnable c port).2.buffers =
    (if w.connected ∧ port = .video then w.maximize else w).buffers := by
  unfold World.portEnable
  generalize (if w.connected ∧ port = .video then w.maximize else w) = w₁
  dsimp only
  split
  · exact switch_buffers ..
  · rfl

/-- At least as many as are asked for, and as there were. -/
lemma raise_bufferNum (x : Buffers) :
    x.bufferNumMin ≤ x.raise.bufferNum ∧ x.bufferNum ≤ x.raise.bufferNum := by
  unfold Buffers.raise
  dsimp only
  split <;> bv_omega

lemma ensureBuffers_self (port : Port) (w : World) :
    VIDEO_OUTPUT_BUFFERS_NUM ≤ ((ensureBuffers port w).buffers port).bufferNum ∧
      (w.buffers port).bufferNum ≤ ((ensureBuffers port w).buffers port).bufferNum ∧
      ((ensureBuffers port w).buffers port).toRequirements = (w.buffers port).toRequirements := by
  unfold ensureBuffers
  split
  · rename_i hlt
    simp only [World.setBuffers, Function.update_self, and_true]
    bv_omega
  · rename_i hlt
    simp only [and_true]
    bv_omega

lemma ensureBuffers_of_ne {port other : Port} (hne : other ≠ port) (w : World) :
    (ensureBuffers port w).buffers other = w.buffers other := by
  unfold ensureBuffers
  split
  · exact Function.update_of_ne hne ..
  · rfl

/-- The video port has enough buffers, and the still port is the last to ask for others. -/
lemma setUpCamera_buffers (h : setUpCamera c b w = (.ok status, w')) :
    VIDEO_OUTPUT_BUFFERS_NUM ≤ (w'.buffers .video).bufferNum ∧
      (c.committed .video .video).bufferNumMin ≤ (w'.buffers .video).bufferNum ∧
      (w'.buffers .video).toRequirements = c.committed .still .video := by
  unfold setUpCamera at h
  split at h
  swap
  · simp at h
  obtain ⟨_, _, -, h⟩ := andThen_eq_ok h
  obtain ⟨_, _, -, h⟩ := andThen_eq_ok h
  obtain ⟨_, _, -, h⟩ := andThen_eq_ok h
  obtain ⟨_, _, -, h⟩ := andThen_eq_ok h
  split at h
  · simp at h
  obtain ⟨_, w₀, -, h⟩ := andThen_eq_ok h
  obtain ⟨_, w₁, hvideo, h⟩ := andThen_eq_ok h
  obtain ⟨_, w₂, hstill, h⟩ := andThen_eq_ok h
  have hw' : w'.buffers .video = w₂.buffers .video := by
    have hlast : ((ensureBuffers .still w₂).call c (.componentEnable .camera)).2 = w' :=
      congrArg Prod.snd h
    rw [← hlast]
    exact ensureBuffers_of_ne (by decide) w₂
  have hw₂ : w₂.buffers .video = { (ensureBuffers .video w₁).buffers .video with
      toRequirements := c.committed .still .video } := by
    rw [← must_eq_ok hstill]
    rfl
  have hw₁ : w₁.buffers .video =
      Buffers.raise { w₀.buffers .video with toRequirements := c.committed .video .video } := by
    rw [← must_eq_ok hvideo]
    rfl
  obtain ⟨hfloor, hnum, -⟩ := ensureBuffers_self .video w₁
  have hmin := (raise_bufferNum { w₀.buffers .video with toRequirements := c.committed .video .video }).1
  rw [← hw₁] at hmin
  rw [hw', hw₂]
  exact ⟨hfloor, BitVec.le_trans hmin hnum, rfl⟩

/-- What is asked of the output of the encoder is what it gets; the video port is left alone. -/
lemma setUpEncoder_buffers {name : ComponentName} (h : setUpEncoder c b name w = (.ok status, w')) :
    w'.buffers .video = w.buffers .video ∧
      ∃ x : Buffers, x.toRequirements = c.committed .encoderOutput .encoderOutput ∧
        w'.buffers .encoderOutput = x.recommend := by
  unfold setUpEncoder at h
  split at h
  swap
  · simp at h
  obtain ⟨s, w₁, hcommit, h⟩ := andThen_eq_ok h
  obtain ⟨_, w₂, hzero, h⟩ := andThen_eq_ok h
  have hbuffers : w'.buffers = Function.update w₁.buffers .encoderOutput
      (w₁.buffers .encoderOutput).recommend := by
    rw [← must_eq_ok h]
    have := setZeroCopy_buffers (c := c) (b := b) .encoderOutput .encoderInput s
      (w₁.setBuffers .encoderOutput (w₁.buffers .encoderOutput).recommend)
    rw [hzero] at this
    exact this
  rw [hbuffers, Function.update_self, Function.update_of_ne (by decide), ← must_eq_ok hcommit]
  exact ⟨rfl, _, rfl, rfl⟩

lemma createComponent_eq_some {component : Component} {name : ComponentName}
    {setUp : World → Attempt} {p : Resource}
    (h : createComponent c component name setUp w = (status, some p, w')) :
    ∃ w₀ s, w₀.buffers = w.buffers ∧ setUp w₀ = (.ok s, w') := by
  unfold createComponent World.componentCreate at h
  have hbuffers : (w.call c (.componentCreate name)).2.buffers = w.buffers := rfl
  generalize w.call c (.componentCreate name) = x at h hbuffers
  obtain ⟨s, w₁⟩ := x
  dsimp only at h
  by_cases hs : s = .success
  · simp only [hs, if_true] at h
    refine ⟨w₁.acquire (.component component), ?_⟩
    generalize hset : setUp (w₁.acquire (.component component)) = a at h
    obtain ⟨s' | s', w₂⟩ := a
    · simp at h
    · simp only [Prod.mk.injEq] at h
      exact ⟨s', hbuffers, by rw [h.2.2]⟩
  · simp [hs] at h

/-- The two components are there. -/
lemma createComponents_buffers {camera encoder : Option Resource}
    (h : createComponents c b w = .ok (camera, encoder, w')) :
    VIDEO_OUTPUT_BUFFERS_NUM ≤ (w'.buffers .video).bufferNum ∧
      (c.committed .video .video).bufferNumMin ≤ (w'.buffers .video).bufferNum ∧
      (w'.buffers .video).toRequirements = c.committed .still .video ∧
      ∃ x : Buffers, x.toRequirements = c.committed .encoderOutput .encoderOutput ∧
        w'.buffers .encoderOutput = x.recommend := by
  unfold createComponents at h
  dsimp only at h
  split at h
  · simp at h
  generalize hcamera : createCamera c b _ = x at h
  obtain ⟨s₁, camera', w₁⟩ := x
  dsimp only at h
  split at h
  · simp at h
  rename_i hsome
  obtain ⟨p, rfl⟩ := Option.ne_none_iff_exists'.1 hsome
  obtain ⟨_, _, -, hsetUp⟩ := createComponent_eq_some hcamera
  generalize hencoder : createEncoder c b w₁ = x at h
  obtain ⟨s₂, encoder', w₂⟩ := x
  dsimp only at h
  split at h
  · simp at h
  rename_i hsome
  obtain ⟨q, rfl⟩ := Option.ne_none_iff_exists'.1 hsome
  obtain rfl : w₂ = w' := by
    simp only [Except.ok.injEq, Prod.mk.injEq] at h
    exact h.2.2
  unfold createEncoder at hencoder
  split at hencoder
  · simp at hencoder
  obtain ⟨_, _, hbuffers, hsetUp'⟩ := createComponent_eq_some hencoder
  obtain ⟨hvideo, hout⟩ := setUpEncoder_buffers hsetUp'
  obtain ⟨hfloor, hmin, hreq⟩ := setUpCamera_buffers hsetUp
  rw [hvideo, hbuffers]
  exact ⟨hfloor, hmin, hreq, hout⟩

/-! ### Connecting the ports -/

/-- The ports have the same number of buffers, and this is what was asked of them last. -/
structure Agreed (c : Calls) (n : BitVec 32) (w : World) : Prop where
  video : (w.buffers .video).toRequirements = c.committed .still .video
  input : (w.buffers .encoderInput).toRequirements = c.committed .encoderInput .encoderInput
  videoNum : (w.buffers .video).bufferNum = n
  inputNum : (w.buffers .encoderInput).bufferNum = n

lemma Agreed.congr {n : BitVec 32} (h : Agreed c n w) (heq : w'.buffers = w.buffers) :
    Agreed c n w' := by
  refine ⟨?_, ?_, ?_, ?_⟩ <;> rw [heq]
  exacts [h.video, h.input, h.videoNum, h.inputNum]

/-- Two ports that get the larger number agree. -/
lemma agreed_maximize (hvideo : (w.buffers .video).toRequirements = c.committed .still .video)
    (hinput : (w.buffers .encoderInput).toRequirements = c.committed .encoderInput .encoderInput) :
    Agreed c ((w.buffers .encoderInput).max (w.buffers .video)).1 w.maximize :=
  ⟨hvideo, hinput, rfl, rfl⟩

lemma Agreed.maximize {n : BitVec 32} (h : Agreed c n w) : Agreed c n w.maximize := by
  have hmax : ((w.buffers .encoderInput).max (w.buffers .video)).1 = n := by
    simp [Buffers.max, h.inputNum, h.videoNum]
  exact hmax ▸ agreed_maximize h.video h.input

lemma Agreed.portEnable {n : BitVec 32} (h : Agreed c n w) (port : Port) :
    Agreed c n (w.portEnable c port).2 := by
  have hw : Agreed c n (if w.connected ∧ port = .video then w.maximize else w) := by
    split
    · exact h.maximize
    · exact h
  exact hw.congr (portEnable_buffers c port w)

lemma create_buffers (site : Site) (p : Resource) (w : World) :
    (w.create c site p).2.buffers = w.buffers := by
  unfold World.create
  dsimp only
  split <;> rfl

lemma Agreed.setupOutputPort {n : BitVec 32} (h : Agreed c n w) (port : Port) :
    Agreed c n (setupOutputPort c port w).2.2 := by
  unfold Recorder.setupOutputPort
  have hw := h.congr (create_buffers (c := c) (.queueCreate port) (.queue port) w)
  unfold World.queueCreate
  generalize w.create c (.queueCreate port) (.queue port) = x at hw ⊢
  obtain ⟨_ | queue, w⟩ := x
  · exact hw
  have hw := hw.congr (create_buffers (c := c) (.poolCreate port) (.pool port) w)
  unfold World.poolCreate
  dsimp only
  generalize w.create c (.poolCreate port) (.pool port) = x at hw ⊢
  obtain ⟨_ | pool, w⟩ := x
  · exact hw.congr rfl
  have hw := hw.portEnable port
  dsimp only
  split
  · exact hw
  · exact hw.congr rfl

/-- The number of buffers the ports recommend, and have to have. -/
def recommended (c : Calls) : ℕ :=
  let input := c.committed .encoderInput .encoderInput
  let video := c.committed .still .video
  max (max input.bufferNumRecommended.toNat input.bufferNumMin.toNat)
    (max video.bufferNumRecommended.toNat video.bufferNumMin.toNat)

/-- The larger of two numbers, as the code takes it. -/
lemma toNat_ite_lt (x y : BitVec 32) : (if x < y then y else x).toNat = max x.toNat y.toNat := by
  split
  · next h =>
    rw [BitVec.lt_def] at h
    omega
  · next h =>
    rw [BitVec.lt_def] at h
    omega

lemma recommend_bufferNum (x : Buffers) : x.recommend.bufferNum.toNat =
    max x.bufferNumRecommended.toNat x.bufferNumMin.toNat :=
  toNat_ite_lt x.bufferNumRecommended x.bufferNumMin

lemma recommend_bufferSize (x : Buffers) : x.recommend.bufferSize.toNat =
    max x.bufferSizeRecommended.toNat x.bufferSizeMin.toNat :=
  toNat_ite_lt x.bufferSizeRecommended x.bufferSizeMin

lemma max_toNat (x y : Buffers) : (x.max y).1.toNat = max x.bufferNum.toNat y.bufferNum.toNat :=
  (toNat_ite_lt y.bufferNum x.bufferNum).trans (Nat.max_comm _ _)

/-- Without a tunnel the recommendations are all that counts. -/
lemma queuePorts_agreed {p : Pointers} {n : BitVec 32} (h : queuePorts c w = (.success, p, w'))
    (hagreed : Agreed c n (matchBuffers w)) : Agreed c n w' := by
  have hw := hagreed.setupOutputPort .video
  unfold queuePorts at h
  generalize setupOutputPort c .video (matchBuffers w) = x at hw h
  obtain ⟨s, p', w₁⟩ := x
  dsimp only at h
  split at h
  · rename_i hs
    exact absurd (congrArg Prod.fst h) hs
  split at h
  · rename_i hs
    exact absurd (congrArg Prod.fst h) hs
  · have hw := hw.portEnable .encoderInput
    rw [(Prod.mk.inj (Prod.mk.inj h).2).2] at hw
    exact hw

lemma matchBuffers_agreed (hvideo : (w.buffers .video).toRequirements = c.committed .still .video)
    (hinput : (w.buffers .encoderInput).toRequirements = c.committed .encoderInput .encoderInput) :
    ∃ n : BitVec 32, n.toNat = recommended c ∧ Agreed c n (matchBuffers w) := by
  refine ⟨_, ?_, agreed_maximize hvideo hinput⟩
  rw [max_toNat]
  change max (w.buffers .encoderInput).recommend.bufferNum.toNat
    (w.buffers .video).recommend.bufferNum.toNat = _
  rw [recommend_bufferNum, recommend_bufferNum, hvideo, hinput]
  rfl

lemma tunnelPorts_agreed {p : Pointers} (h : tunnelPorts c w = (.success, p, w'))
    (hvideo : (w.buffers .video).toRequirements = c.committed .still .video)
    (hinput : (w.buffers .encoderInput).toRequirements = c.committed .encoderInput .encoderInput) :
    Agreed c ((w.buffers .encoderInput).max (w.buffers .video)).1 w' := by
  unfold tunnelPorts at h
  dsimp only at h
  split at h
  · rename_i hs
    exact absurd (congrArg Prod.fst h) hs
  · rw [← (Prod.mk.inj (Prod.mk.inj h).2).2]
    refine (agreed_maximize hvideo hinput).congr ?_
    exact portEnable_buffers c .video { (w.call c .portConnect).2 with connected := true }

/-- The input of the encoder is asked what it needs, and gets as many buffers as that. -/
lemma formatCommit_encoderInput (c : Calls) (w : World) :
    (w.formatCommit c .encoderInput).2.buffers .video = w.buffers .video ∧
      ((w.formatCommit c .encoderInput).2.buffers .encoderInput).toRequirements =
        c.committed .encoderInput .encoderInput ∧
      (c.committed .encoderInput .encoderInput).bufferNumMin ≤
        ((w.formatCommit c .encoderInput).2.buffers .encoderInput).bufferNum :=
  ⟨rfl, rfl, (raise_bufferNum { w.buffers .encoderInput with
    toRequirements := c.committed .encoderInput .encoderInput }).1⟩

/-- What `connect_ports` leaves, where it succeeds. -/
lemma connectPorts_agreed {p : Pointers} (h : connectPorts c b w = (.success, p, w'))
    (hfloor : VIDEO_OUTPUT_BUFFERS_NUM ≤ (w.buffers .video).bufferNum)
    (hmin : (c.committed .video .video).bufferNumMin ≤ (w.buffers .video).bufferNum)
    (hvideo : (w.buffers .video).toRequirements = c.committed .still .video) :
    ∃ n : BitVec 32, Agreed c n w' ∧ if b.tunneling then 3 ≤ n.toNat ∧
      (c.committed .video .video).bufferNumMin ≤ n ∧
      (c.committed .encoderInput .encoderInput).bufferNumMin ≤ n else n.toNat = recommended c := by
  unfold connectPorts at h
  dsimp only at h
  split at h
  · rename_i hs
    exact absurd (congrArg Prod.fst h) hs
  obtain ⟨hsame, hreq, hmin'⟩ := formatCommit_encoderInput c (w.call c .formatFullCopy).2
  generalize World.formatCommit c .encoderInput (w.call c .formatFullCopy).2 = x
    at h hsame hreq hmin'
  obtain ⟨s, w₁⟩ := x
  dsimp only at h hsame hreq hmin'
  change w₁.buffers .video = w.buffers .video at hsame
  split at h
  · rename_i hs
    exact absurd (congrArg Prod.fst h) hs
  rw [← hsame] at hfloor hmin hvideo
  split at h
  · refine ⟨_, tunnelPorts_agreed h hvideo hreq, ?_⟩
    rw [if_pos ‹_›]
    have hmax := max_toNat (w₁.buffers .encoderInput) (w₁.buffers .video)
    have hthree : VIDEO_OUTPUT_BUFFERS_NUM.toNat = 3 := rfl
    simp only [BitVec.le_def] at hfloor hmin hmin' ⊢
    omega
  · obtain ⟨n, hn, hagreed⟩ := matchBuffers_agreed hvideo hreq
    exact ⟨n, queuePorts_agreed h hagreed, by rwa [if_neg ‹_›]⟩

/-- At the main loop. -/
lemma initialise_agreed {v : Variables} (h : initialise c b w = .ok (status, v, w')) :
    ∃ n : BitVec 32, Agreed c n w' ∧ if b.tunneling then 3 ≤ n.toNat ∧
      (c.committed .video .video).bufferNumMin ≤ n ∧
      (c.committed .encoderInput .encoderInput).bufferNumMin ≤ n else n.toNat = recommended c := by
  unfold initialise at h
  rcases hcomponents : createComponents c b w with failure | ⟨camera, encoder, w₁⟩
  · simp [hcomponents] at h
  obtain ⟨hfloor, hmin, hvideo, -⟩ := createComponents_buffers hcomponents
  rw [hcomponents] at h
  dsimp only at h
  unfold enablePorts at h
  generalize hconnect : connectPorts c b (initFrameQueue w₁) = x at h
  obtain ⟨s, encoderIn, w₂⟩ := x
  dsimp only at h
  split at h
  · simp at h
  rename_i hs
  rw [not_not.1 hs] at hconnect
  obtain ⟨n, hagreed, hn⟩ := connectPorts_agreed (w := initFrameQueue w₁) hconnect hfloor hmin hvideo
  have hw := hagreed.setupOutputPort .encoderOutput
  generalize setupOutputPort c .encoderOutput w₂ = x at h hw
  obtain ⟨s, encoderOut, w₃⟩ := x
  dsimp only at h
  split at h
  · simp at h
  split at h
  · simp at h
  · simp only [Except.ok.injEq, Prod.mk.injEq] at h
    exact ⟨n, hw.congr (by rw [← h.2.2]; rfl), hn⟩

/-- The video port has enough buffers "to avoid dropping frames", and no fewer than its component and
that of the other port require. -/
structure EnoughBuffers (w : World) : Prop where
  floor : VIDEO_OUTPUT_BUFFERS_NUM ≤ (w.buffers .video).bufferNum
  video : (w.buffers .video).bufferNumMin ≤ (w.buffers .video).bufferNum
  input : (w.buffers .encoderInput).bufferNumMin ≤ (w.buffers .video).bufferNum

/-- The port requires or recommends as many. -/
def AsksFor (n : BitVec 32) (x : Requirements) : Prop :=
  n ≤ x.bufferNumMin ∨ n ≤ x.bufferNumRecommended

/-- **Enough camera buffers.** The video port has them at the main loop if the ports are tunnelled, and
otherwise exactly if one of the two asks for as many. -/
theorem enough_iff {v : Variables}
    (hstill : (c.committed .still .video).bufferNumMin ≤ (c.committed .video .video).bufferNumMin)
    (h : initialise c b (World.start c r) = .ok (status, v, w)) :
    EnoughBuffers w ↔ b.tunneling = true ∨
      AsksFor VIDEO_OUTPUT_BUFFERS_NUM (c.committed .still .video) ∨
      AsksFor VIDEO_OUTPUT_BUFFERS_NUM (c.committed .encoderInput .encoderInput) := by
  obtain ⟨n, hagreed, hn⟩ := initialise_agreed h
  have hthree : VIDEO_OUTPUT_BUFFERS_NUM.toNat = 3 := rfl
  have henough : EnoughBuffers w ↔ 3 ≤ n.toNat ∧ (c.committed .still .video).bufferNumMin ≤ n ∧
      (c.committed .encoderInput .encoderInput).bufferNumMin ≤ n := by
    constructor
    · rintro ⟨hfloor, hvideo, hinput⟩
      rw [hagreed.videoNum] at hfloor hvideo hinput
      exact ⟨hfloor, hagreed.video ▸ hvideo, hagreed.input ▸ hinput⟩
    · rintro ⟨hfloor, hvideo, hinput⟩
      refine ⟨?_, ?_, ?_⟩ <;> rw [hagreed.videoNum]
      exacts [hfloor, hagreed.video ▸ hvideo, hagreed.input ▸ hinput]
  rw [henough]
  simp only [AsksFor, BitVec.le_def] at hstill hn ⊢
  cases htunneling : b.tunneling with
  | true =>
    rw [htunneling, if_pos rfl] at hn
    exact iff_of_true ⟨hn.1, hstill.trans hn.2.1, hn.2.2⟩ (Or.inl rfl)
  | false =>
    rw [htunneling, if_neg Bool.false_ne_true] at hn
    simp only [Bool.false_eq_true, false_or, hthree, hn, recommended]
    omega

end Setup

/-- Everything succeeds, and every port asks for the same. -/
def asking (x : Requirements) : Calls where
  status _ _ := .success
  leavesPointer _ := false
  hasPorts _ := true
  created _ := ⟨x, 1, 1024⟩
  committed _ _ := x
  sscanf _ := some (640, 480, "h264")
  loop := []

theorem enough_iff_one :
    ∃ status v w, initialise (asking ⟨1, 1, 1024, 4096⟩) ⟨"640x480:h264", .none, false, false⟩
        (World.start (asking ⟨1, 1, 1024, 4096⟩) .success) = .ok (status, v, w) ∧
      (EnoughBuffers w ↔ false = true ∨ AsksFor VIDEO_OUTPUT_BUFFERS_NUM ⟨1, 1, 1024, 4096⟩ ∨
        AsksFor VIDEO_OUTPUT_BUFFERS_NUM ⟨1, 1, 1024, 4096⟩) := by
  obtain ⟨status, v, w, h⟩ : ∃ status v w, initialise (asking ⟨1, 1, 1024, 4096⟩)
      ⟨"640x480:h264", .none, false, false⟩ (World.start (asking ⟨1, 1, 1024, 4096⟩) .success) =
        .ok (status, v, w) := ⟨_, _, _, rfl⟩
  exact ⟨status, v, w, h, enough_iff (BitVec.le_refl _) h⟩

/-- Two ports that recommend one buffer each, without a tunnel. -/
theorem oneBuffer_drops :
    ¬ ∀ (c : Calls) (b : Behaviour) (r : InitResult) (status : Status) (v : Variables) (w : World),
      (c.committed .still .video).bufferNumMin ≤ (c.committed .video .video).bufferNumMin →
      initialise c b (World.start c r) = .ok (status, v, w) → EnoughBuffers w := by
  intro hclaim
  have henough := hclaim (asking ⟨1, 1, 1024, 4096⟩) ⟨"640x480:h264", .none, false, false⟩ .success
    _ _ _ (BitVec.le_refl _) rfl
  exact absurd henough.floor (by decide)

/-! ### The frame queue -/

open FrameQueue (Platform Op opStep construct writeBack)

/-- A buffer of at most `size` bytes is not refused by a queue that was initialised so and is not putting
a frame together. -/
def TakesSingly (capacity slot size : BitVec 32) : Prop :=
  ∀ (pf : Platform) (g : Bool) (m n : ℕ) (ops : List Op) os₀ s₀ calls os s (x : BufferHeader) taken s',
    run (opStep pf) (construct g m n) (ops ++ [.init capacity.toNat slot.toNat]) = .ok (os₀, s₀) →
    run (FrameQueue.step pf) s₀ calls = .ok (os, s) → s.pending = [] → x.length ≤ size.toNat →
    writeBack pf s (some x) = .ok (taken, s') → taken = true

/-- The frame queue has a slot, and each is as large as the buffers of the encoder. -/
structure FitsEncoder (capacity slot size : BitVec 32) : Prop where
  one_le : 1 ≤ capacity
  size_le : size ≤ slot
  takes : TakesSingly capacity slot size

/-- Three times the recommended number is not zero, and three times the recommended size is no less than
that and the minimum; in 32 bits, where the products wrap. -/
def LeavesRoom (x : Requirements) : Prop :=
  x.bufferNumRecommended ≠ 0 ∧
    (x.bufferSizeRecommended.toNat ≤ 1431655765 ∧
        x.bufferSizeMin.toNat ≤ 3 * x.bufferSizeRecommended.toNat ∨
      2147483648 ≤ x.bufferSizeRecommended.toNat ∧ x.bufferSizeRecommended.toNat ≤ 2863311530 ∧
        x.bufferSizeMin.toNat + 2 ^ 32 ≤ 3 * x.bufferSizeRecommended.toNat)

section FrameQueue

variable {c : Calls} {b : Behaviour} {r : InitResult} {w w' : World}

lemma takesSingly_of_le {capacity slot size : BitVec 32} (h : size ≤ slot) :
    TakesSingly capacity slot size := by
  intro pf g m n ops os₀ s₀ calls os s x taken s' hops hcalls hpend hx hwrite
  have hinv := inv_run (FrameQueue.inv_step pf capacity.toNat slot.toNat) (FrameQueue.init_fresh hops).1 hcalls
  rcases FrameQueue.writeBack_shapes hinv (some x) with hn | ⟨y, hy, hz | ⟨hz, hl⟩ | hst | ⟨hz, hl, p, hp⟩⟩
  · cases hn
  all_goals obtain rfl := Option.some.inj hy
  · rw [FrameQueue.writeBack_of_skipped hinv.inited hz] at hwrite
    simp only [Except.ok.injEq, Prod.mk.injEq] at hwrite
    exact hwrite.1.symm
  · rw [BitVec.le_def] at h
    omega
  · rw [FrameQueue.writeBack_of_starts hst] at hwrite
    by_cases hcan : FrameQueue.CanTake s
    · obtain ⟨p, s₁, f, -, -, -, -, -, hstart⟩ :=
        FrameQueue.startFrame_ok pf hinv hcan (hinv.bufferSize ▸ hst.2.2.1)
      rw [hstart, Except.ok.injEq, Prod.mk.injEq] at hwrite
      exact hwrite.1.symm
    · simp [FrameQueue.startFrame, FrameQueue.takeBuffer_fault hinv hcan] at hwrite
  · simp [hpend] at hp

/-- Once the queue is initialised, nobody initialises it again. -/
lemma startRecorder_frameQueue {camera encoder : Option Resource}
    (h : createComponents c b w = .ok (camera, encoder, w')) :
    (startRecorder c b w).2.frameQueue = (initFrameQueue w').frameQueue := by
  have hstable : Stable c fun w => w.frameQueue = (initFrameQueue w').frameQueue :=
    ⟨fun h _ _ => h, fun _ h => h, fun _ h => h, fun _ h => h, fun _ h => h, fun _ h => h⟩
  have herror : ∀ {w} status v, w.frameQueue = (initFrameQueue w').frameQueue →
      (startRecorderError c status v w).2.frameQueue = (initFrameQueue w').frameQueue := by
    intro w status v hw
    obtain ⟨w₁, hw₁, heq⟩ := hstable.startRecorderError status v hw
    rw [heq]
    dsimp only
    split <;> exact hw₁
  have hw : (connectPorts c b (initFrameQueue w')).2.2.frameQueue = _ := hstable.connectPorts rfl
  rw [startRecorder_eq, initialise, h]
  dsimp only
  unfold enablePorts
  generalize connectPorts c b (initFrameQueue w') = x at hw ⊢
  obtain ⟨status, encoderIn, w₁⟩ := x
  dsimp only
  have hw' := hstable.setupOutputPort .encoderOutput hw
  split_ifs
  · exact herror _ _ hw
  · exact herror _ _ hw'
  · exact herror _ _ hw'
  · exact herror _ _ (hstable.disablePort .encoderOutput
      (hstable.disablePort .encoderInput (hstable.disablePort .video hw')))

lemma toNat_mul_three (x : BitVec 32) : (x * 3).toNat = x.toNat * 3 % 2 ^ 32 := BitVec.toNat_mul x 3

/-- Three times a number is not zero in 32 bits if the number is not: three is odd. -/
lemma one_le_mul_three (x : BitVec 32) : 1 ≤ x * 3 ↔ x ≠ 0 := by
  have hodd : Nat.Coprime (2 ^ 32) 3 := by decide
  have hmod : 1 ≤ x.toNat * 3 % 2 ^ 32 ↔ x.toNat ≠ 0 := by
    rw [Nat.one_le_iff_ne_zero, Ne, ← Nat.dvd_iff_mod_eq_zero, hodd.dvd_mul_right]
    exact not_congr ⟨fun hdvd => Nat.eq_zero_of_dvd_of_lt hdvd x.isLt, fun h => h ▸ dvd_zero _⟩
  rw [Ne, ← BitVec.toNat_inj]
  exact (Iff.of_eq (congrArg (1 ≤ ·) (toNat_mul_three x))).trans hmod

lemma recommend_le_mul_three (x : Buffers) :
    x.recommend.bufferSize ≤ x.recommend.bufferSizeRecommended * 3 ↔
      x.bufferSizeRecommended.toNat ≤ 1431655765 ∧
          x.bufferSizeMin.toNat ≤ 3 * x.bufferSizeRecommended.toNat ∨
        2147483648 ≤ x.bufferSizeRecommended.toNat ∧ x.bufferSizeRecommended.toNat ≤ 2863311530 ∧
          x.bufferSizeMin.toNat + 2 ^ 32 ≤ 3 * x.bufferSizeRecommended.toNat := by
  have hx := x.bufferSizeRecommended.isLt
  have hy := x.bufferSizeMin.isLt
  have hrec : x.recommend.bufferSizeRecommended = x.bufferSizeRecommended := rfl
  rw [BitVec.le_def, recommend_bufferSize, toNat_mul_three, hrec, Nat.max_le]
  -- the product wraps at most twice
  have hwraps : x.bufferSizeRecommended.toNat * 3 / 2 ^ 32 = 0 ∨
      x.bufferSizeRecommended.toNat * 3 / 2 ^ 32 = 1 ∨
      x.bufferSizeRecommended.toNat * 3 / 2 ^ 32 = 2 := by omega
  rcases hwraps with hwraps | hwraps | hwraps <;> omega

/-- **The output of the encoder fits the frame queue** exactly if what it asks for leaves room. -/
theorem roomy_iff {camera encoder : Option Resource}
    (h : createComponents c b (World.start c r) = .ok (camera, encoder, w)) :
    ∃ capacity slot, (startRecorder c b (World.start c r)).2.frameQueue = some (capacity, slot) ∧
      (FitsEncoder capacity slot (w.buffers .encoderOutput).bufferSize ↔
        LeavesRoom (c.committed .encoderOutput .encoderOutput)) := by
  refine ⟨_, _, startRecorder_frameQueue h, ?_⟩
  obtain ⟨-, -, -, x, hx, hout⟩ := createComponents_buffers h
  rw [hout, LeavesRoom, ← hx, ← one_le_mul_three, ← recommend_le_mul_three]
  constructor
  · intro hfits
    exact ⟨hfits.one_le, hfits.size_le⟩
  · rintro ⟨hcapacity, hslot⟩
    exact ⟨hcapacity, hslot, takesSingly_of_le hslot⟩

end FrameQueue

theorem roomy_iff_recommended :
    ∃ camera encoder w, createComponents (asking ⟨1, 1, 1024, 4096⟩)
        ⟨"640x480:h264", .none, false, false⟩ (World.start (asking ⟨1, 1, 1024, 4096⟩) .success) =
        .ok (camera, encoder, w) ∧
      ∃ capacity slot, (startRecorder (asking ⟨1, 1, 1024, 4096⟩) ⟨"640x480:h264", .none, false, false⟩
          (World.start (asking ⟨1, 1, 1024, 4096⟩) .success)).2.frameQueue = some (capacity, slot) ∧
        (FitsEncoder capacity slot (w.buffers .encoderOutput).bufferSize ↔
          LeavesRoom ⟨1, 1, 1024, 4096⟩) := by
  obtain ⟨camera, encoder, w, h⟩ : ∃ camera encoder w, createComponents (asking ⟨1, 1, 1024, 4096⟩)
      ⟨"640x480:h264", .none, false, false⟩ (World.start (asking ⟨1, 1, 1024, 4096⟩) .success) =
        .ok (camera, encoder, w) := ⟨_, _, _, rfl⟩
  exact ⟨camera, encoder, w, h, roomy_iff h⟩

/-- An encoder that has no special recommendation: the frame queue gets no slots. -/
theorem noRecommendation_noSlots :
    ¬ ∀ (c : Calls) (b : Behaviour) (r : InitResult) (camera encoder : Option Resource) (w : World)
      (capacity slot : BitVec 32), createComponents c b (World.start c r) = .ok (camera, encoder, w) →
      (startRecorder c b (World.start c r)).2.frameQueue = some (capacity, slot) →
      FitsEncoder capacity slot (w.buffers .encoderOutput).bufferSize := by
  intro hclaim
  have hfits := hclaim (asking ⟨1, 0, 1024, 0⟩) ⟨"640x480:h264", .none, false, false⟩ .success
    _ _ _ _ _ rfl rfl
  exact absurd hfits.one_le (by decide)

end RcControl.Recorder
