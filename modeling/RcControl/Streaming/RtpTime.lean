import RcControl.Lib.Serial
import RcControl.Streaming.FanOut

/-!
# The RTP time of a sample

The time stamp of a sample is the start time stamp of the client plus the camera time in ticks of
90 kHz. Two things are wrong with it. A buffer without a decode time has the number that says so taken
for its time, which is a point of the circle like any other (`neverBackwards_iff`). And the camera time
begins when the camera does, not when the client joins (`measuredFromJoin_iff`).
-/

namespace RcControl.Streaming

open Lib Lib.Run Lib.Serial Mmal Streamer

variable {κ : Type} [DecidableEq κ]

/-! ### Ticks -/

/-- Whole ticks of 90 kHz in a number of microseconds. -/
def ticks (us : ℕ) : ℕ := us * 9 / 100

/-- `MMAL_TIME_UNKNOWN`. -/
def timeUnknown : BitVec 64 := 1 <<< 63

/-- The point of the circle that `MMAL_TIME_UNKNOWN` is taken for. -/
def unknownTicks : ℕ := ticks timeUnknown.toNat % 2 ^ 32

example : unknownTicks = 1374389534 := by decide

section Ticks

lemma ticks_mono {m n : ℕ} (h : m ≤ n) : ticks m ≤ ticks n := by
  unfold ticks
  omega

/-- The arithmetic of the callback counts whole ticks. -/
lemma secondsToTimestamp_us (us : ℕ) :
    secondsToTimestamp ((us : ℚ) / (1000 * 1000)) = BitVec.ofInt 32 (ticks us) := by
  have hticks : (us : ℚ) / (1000 * 1000) * (clockRate : ℚ) = ((us * 9 : ℕ) : ℚ) / ((100 : ℕ) : ℚ) := by
    have hrate : (clockRate : ℚ) = 90000 := by norm_num [clockRate]
    rw [hrate]
    push_cast
    ring
  unfold secondsToTimestamp
  rw [hticks]
  have hfloor : (((us * 9 : ℕ) : ℚ) / ((100 : ℕ) : ℚ)).floor = ((us * 9 / 100 : ℕ) : ℤ) :=
    (Rat.floor_natCast_div_natCast (us * 9) 100).trans (by push_cast; rfl)
  rw [hfloor]
  rfl

end Ticks

/-! ### A client that is streamed to -/

/-- The current time stamp of a client. -/
def timestampOf (s : Streamer κ) (c : ℕ) : Option (BitVec 32) :=
  (s.object c).video.map fun video => video.rtpConfig.timestamp

/-- The start time stamp of a client. -/
def startTimestampOf (s : Streamer κ) (c : ℕ) : Option (BitVec 32) :=
  (s.object c).video.map fun video => video.rtpConfig.startTimestamp

/-- The buffers the camera delivers. -/
def camBuffers (es : List (Event κ)) : List BufferHeader :=
  es.filterMap fun
    | .camBuffer x _ => some x
    | _ => none

/-- The time stamps of the samples a client is sent. -/
def stampsOf (pf : FrameQueue.Platform) (c : ℕ) : Streamer κ → List (Event κ) → List (BitVec 32)
  | _, [] => []
  | s, e :: es =>
    match step pf s e with
    | .error _ => []
    | .ok (o, s') =>
      (if sendsTo c o = [] then [] else (timestampOf s' c).toList) ++ stampsOf pf c s' es

/-- The client is neither hung up nor started once more. -/
def Remains (k : κ) (c : ℕ) (es : List (Event κ)) : Prop :=
  .hangup k ∉ es ∧ ∀ now, .trackOpen c now ∉ es

omit [DecidableEq κ] in
lemma camBuffers_cons (e : Event κ) (es : List (Event κ)) :
    camBuffers (e :: es) = camBuffers [e] ++ camBuffers es :=
  List.filterMap_append (l := [e])

omit [DecidableEq κ] in
lemma no_buffer {e : Event κ} (c : ℕ) (h : ∀ x throws, e ≠ .camBuffer x throws) :
    deliveries c [e] = [] ∧ camBuffers [e] = [] := by
  cases e with
  | camBuffer x throws => exact absurd rfl (h x throws)
  | _ => exact ⟨rfl, rfl⟩

/-- The client is ready, under `k`, and started at this time stamp. -/
structure StreamedTo (k : κ) (c : ℕ) (start : BitVec 32) (s : Streamer κ) : Prop where
  inv : Inv s
  registered : s.clients.lookup k = some c
  ready : (s.object c).state = .Ready
  startTimestamp : startTimestampOf s c = some start

section Step

variable {pf : FrameQueue.Platform} {s s' : Streamer κ} {k : κ} {c : ℕ} {e : Event κ}
  {o : List Action} {x : BufferHeader} {throws : ℕ → Bool} {start : BitVec 32} {cs : List ℕ}

/-- A sample is stamped with the start time stamp and the ticks of its time. -/
lemma stamp_rtpConfig (x : BufferHeader) (video : Sender) :
    (stamp x video).rtpConfig = { video.rtpConfig with
      timestamp := video.rtpConfig.startTimestamp + BitVec.ofInt 32 (ticks x.dts.toNat) } := by
  rw [← secondsToTimestamp_us]
  unfold stamp
  simp only []
  split <;> rfl

lemma report_rtpConfig (video : Sender) : video.report.rtpConfig = video.rtpConfig := by
  unfold Sender.report
  split <;> rfl

/-- What the loop over the tracks does to a client. -/
lemma sendAll_video (object : ℕ → Client) (hnd : cs.Nodup) (c : ℕ) :
    ((sendAll x throws object cs).2 c).video =
      if c ∈ cs then (object c).video.map fun video =>
        if throws c then stamp x video else (stamp x video).report
      else (object c).video := by
  induction cs generalizing object with
  | nil => rfl
  | cons d cs ih =>
    obtain ⟨hnot, hnd⟩ := List.nodup_cons.1 hnd
    refine (ih (sendSample x (throws d) object d).2 hnd).trans ?_
    by_cases hc : c = d
    · subst hc
      simp [hnot, sendSample]
    · simp [hc, sendSample]

/-- What a buffer does to the reporter of a client. -/
lemma camBuffer_video (h : Inv s) (hs : step pf s (.camBuffer x throws) = .ok (o, s')) (c : ℕ) :
    (s'.object c).video = if s.onCamBuffer = true ∧ c ∈ s.tracks then (s.object c).video.map fun video =>
        if throws c then stamp x video else (stamp x video).report
      else (s.object c).video := by
  by_cases hcb : s.onCamBuffer = true
  · simp only [step, hcb, if_true] at hs
    unfold camCallback at hs
    split at hs
    · simp at hs
    · obtain ⟨-, rfl⟩ := Prod.mk.inj (Except.ok.inj hs)
      simp only [hcb, true_and]
      exact sendAll_video s.object (nodup_tracks h) c
  · rw [step_camBuffer_unset hcb] at hs
    obtain ⟨-, rfl⟩ := Prod.mk.inj (Except.ok.inj hs)
    rw [if_neg fun hin => hcb hin.1]

/-- A buffer stamps the clients that are ready. -/
lemma camBuffer_timestamps (h : Inv s) (hs : step pf s (.camBuffer x throws) = .ok (o, s'))
    (hcb : s.onCamBuffer = true) (hc : c ∈ s.tracks) :
    startTimestampOf s' c = startTimestampOf s c ∧
      timestampOf s' c =
        (startTimestampOf s c).map fun start => start + BitVec.ofInt 32 (ticks x.dts.toNat) := by
  have hvideo := camBuffer_video h hs c
  rw [if_pos ⟨hcb, hc⟩] at hvideo
  simp only [startTimestampOf, timestampOf, hvideo, Option.map_map]
  constructor
  · refine congrArg (Option.map · _) (funext fun video => ?_)
    simp only [Function.comp]
    split <;> simp only [report_rtpConfig, stamp_rtpConfig]
  · refine congrArg (Option.map · _) (funext fun video => ?_)
    simp only [Function.comp]
    split <;> simp only [report_rtpConfig, stamp_rtpConfig]

/-- The other events leave the time stamps of a client alone. -/
lemma step_video (h : StreamedTo k c start s) (hs : step pf s e = .ok (o, s'))
    (hopen : ∀ now, e ≠ .trackOpen c now) (hcam : ∀ x throws, e ≠ .camBuffer x throws) :
    (s'.object c).video = (s.object c).video := by
  cases e with
  | register id timestamp =>
    obtain ⟨-, rfl⟩ := Prod.mk.inj (Except.ok.inj hs)
    have hne : c ≠ s.next := (h.inv.born k c h.registered).ne
    simp only [register, createClient, Function.update_of_ne hne]
  | trackOpen d now =>
    have hne : c ≠ d := by
      rintro rfl
      exact hopen now rfl
    rcases onOpen_cases s d now with ho | ⟨-, video', ho⟩
    · obtain ⟨-, rfl⟩ := Prod.mk.inj (Except.ok.inj ((congrArg _ ho).symm.trans hs))
      rfl
    · obtain ⟨-, rfl⟩ := Prod.mk.inj (Except.ok.inj ((congrArg _ ho).symm.trans hs))
      simp only [Function.update_of_ne hne]
  | hangup id =>
    obtain ⟨-, rfl⟩ := Prod.mk.inj (Except.ok.inj hs)
    rfl
  | camBuffer x throws => exact absurd rfl (hcam x throws)

/-- A buffer stamps a client that is streamed to. -/
lemma timestampOf_camBuffer (h : StreamedTo k c start s)
    (hs : step pf s (.camBuffer x throws) = .ok (o, s')) :
    startTimestampOf s' c = some start ∧
      timestampOf s' c = some (start + BitVec.ofInt 32 (ticks x.dts.toNat)) := by
  obtain ⟨hstart, hstamp⟩ := camBuffer_timestamps h.inv hs (h.inv.ready c h.ready).1
    (mem_tracks.2 ⟨⟨k, h.registered⟩, h.ready, (h.inv.ready c h.ready).2⟩)
  rw [h.startTimestamp] at hstart hstamp
  exact ⟨hstart, hstamp⟩

/-- **One event for a client that is streamed to**: a buffer of the camera is a sample with a time
stamp of its own, and nothing else is a sample. -/
theorem streamedTo_step (h : StreamedTo k c start s) (hs : step pf s e = .ok (o, s'))
    (hup : e ≠ .hangup k) (hopen : ∀ now, e ≠ .trackOpen c now) :
    StreamedTo k c start s' ∧
      (if sendsTo c o = [] then [] else (timestampOf s' c).toList) =
        (camBuffers [e]).map fun x => start + BitVec.ofInt 32 (ticks x.dts.toNat) := by
  have hsends := (sendsTo_step h.inv hs c).1 ⟨⟨k, h.registered⟩, h.ready⟩
  have hkeeps : startTimestampOf s' c = some start → StreamedTo k c start s' := fun hstart =>
    ⟨inv_step pf s e o s' h.inv hs, (lookup_step hs).1 h.registered hup,
      (ready_step hs c).1 h.ready (h.inv.born k c h.registered), hstart⟩
  by_cases hcam : ∃ x throws, e = .camBuffer x throws
  · obtain ⟨x, throws, rfl⟩ := hcam
    obtain ⟨hstart, hstamp⟩ := timestampOf_camBuffer h hs
    refine ⟨hkeeps hstart, ?_⟩
    rw [if_neg (by rw [hsends]; simp [deliveries]), hstamp]
    rfl
  · have hcam : ∀ x throws, e ≠ .camBuffer x throws := fun x throws he => hcam ⟨x, throws, he⟩
    refine ⟨hkeeps ?_, ?_⟩
    · rw [startTimestampOf, step_video h hs hopen hcam]
      exact h.startTimestamp
    · have hnone : deliveries c [e] = [] ∧ camBuffers [e] = [] := no_buffer c hcam
      rw [if_pos (hsends.trans hnone.1), hnone.2]
      rfl

end Step

section Run

variable {pf : FrameQueue.Platform} {q : FrameQueue} {s t : Streamer κ} {k : κ} {c : ℕ}
  {es : List (Event κ)} {os : List (List Action)} {start : BitVec 32}

omit [DecidableEq κ] in
lemma Remains.cons {e : Event κ} (h : Remains k c (e :: es)) :
    (e ≠ .hangup k ∧ ∀ now, e ≠ .trackOpen c now) ∧ Remains k c es := by
  refine ⟨⟨?_, fun now => ?_⟩, ?_, fun now => ?_⟩
  · rintro rfl
    exact h.1 List.mem_cons_self
  · rintro rfl
    exact h.2 now List.mem_cons_self
  · exact fun hmem => h.1 (List.mem_cons_of_mem e hmem)
  · exact fun hmem => h.2 now (List.mem_cons_of_mem e hmem)

/-- **The time stamps of a run**: one for each buffer of the camera. -/
theorem stampsOf_run (h : StreamedTo k c start s) (hrem : Remains k c es)
    (hrun : run (step pf) s es = .ok (os, t)) :
    stampsOf pf c s es =
        (camBuffers es).map (fun x => start + BitVec.ofInt 32 (ticks x.dts.toNat)) ∧
      StreamedTo k c start t := by
  induction es generalizing s os with
  | nil =>
    obtain ⟨-, rfl⟩ := Prod.mk.inj (Except.ok.inj hrun)
    exact ⟨rfl, h⟩
  | cons e es ih =>
    obtain ⟨o, s', os', hs, hrest, -⟩ := run_cons_eq_ok.1 hrun
    obtain ⟨⟨hup, hopen⟩, hrem'⟩ := hrem.cons
    obtain ⟨h', hone⟩ := streamedTo_step h hs hup hopen
    obtain ⟨hstamps, ht⟩ := ih h' hrem' hrest
    refine ⟨?_, ht⟩
    simp only [stampsOf, hs]
    rw [hone, hstamps, camBuffers_cons e es, List.map_append]

/-- A client that is ready has a start time stamp. -/
lemma streamedTo_of_run (h : run (step pf) (Streamer.start q) es = .ok (os, s))
    (hin : s.clients.lookup k = some c) (hready : (s.object c).state = .Ready) :
    ∃ start, StreamedTo k c start s := by
  have hinv : Inv s := inv_run (inv_step pf) (inv_start q) h
  obtain ⟨video, hvideo⟩ := Option.isSome_iff_exists.1 (hinv.ready c hready).2
  exact ⟨video.rtpConfig.startTimestamp, hinv, hin, hready, by rw [startTimestampOf, hvideo]; rfl⟩

end Run

/-! ### Times that are not known -/

/-- The buffer has a decode time. -/
def known (x : BufferHeader) : Bool := x.dts != timeUnknown

/-- The decode times that are known, in microseconds. -/
def knownTimes (xs : List BufferHeader) : List ℤ := (xs.filter known).map fun x => x.dts.toInt

/-- The known times are not negative, do not decrease, and each is less than `2 ^ 31` ticks of 90 kHz
after the one before. -/
structure Paced (xs : List BufferHeader) : Prop where
  nonneg : ∀ d ∈ knownTimes xs, 0 ≤ d
  steps : (knownTimes xs).IsChain fun d e => d ≤ e ∧ (e - d) * 9 < 2 ^ 31 * 100

/-- Before a buffer without a time, the time is not in the half circle after the point that
`MMAL_TIME_UNKNOWN` is taken for, and after one it is in the half circle from that point; and two times
less than `2 ^ 31` ticks apart do not become `2 ^ 31` by rounding. -/
def Fits (x y : BufferHeader) : Prop :=
  if known x then
    if known y then ticks y.dts.toNat < ticks x.dts.toNat + 2 ^ 31
    else ticks x.dts.toNat % 2 ^ 32 ≤ unknownTicks ∨
      unknownTicks + 2 ^ 31 < ticks x.dts.toNat % 2 ^ 32
  else if known y then unknownTicks ≤ ticks y.dts.toNat % 2 ^ 32 ∧
    ticks y.dts.toNat % 2 ^ 32 < unknownTicks + 2 ^ 31
  else True

section Unknown

variable {x y : BufferHeader} {xs : List BufferHeader} {start : BitVec 32}

lemma toNat_of_nonneg {d : BitVec 64} (h : 0 ≤ d.toInt) : (d.toNat : ℤ) = d.toInt := by
  have hlt := d.isLt
  rw [BitVec.toInt_eq_toNat_cond] at h ⊢
  split
  · rfl
  · omega

lemma dts_of_not_known (h : known x = false) : x.dts = timeUnknown := by
  simpa [known] using h

lemma Paced.tail (h : Paced (x :: xs)) : Paced xs := by
  obtain ⟨hnonneg, hsteps⟩ := h
  rcases hx : known x
  · simp only [knownTimes, List.filter_cons, hx] at hnonneg hsteps
    exact ⟨hnonneg, hsteps⟩
  · simp only [knownTimes, List.filter_cons, hx, if_true, List.map_cons] at hnonneg hsteps
    exact ⟨fun d hd => hnonneg d (List.mem_cons_of_mem _ hd), hsteps.tail⟩

/-- What is known of two neighbours. -/
def Neighbours (x y : BufferHeader) : Prop :=
  known x = true → known y = true → 0 ≤ x.dts.toInt ∧ x.dts.toInt ≤ y.dts.toInt ∧
    (y.dts.toInt - x.dts.toInt) * 9 < 2 ^ 31 * 100

lemma Paced.neighbours (h : Paced xs) : xs.IsChain Neighbours := by
  induction xs with
  | nil => exact .nil
  | cons x xs ih =>
    rcases xs with _ | ⟨y, xs⟩
    · exact .singleton x
    · refine .cons_cons (fun hx hy => ?_) (ih h.tail)
      obtain ⟨hnonneg, hsteps⟩ := h
      simp only [knownTimes, List.filter_cons, hx, hy, if_true, List.map_cons] at hnonneg hsteps
      obtain ⟨hle, hgap⟩ := (List.isChain_cons_cons.1 hsteps).1
      exact ⟨hnonneg _ List.mem_cons_self, hle, hgap⟩

/-- **Two neighbours.** -/
theorem forward_iff_fits (h : Neighbours x y) :
    Forward (start + BitVec.ofInt 32 (ticks x.dts.toNat)) (start + BitVec.ofInt 32 (ticks y.dts.toNat)) ↔
      Fits x y := by
  rw [forward_add_left]
  unfold Fits
  have hbound : unknownTicks < 2 ^ 31 := by decide
  have hpoint : unknownTicks = ticks timeUnknown.toNat % 2 ^ 32 := rfl
  rcases hx : known x <;> rcases hy : known y
  · rw [dts_of_not_known hx, dts_of_not_known hy]
    exact iff_of_true (forward_self _) trivial
  · rw [dts_of_not_known hx, forward_ofInt]
    simp only [Bool.false_eq_true, if_false, if_true]
    generalize ticks timeUnknown.toNat = m at hpoint ⊢
    generalize ticks y.dts.toNat = n
    omega
  · rw [dts_of_not_known hy, forward_ofInt]
    simp only [Bool.false_eq_true, if_false, if_true]
    generalize ticks timeUnknown.toNat = m at hpoint ⊢
    generalize ticks x.dts.toNat = n
    omega
  · obtain ⟨hnonneg, hle, hgap⟩ := h hx hy
    have hx' := toNat_of_nonneg hnonneg
    have hy' := toNat_of_nonneg (hnonneg.trans hle)
    have hticks : ticks x.dts.toNat ≤ ticks y.dts.toNat := ticks_mono (by omega)
    have hlt : (ticks y.dts.toNat : ℤ) - ticks x.dts.toNat < 2 ^ 32 := by
      unfold ticks
      omega
    rw [forward_ofInt_of_le (by exact_mod_cast hticks) hlt]
    simp only [if_true]
    omega

/-- The samples of these buffers do not run backwards exactly if neighbours fit. -/
theorem neverBackwards_stamps (h : xs.IsChain Neighbours) :
    NeverBackwards (xs.map fun x => start + BitVec.ofInt 32 (ticks x.dts.toNat)) ↔ xs.IsChain Fits := by
  unfold NeverBackwards
  rw [List.isChain_map]
  induction xs with
  | nil => simp
  | cons x xs ih =>
    rcases xs with _ | ⟨y, xs⟩
    · simp
    · obtain ⟨hxy, hrest⟩ := List.isChain_cons_cons.1 h
      rw [List.isChain_cons_cons, List.isChain_cons_cons, forward_iff_fits hxy, ih hrest]

/-- **RTP time and unknown times.** A client that is ready is streamed any buffers, some of which may
have no time: its time stamps never run backwards exactly if, wherever a buffer without a time comes
next to one with a time, that time is on the proper side of the point of the circle that
`MMAL_TIME_UNKNOWN` is taken for. -/
theorem neverBackwards_iff {pf : FrameQueue.Platform} {q : FrameQueue} {s t : Streamer κ} {k : κ}
    {c : ℕ} {es₀ es : List (Event κ)} {os₀ os : List (List Action)}
    (h₀ : run (step pf) (Streamer.start q) es₀ = .ok (os₀, s)) (hin : s.clients.lookup k = some c)
    (hready : (s.object c).state = .Ready) (hrem : Remains k c es)
    (h : run (step pf) s es = .ok (os, t)) (hpaced : Paced (camBuffers es)) :
    NeverBackwards (stampsOf pf c s es) ↔ (camBuffers es).IsChain Fits := by
  obtain ⟨start, hstreamed⟩ := streamedTo_of_run h₀ hin hready
  rw [(stampsOf_run hstreamed hrem h).1]
  exact neverBackwards_stamps hpaced.neighbours

end Unknown

/-- A fragment that is a frame of its own, with this decode time. -/
def frameAt (dts : BitVec 64) : BufferHeader := { FrameQueue.wholeFrame 1 with dts := dts }

/-- A platform with room for all offsets. -/
def roomy : FrameQueue.Platform := .ideal fun _ _ => 0

/-- Nobody is connected, and the queue has one slot. -/
def atRest : Streamer String := Streamer.start (FrameQueue.initialised roomy 1 4)

/-- One client joins. -/
def joins : List (Event String) := [.register "999" 0, .trackOpen 0 0]

def joined : Streamer String := ((atRest.register "999" 0).onOpen 0 0).2

lemma run_joins : run (step roomy) atRest joins =
    .ok ([[], [.setStartTime 0, .startRecording 0]], joined) := rfl

/-- The camera delivers frames at these times. -/
def films (dts : List (BitVec 64)) : List (Event String) :=
  dts.map fun d => .camBuffer (frameAt d) fun _ => false

lemma remains_films (k : String) (c : ℕ) (dts : List (BitVec 64)) : Remains k c (films dts) := by
  constructor
  · simp [films]
  · simp [films]

theorem neverBackwards_iff_oneUnknown :
    ∃ os t, run (step roomy) joined (films [0, timeUnknown]) = .ok (os, t) ∧
      (NeverBackwards (stampsOf roomy 0 joined (films [0, timeUnknown])) ↔
        (camBuffers (films [0, timeUnknown])).IsChain Fits) := by
  have hpaced : Paced (camBuffers (films [0, timeUnknown])) := ⟨by decide, by decide⟩
  exact ⟨_, _, rfl,
    neverBackwards_iff run_joins (k := "999") rfl rfl (remains_films "999" 0 _) rfl hpaced⟩

/-- A buffer without a time between two with one. -/
theorem unknownBetween_backwards :
    ∃ os₀ os t, run (step roomy) atRest joins = .ok (os₀, joined) ∧
      joined.clients.lookup "999" = some 0 ∧ (joined.object 0).state = .Ready ∧
      Remains "999" 0 (films [0, timeUnknown, 0]) ∧
      run (step roomy) joined (films [0, timeUnknown, 0]) = .ok (os, t) ∧
      Paced (camBuffers (films [0, timeUnknown, 0])) ∧
      ¬ NeverBackwards (stampsOf roomy 0 joined (films [0, timeUnknown, 0])) := by
  have hpaced : Paced (camBuffers (films [0, timeUnknown, 0])) := ⟨by decide, by decide⟩
  refine ⟨_, _, _, run_joins, rfl, rfl, remains_films "999" 0 _, rfl, hpaced, ?_⟩
  obtain ⟨start, hstreamed⟩ := streamedTo_of_run run_joins (k := "999") (c := 0) rfl rfl
  rw [(stampsOf_run hstreamed (remains_films "999" 0 _) rfl).1,
    neverBackwards_stamps hpaced.neighbours]
  unfold Fits
  decide

/-! ### Time since the client joined -/

/-- The ticks up to `d₀`, and one more if what is left of a tick up to `d₀` and what is left of one
after it make a whole one, lead around the circle and to where it began. -/
def InStep (d₀ d : ℕ) : Prop :=
  2 ^ 32 ∣ ticks d₀ + if 100 ≤ d₀ * 9 % 100 + (d - d₀) * 9 % 100 then 1 else 0

section Joined

variable {d₀ d : ℕ}

/-- Rounded down, the ticks up to `d` are those up to `d₀` and those from there, and perhaps one more. -/
lemma ticks_split (h : d₀ ≤ d) : ticks d = ticks (d - d₀) +
    (ticks d₀ + if 100 ≤ d₀ * 9 % 100 + (d - d₀) * 9 % 100 then 1 else 0) := by
  obtain ⟨e, rfl⟩ := Nat.exists_eq_add_of_le h
  rw [Nat.add_sub_cancel_left]
  unfold ticks
  split <;> omega

theorem inStep_always : (∀ d, d₀ ≤ d → InStep d₀ d) ↔ 100 * 2 ^ 32 ∣ d₀ := by
  constructor
  · intro h
    -- a whole number of turns up to `d₀`, and no part of a tick over
    have hturns : 2 ^ 32 ∣ ticks d₀ := by
      have hzero := h d₀ (le_refl d₀)
      rwa [InStep, Nat.sub_self, if_neg (by omega), Nat.add_zero] at hzero
    have hwhole : d₀ * 9 % 100 = 0 := by
      by_contra hpart
      have hover : 100 ≤ d₀ * 9 % 100 + 11 * 9 % 100 := by omega
      have hmore := h (d₀ + 11) (Nat.le_add_right _ _)
      rw [InStep, Nat.add_sub_cancel_left, if_pos hover] at hmore
      have hone : 2 ^ 32 ∣ 1 := (Nat.dvd_add_right hturns).1 hmore
      exact absurd hone (by decide)
    obtain ⟨m, hm⟩ := hturns
    have hnine : d₀ * 9 = 100 * 2 ^ 32 * m := by
      have hparts := Nat.div_add_mod (d₀ * 9) 100
      rw [hwhole, Nat.add_zero, ← ticks, hm, ← Nat.mul_assoc] at hparts
      exact hparts.symm
    have hcoprime : Nat.Coprime (100 * 2 ^ 32) 9 := by decide
    exact hcoprime.dvd_of_dvd_mul_right ⟨m, hnine⟩
  · rintro ⟨n, rfl⟩ d -
    have hturns : ticks (100 * 2 ^ 32 * n) = 2 ^ 32 * (9 * n) := by
      unfold ticks
      omega
    have hnone : 100 * 2 ^ 32 * n * 9 % 100 = 0 := by omega
    have hless : (d - 100 * 2 ^ 32 * n) * 9 % 100 < 100 := Nat.mod_lt _ (by decide)
    rw [InStep, hnone, Nat.zero_add, if_neg (Nat.not_le_of_lt hless), Nat.add_zero, hturns]
    exact Nat.dvd_mul_right _ _

/-- **Time stamps and the time since the client joined.** A client becomes ready when the camera is at
`d₀`. A sample of a later time `d` is stamped with the start time stamp and the ticks from `d₀` to `d`
exactly if the ticks up to `d₀` lead around the circle. So it is for all later times if the camera was
at a multiple of a hundred times the circle, as when it had just begun, and for no other `d₀`. -/
theorem measuredFromJoin_iff {pf : FrameQueue.Platform} {q : FrameQueue} {s t : Streamer κ} {k : κ}
    {c now : ℕ} {es₀ es : List (Event κ)} {os₀ os : List (List Action)} {x : BufferHeader}
    {throws : ℕ → Bool}
    (h₀ : run (step pf) (start q) (es₀ ++ [.trackOpen c now]) = .ok (os₀, s))
    (hin : s.clients.lookup k = some c) (hready : (s.object c).state = .Ready)
    (hrem : Remains k c es) (h : run (step pf) s (es ++ [.camBuffer x throws]) = .ok (os, t))
    (hd : (d₀ : ℤ) ≤ x.dts.toInt) :
    (timestampOf t c = (startTimestampOf s c).map
        (fun start => start + BitVec.ofInt 32 (ticks (x.dts.toNat - d₀))) ↔
      InStep d₀ x.dts.toNat) ∧
    ((∀ d, d₀ ≤ d → InStep d₀ d) ↔ 100 * 2 ^ 32 ∣ d₀) := by
  refine ⟨?_, inStep_always⟩
  obtain ⟨start, hstreamed⟩ := streamedTo_of_run h₀ hin hready
  obtain ⟨os₁, m, os₂, hes, hcam, -⟩ := run_append_eq_ok.1 h
  obtain ⟨-, hm⟩ := stampsOf_run hstreamed hrem hes
  obtain ⟨o, t', os', hs, hnil, -⟩ := run_cons_eq_ok.1 hcam
  obtain ⟨-, rfl⟩ := Prod.mk.inj (Except.ok.inj hnil)
  have hle : d₀ ≤ x.dts.toNat := by
    have hnonneg := toNat_of_nonneg (le_trans (Int.natCast_nonneg d₀) hd)
    omega
  rw [(timestampOf_camBuffer hm hs).2, hstreamed.startTimestamp, Option.map_some, Option.some_inj,
    BitVec.add_right_inj, ofInt_inj, ticks_split hle, Nat.cast_add, add_sub_cancel_left]
  exact_mod_cast Iff.rfl

end Joined

/-- The client joins when the camera begins. -/
theorem measuredFromJoin_iff_atOnce :
    ∃ os t, run (step roomy) joined (films [0] ++ [.camBuffer (frameAt 40000) fun _ => false]) =
        .ok (os, t) ∧
      (timestampOf t 0 = (startTimestampOf joined 0).map
          (fun start => start + BitVec.ofInt 32 (ticks ((frameAt 40000).dts.toNat - 0))) ↔
        InStep 0 (frameAt 40000).dts.toNat) ∧
      ((∀ d, 0 ≤ d → InStep 0 d) ↔ 100 * 2 ^ 32 ∣ 0) := by
  have hjoins : run (step roomy) atRest ([.register "999" 0] ++ [.trackOpen 0 0]) = _ := run_joins
  obtain ⟨os, t, h⟩ : ∃ os t, run (step roomy) joined
      (films [0] ++ [.camBuffer (frameAt 40000) fun _ => false]) = .ok (os, t) := ⟨_, _, rfl⟩
  exact ⟨os, t, h,
    measuredFromJoin_iff (k := "999") hjoins rfl rfl (remains_films "999" 0 [0]) h (by decide)⟩

/-- The client joins when the camera has run for a second, and the sample of that moment is stamped a
second late. -/
theorem joinedLate_ahead :
    ∃ os₀ os t, run (step roomy) atRest ([.register "999" 0] ++ [.trackOpen 0 0]) = .ok (os₀, joined) ∧
      joined.clients.lookup "999" = some 0 ∧ (joined.object 0).state = .Ready ∧
      run (step roomy) joined [.camBuffer (frameAt 1000000) fun _ => false] = .ok (os, t) ∧
      timestampOf t 0 ≠ (startTimestampOf joined 0).map
        (fun start => start + BitVec.ofInt 32 (ticks ((frameAt 1000000).dts.toNat - 1000000))) := by
  obtain ⟨start, hstreamed⟩ := streamedTo_of_run run_joins (k := "999") (c := 0) rfl rfl
  obtain ⟨o, t, h⟩ : ∃ o t, step roomy joined (.camBuffer (frameAt 1000000) fun _ => false) =
      .ok (o, t) := ⟨_, _, rfl⟩
  refine ⟨_, _, t, run_joins, rfl, rfl, run_cons_ok h run_nil, ?_⟩
  rw [(timestampOf_camBuffer hstreamed h).2, hstreamed.startTimestamp, Option.map_some, Ne,
    Option.some_inj, BitVec.add_right_inj, ofInt_inj]
  decide

end RcControl.Streaming
