import RcControl.Streaming.RtpTime

/-!
# When a sender report is asked for

The callback asks for a report when more than a second has passed since the last one, by the RTP time
of the two. It sees the time on a circle; the camera time goes on (`requests_cadence`).
-/

namespace RcControl.Streaming

open Lib Lib.Run Lib.Serial Mmal Streamer

variable {κ : Type} [DecidableEq κ]

/-- The RTP time of the last report, as the reporter has it. -/
def previousOf (s : Streamer κ) (c : ℕ) : Option (BitVec 32) :=
  (s.object c).video.map Sender.previousReportedTimestamp

/-- The callback asks for a report when it stamps this buffer. -/
def requests (x : BufferHeader) (video : Sender) : Bool :=
  (stamp x { video with needsToReport := false }).needsToReport

/-- At this event a report of the client is asked for. -/
def asksFor (s : Streamer κ) (c : ℕ) : Event κ → Bool
  | .camBuffer x _ => s.onCamBuffer && s.tracks.contains c && (s.object c).video.any (requests x)
  | _ => false

/-- At which of the samples a client is sent a report is asked for. -/
def requestsOf (pf : FrameQueue.Platform) (c : ℕ) : Streamer κ → List (Event κ) → List Bool
  | _, [] => []
  | s, e :: es =>
    match step pf s e with
    | .error _ => []
    | .ok (o, s') => (if sendsTo c o = [] then [] else [asksFor s c e]) ++ requestsOf pf c s' es

/-- A report that is asked for at this event goes out with its sample. -/
def Honoured (pf : FrameQueue.Platform) (c : ℕ) (s : Streamer κ) (e : Event κ) : Prop :=
  asksFor s c e = true → ∀ o s', step pf s e = .ok (o, s') → previousOf s' c = timestampOf s' c

/-- No report of the client is due. -/
def Quiet (c : ℕ) (s : Streamer κ) : Prop :=
  ∀ video, (s.object c).video = some video → video.needsToReport = false

/-- The camera time of a sample, in whole ticks of 90 kHz, as `secondsToTimestamp` cuts it: for up to eleven
microseconds behind a second it is still that second. -/
def mediaTime (x : BufferHeader) : ℤ := ticks x.dts.toNat

/-- The decode times, as the callback reads them, do not decrease, and each is less than `2 ^ 31` ticks
after the one before. -/
def Advancing (xs : List BufferHeader) : Prop :=
  xs.IsChain fun x y => x.dts.toNat ≤ y.dts.toNat ∧ mediaTime y - mediaTime x < 2 ^ 31

/-! ### One sample -/

section Sample

variable {pf : FrameQueue.Platform} {s s' : Streamer κ} {k : κ} {c : ℕ} {e : Event κ}
  {o : List Action} {x : BufferHeader} {throws : ℕ → Bool} {video : Sender} {start previous : BitVec 32}

/-- More than a second is more than so many ticks. -/
lemma one_lt_timestampToSeconds (d : BitVec 32) : 1 < timestampToSeconds d ↔ clockRate < d.toNat := by
  have hrate : (0 : ℚ) < (clockRate : ℚ) := by norm_num [clockRate]
  unfold timestampToSeconds
  rw [one_lt_div hrate]
  exact Nat.cast_lt

/-- The time stamp of a sample. -/
def sampleStamp (x : BufferHeader) (video : Sender) : BitVec 32 :=
  video.rtpConfig.startTimestamp + BitVec.ofInt 32 (ticks x.dts.toNat)

lemma requests_iff (x : BufferHeader) (video : Sender) : requests x video = true ↔
    clockRate < (sampleStamp x video - video.previousReportedTimestamp).toNat := by
  unfold requests stamp sampleStamp
  simp only [one_lt_timestampToSeconds, secondsToTimestamp_us]
  split
  · next h => exact iff_of_true rfl h
  · next h => exact iff_of_false Bool.false_ne_true h

lemma stamp_eq (x : BufferHeader) (video : Sender) :
    stamp x video = { video with
      rtpConfig := { video.rtpConfig with timestamp := sampleStamp x video }
      needsToReport := video.needsToReport || requests x video } := by
  rw [Bool.eq_iff_iff.2 ((requests_iff x video).trans decide_eq_true_iff.symm)]
  unfold stamp sampleStamp
  simp only [one_lt_timestampToSeconds, secondsToTimestamp_us]
  split
  · next h => rw [decide_eq_true h, Bool.or_true, Sender.setNeedsToReport]
  · next h => rw [decide_eq_false h, Bool.or_false]

/-- **One sample**, of a client of which no report is due: if one is asked for, and goes out with the
sample, the sample is the last report. -/
theorem camBuffer_reports (h : Inv s) (hs : step pf s (.camBuffer x throws) = .ok (o, s'))
    (hcb : s.onCamBuffer = true) (hin : c ∈ s.tracks) (hvideo : (s.object c).video = some video)
    (hquiet : video.needsToReport = false) (hhon : Honoured pf c s (.camBuffer x throws)) :
    ∃ video', (s'.object c).video = some video' ∧ video'.needsToReport = false ∧
      video'.previousReportedTimestamp =
        if requests x video then sampleStamp x video else video.previousReportedTimestamp := by
  have hvideo' := camBuffer_video h hs c
  rw [if_pos ⟨hcb, hin⟩, hvideo, Option.map_some] at hvideo'
  refine ⟨_, hvideo', ?_⟩
  by_cases hask : requests x video = true
  · -- what was the last report is not this sample, so the report has gone out
    have hasks : asksFor s c (.camBuffer x throws) = true := by simp [asksFor, hcb, hin, hvideo, hask]
    have hout := hhon hasks o s' hs
    rw [previousOf, timestampOf, hvideo', Option.map_some, Option.map_some, Option.some_inj] at hout
    rcases hthrows : throws c
    · simp [stamp_eq, hask, Sender.report]
    · simp only [hthrows, if_true, stamp_eq] at hout
      have hlimit := (requests_iff x video).1 hask
      rw [hout, BitVec.sub_self] at hlimit
      exact absurd hlimit (Nat.not_lt_zero _)
  · have hno : (stamp x video).needsToReport = false := by simp [stamp_eq, hquiet, hask]
    have hlast : (stamp x video).previousReportedTimestamp = video.previousReportedTimestamp := by
      rw [stamp_eq]
    have hreport : (stamp x video).report = stamp x video := by simp [Sender.report, hno]
    rw [hreport, ite_self, if_neg hask]
    exact ⟨hno, hlast⟩

/-- Where `send` does not fail, a report that is asked for goes out. -/
lemma honoured_of_not_throws (h : Inv s)
    (hnot : ∀ x throws, e = .camBuffer x throws → throws c = false) :
    Honoured pf c s e := by
  intro hask o s' hs
  cases e with
  | camBuffer x throws =>
    simp only [asksFor, Bool.and_eq_true, List.contains_iff_mem, Option.any_eq_true] at hask
    obtain ⟨hon, video, hvideo, hask⟩ := hask
    have hvideo' := camBuffer_video h hs c
    rw [if_pos hon, hvideo, Option.map_some, hnot x throws rfl] at hvideo'
    simp [previousOf, timestampOf, hvideo', stamp_eq, hask, Sender.report]
  | _ => exact absurd hask Bool.false_ne_true

lemma along_honoured (h : Inv s) {es : List (Event κ)}
    (hnot : ∀ e ∈ es, ∀ x throws, e = .camBuffer x throws → throws c = false) :
    Along (step pf) (Honoured pf c) s es :=
  along_of_inv_mem (inv_step pf) (fun e he _ hs => honoured_of_not_throws hs (hnot e he)) h

/-- What the open track does to the reporter of a client. -/
lemma onOpen_video (s : Streamer κ) (d now c : ℕ) :
    ((s.onOpen d now).2.object c).video =
      if s.alive d = true ∧ c = d then (s.object c).video.map fun video =>
        { video with
          rtpConfig := video.rtpConfig.setStartTime ((now : ℚ) / (1000 * 1000)) epochT1970 }.startRecording
      else (s.object c).video := by
  unfold onOpen
  by_cases halive : s.alive d = true
  · simp only [halive, if_true, true_and]
    rcases hvideo : (s.object d).video with _ | video
    · simp only [addToStream, hvideo]
      split
      · next hc => rw [hc, hvideo, Option.map_none]
      · rfl
    · simp only [addToStream, hvideo, startStream]
      split
      · next hc => rw [hc, Function.update_self, hvideo, Option.map_some]
      · next hc => rw [Function.update_of_ne hc]
  · simp only [halive, Bool.false_eq_true, if_false, false_and]

/-- Nothing but a buffer makes a report due. -/
lemma quiet_step (h : Inv s) (hquiet : Quiet c s) (hhon : Honoured pf c s e)
    (hs : step pf s e = .ok (o, s')) : Quiet c s' := by
  cases e with
  | register id timestamp =>
    obtain ⟨-, rfl⟩ := Prod.mk.inj (Except.ok.inj hs)
    by_cases hc : c = s.next
    · subst hc
      simp [Quiet, register, createClient]
    · simpa only [Quiet, register, createClient, Function.update_of_ne hc] using hquiet
  | trackOpen d now =>
    obtain rfl := congrArg Prod.snd (Except.ok.inj hs)
    intro video' hvideo'
    rw [onOpen_video] at hvideo'
    split at hvideo'
    · obtain ⟨video, hvideo, rfl⟩ := Option.map_eq_some_iff.1 hvideo'
      exact hquiet video hvideo
    · exact hquiet video' hvideo'
  | hangup id =>
    obtain ⟨-, rfl⟩ := Prod.mk.inj (Except.ok.inj hs)
    exact hquiet
  | camBuffer x throws =>
    intro video' hvideo'
    have hthis := camBuffer_video h hs c
    by_cases hin : s.onCamBuffer = true ∧ c ∈ s.tracks
    · obtain ⟨video, hvideo⟩ := Option.isSome_iff_exists.1 (mem_tracks.1 hin.2).2.2
      obtain ⟨video'', hvideo'', hno, -⟩ :=
        camBuffer_reports h hs hin.1 hin.2 hvideo (hquiet video hvideo) hhon
      obtain rfl := Option.some_inj.1 (hvideo'.symm.trans hvideo'')
      exact hno
    · rw [if_neg hin, hvideo'] at hthis
      exact hquiet video' hthis.symm

/-- A client that is streamed to, with the time of its last report; none is due. -/
structure Reported (k : κ) (c : ℕ) (start previous : BitVec 32) (s : Streamer κ) : Prop where
  streamed : StreamedTo k c start s
  previous : previousOf s c = some previous
  quiet : Quiet c s

/-- **One event for a client whose reports go out**: a buffer of the camera is a sample, and is the last
report if more than the limit has passed. -/
theorem reported_step (h : Reported k c start previous s) (hs : step pf s e = .ok (o, s'))
    (hup : e ≠ .hangup k) (hopen : ∀ now, e ≠ .trackOpen c now) (hhon : Honoured pf c s e) :
    (camBuffers [e] = [] ∧ sendsTo c o = [] ∧ Reported k c start previous s') ∨
      ∃ x throws, e = .camBuffer x throws ∧ sendsTo c o ≠ [] ∧
        (asksFor s c e = true ↔
          clockRate < (start + BitVec.ofInt 32 (ticks x.dts.toNat) - previous).toNat) ∧
        Reported k c start
          (if asksFor s c e then start + BitVec.ofInt 32 (ticks x.dts.toNat) else previous) s' := by
  have hinv := h.streamed.inv
  have hsends := (sendsTo_step hinv hs c).1 ⟨⟨k, h.streamed.registered⟩, h.streamed.ready⟩
  have hstreamed := (streamedTo_step h.streamed hs hup hopen).1
  have hquiet := quiet_step hinv h.quiet hhon hs
  by_cases hcam : ∃ x throws, e = .camBuffer x throws
  · right
    obtain ⟨x, throws, rfl⟩ := hcam
    have hcb := (hinv.ready c h.streamed.ready).1
    have hin : c ∈ s.tracks :=
      mem_tracks.2 ⟨⟨k, h.streamed.registered⟩, h.streamed.ready, (hinv.ready c h.streamed.ready).2⟩
    obtain ⟨video, hvideo, hprevious⟩ := Option.map_eq_some_iff.1 h.previous
    have hstart := h.streamed.startTimestamp
    rw [startTimestampOf, hvideo, Option.map_some, Option.some_inj] at hstart
    obtain ⟨video', hvideo', -, hlast⟩ :=
      camBuffer_reports hinv hs hcb hin hvideo (h.quiet video hvideo) hhon
    have hasks : asksFor s c (.camBuffer x throws) = requests x video := by
      simp [asksFor, hcb, hin, hvideo]
    have hlimit := requests_iff x video
    rw [sampleStamp, hstart] at hlast hlimit
    rw [hprevious] at hlast hlimit
    refine ⟨x, throws, rfl, ?_, ?_, hstreamed, ?_, hquiet⟩
    · rw [hsends]
      simp [deliveries]
    · rw [hasks, hlimit]
    · rw [previousOf, hvideo', Option.map_some, hlast, hasks]
  · left
    have hcam : ∀ x throws, e ≠ .camBuffer x throws := fun x throws he => hcam ⟨x, throws, he⟩
    have hnone : deliveries c [e] = [] ∧ camBuffers [e] = [] := no_buffer c hcam
    refine ⟨hnone.2, hsends.trans hnone.1, hstreamed, ?_, hquiet⟩
    rw [previousOf, step_video h.streamed hs hopen hcam]
    exact h.previous

end Sample

section Run

variable {pf : FrameQueue.Platform} {q : FrameQueue} {s t : Streamer κ} {k : κ} {c now : ℕ}
  {es₀ es : List (Event κ)} {os₀ os : List (List Action)} {start previous : BitVec 32} {r : ℤ}

/-- **The reports of a run** keep the cadence, as far as the time stamps show it. -/
theorem requestsOf_run (h : Reported k c start previous s) (hrem : Remains k c es)
    (hhon : Along (step pf) (Honoured pf c) s es) (hrun : run (step pf) s es = .ok (os, t)) :
    requestsOf pf c s es = counterCadence clockRate previous
      ((camBuffers es).map fun x => start + BitVec.ofInt 32 (ticks x.dts.toNat)) := by
  induction es generalizing s previous os with
  | nil => rfl
  | cons e es ih =>
    obtain ⟨o, s', os', hs, hrest, -⟩ := run_cons_eq_ok.1 hrun
    obtain ⟨⟨hup, hopen⟩, hrem'⟩ := hrem.cons
    simp only [requestsOf, hs]
    rcases reported_step h hs hup hopen hhon.1 with
      ⟨hnone, hsends, h'⟩ | ⟨x, throws, rfl, hsends, hasks, h'⟩
    · rw [if_pos hsends, camBuffers_cons, hnone]
      exact ih h' hrem' (hhon.2 o s' hs) hrest
    · have hcons : camBuffers (.camBuffer x throws :: es) = x :: camBuffers es := rfl
      rw [if_neg hsends, ih h' hrem' (hhon.2 o s' hs) hrest, List.singleton_append, hcons, List.map_cons,
        counterCadence]
      rcases hask : asksFor s c (.camBuffer x throws)
      · rw [if_neg fun hlimit => Bool.false_ne_true (hask.symm.trans (hasks.2 hlimit)),
          if_neg Bool.false_ne_true]
      · rw [if_pos (hasks.1 hask), if_pos rfl]

/-- Where nothing has been reported late, nothing is due. -/
lemma quiet_run (h : run (step pf) (Streamer.start q) es = .ok (os, s))
    (hhon : Along (step pf) (Honoured pf c) (Streamer.start q) es) : Quiet c s := by
  have hboth : Inv s ∧ Quiet c s := by
    refine inv_run_along (I := fun s => Inv s ∧ Quiet c s) ?_ ⟨inv_start q, ?_⟩ hhon h
    · rintro s e o s' ⟨hinv, hquiet⟩ hP hs
      exact ⟨inv_step pf s e o s' hinv hs, quiet_step hinv hquiet hP hs⟩
    · intro video hvideo
      simp [Streamer.start] at hvideo
  exact hboth.2

/-- The track opens: the start time stamp is recorded as that of the last report. -/
lemma reported_open (h : run (step pf) (Streamer.start q) (es₀ ++ [.trackOpen c now]) = .ok (os₀, s))
    (hin : s.clients.lookup k = some c) (hready : (s.object c).state = .Ready)
    (hhon : Along (step pf) (Honoured pf c) (Streamer.start q) (es₀ ++ [.trackOpen c now])) :
    ∃ start, Reported k c start start s := by
  obtain ⟨start, hstreamed⟩ := streamedTo_of_run h hin hready
  refine ⟨start, hstreamed, ?_, quiet_run h hhon⟩
  obtain ⟨os₁, m, os₂, -, hopen, -⟩ := run_append_eq_ok.1 h
  obtain ⟨o, s', os', hs, hnil, -⟩ := run_cons_eq_ok.1 hopen
  obtain ⟨-, rfl⟩ := Prod.mk.inj (Except.ok.inj hnil)
  obtain rfl := congrArg Prod.snd (Except.ok.inj hs)
  have hlookup : m.clients.lookup k = some c := by
    rcases onOpen_cases m c now with ho | ⟨-, video', ho⟩
    · rwa [ho] at hin
    · rwa [ho] at hin
  have hstart := hstreamed.startTimestamp
  rw [startTimestampOf, onOpen_video, if_pos ⟨alive_iff.2 ⟨k, hlookup⟩, rfl⟩, Option.map_map] at hstart
  rw [previousOf, onOpen_video, if_pos ⟨alive_iff.2 ⟨k, hlookup⟩, rfl⟩, Option.map_map]
  exact hstart

/-- **The cadence of the reports.** The track of a client opens, and the time stamp that is recorded is
that of the camera time `r`. It is streamed samples whose times advance, the first less than `2 ^ 31` ticks
after `r`, and each report that is asked for goes out with its sample. Then a report is asked for at the
first sample that is more than 90000 ticks of camera time after the last report, or after `r`, at none
before, and so on, whatever the RTP time has come to. -/
theorem requests_cadence
    (h₀ : run (step pf) (Streamer.start q) (es₀ ++ [.trackOpen c now]) = .ok (os₀, s))
    (hin : s.clients.lookup k = some c) (hready : (s.object c).state = .Ready) (hrem : Remains k c es)
    (h : run (step pf) s es = .ok (os, t))
    (hhon : Along (step pf) (Honoured pf c) (Streamer.start q) (es₀ ++ [.trackOpen c now] ++ es))
    (hsteps : Advancing (camBuffers es))
    (hrecorded : previousOf s c = (startTimestampOf s c).map (· + BitVec.ofInt 32 r))
    (hfirst : ∀ x ∈ (camBuffers es).head?, r ≤ mediaTime x ∧ mediaTime x - r < 2 ^ 31) :
    requestsOf pf c s es = cadence 90000 r ((camBuffers es).map mediaTime) := by
  obtain ⟨hhon₀, hhon⟩ := (along_append_iff h₀).1 hhon
  obtain ⟨start, hreported⟩ := reported_open h₀ hin hready hhon₀
  -- the recorded time stamp, as one of camera time
  have hr : start = start + BitVec.ofInt 32 r := by
    have hprevious := hreported.previous
    rw [hrecorded, hreported.streamed.startTimestamp, Option.map_some, Option.some_inj] at hprevious
    exact hprevious.symm
  have hstamps : (camBuffers es).map (fun x => start + BitVec.ofInt 32 (ticks x.dts.toNat)) =
      (((camBuffers es).map mediaTime).map (BitVec.ofInt 32)).map (start + ·) := by
    simp only [List.map_map]
    rfl
  rw [requestsOf_run hreported hrem hhon h, hstamps]
  nth_rewrite 1 [hr]
  rw [counterCadence_add_left]
  refine counterCadence_ofInt ?_ ?_
  · intro m hm
    obtain ⟨x, hx, rfl⟩ := Option.map_eq_some_iff.1 (List.head?_map.symm.trans hm)
    obtain ⟨hle, hlt⟩ := hfirst x hx
    exact ⟨hle, by omega⟩
  · refine (List.isChain_map mediaTime).2 (hsteps.imp fun x y hxy => ?_)
    have hmono : mediaTime x ≤ mediaTime y := Int.ofNat_le.2 (ticks_mono hxy.1)
    have hrate : (clockRate : ℤ) = 90000 := rfl
    exact ⟨hmono, by omega⟩

end Run

/-- Four samples half a turn apart at most, which lead around, and three soon after the last: the second of
them is later than a second, but by less than a tick. -/
def turning : List (BitVec 64) :=
  [0, 20000000000, 40000000000, 60000000000, 60001000000, 60001000011, 60001000012]

theorem requests_cadence_turning :
    ∃ os t, run (step roomy) joined (films turning) = .ok (os, t) ∧
      requestsOf roomy 0 joined (films turning) = [false, true, true, true, false, false, true] := by
  have hjoins : run (step roomy) atRest ([.register "999" 0] ++ [.trackOpen 0 0]) = _ := run_joins
  have hhon : Along (step roomy) (Honoured roomy 0) atRest
      ([.register "999" 0] ++ [.trackOpen 0 0] ++ films turning) := by
    refine along_honoured (inv_start _) fun e he x throws hcam => ?_
    subst hcam
    simp only [List.mem_append, List.mem_singleton, reduceCtorEq, or_self, false_or] at he
    obtain ⟨d, -, heq⟩ := List.mem_map.1 he
    exact (Event.camBuffer.inj heq).2 ▸ rfl
  obtain ⟨os, t, h⟩ : ∃ os t, run (step roomy) joined (films turning) = .ok (os, t) := ⟨_, _, rfl⟩
  have hcadence := requests_cadence (r := 0) hjoins rfl rfl (remains_films "999" 0 turning) h hhon
    (by unfold Advancing; decide) (by decide) (by decide)
  exact ⟨os, t, h, hcadence.trans (by decide)⟩

end RcControl.Streaming
