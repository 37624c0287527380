import RcControl.Dispatch.Rest
import RcControl.Streaming.FanOut

/-!
# The streamer on its main thread

The callback of a track does not add the client to the stream itself: it dispatches that to
`MainThread`, whose one thread does it when it comes to it. Buffers may be delivered and clients come and
go in between, and the client may be gone by then. What an operation does is one step, at its return.

Each run of the two together is a run of the streamer, with an opening wherever an operation of the main
thread returned (`Dispatched.streamer_run`). The openings come in the order in which the tracks opened,
each once, and when the main thread rests there is none left to come (`dispatched_fanOut`).
-/

namespace RcControl.Streaming

open Lib Lib.Run Dispatch

/-- The streamer and `MainThread`, whose operations are the clients to add. -/
structure Dispatched (κ : Type) [DecidableEq κ] where
  streamer : Streamer κ
  mainThread : DispatchQueue ℕ

namespace Dispatched

inductive Event (κ : Type) where
  | register (id : κ) (timestamp : BitVec 32)
  | hangup (id : κ)
  | camBuffer (x : Mmal.BufferHeader) (throws : ℕ → Bool)
  /-- The callback of the client's track, up to the unlocking in `dispatch`. -/
  | trackOpens (c : ℕ)
  | notifyOne (i : Option ℕ)
  /-- The main thread is given the mutex, goes on with it, or wakes up by itself. -/
  | lock
  | test
  | wake
  /-- The operation of the main thread returns, having read the clock at `now`. -/
  | returns (now : ℕ)

/-- What a step is to the two parts: their events and what they put out. -/
structure Out (κ : Type) where
  events : List (Streaming.Event κ)
  actions : List (List Action)
  threadEvents : List (Dispatch.Event ℕ)
  did : List (List (Did ℕ))

inductive Fault where
  | frameQueue (f : FrameQueue.Fault)
  | blocked

variable {κ : Type} [DecidableEq κ]

def start (q : FrameQueue) : Dispatched κ := ⟨Streamer.start q, DispatchQueue.create 1⟩

def streams (pf : FrameQueue.Platform) (s : Dispatched κ) (e : Streaming.Event κ) :
    Except Fault (Out κ × Dispatched κ) :=
  match run (Streamer.step pf) s.streamer [e] with
  | .error f => .error (.frameQueue f)
  | .ok (actions, streamer) => .ok (⟨[e], actions, [], []⟩, { s with streamer := streamer })

/-- The operation adds its client to the stream, if it is still there. -/
def runs (pf : FrameQueue.Platform) (s : Dispatched κ) (e : Dispatch.Event ℕ) (now : ℕ) :
    Except Fault (Out κ × Dispatched κ) :=
  match s.mainThread.step e with
  | .error _ => .error .blocked
  | .ok (did, mainThread) =>
    let events := (finished did).map fun c => .trackOpen c now
    match run (Streamer.step pf) s.streamer events with
    | .error f => .error (.frameQueue f)
    | .ok (actions, streamer) => .ok (⟨events, actions, [e], [did]⟩, ⟨streamer, mainThread⟩)

def step (pf : FrameQueue.Platform) (s : Dispatched κ) : Event κ → Except Fault (Out κ × Dispatched κ)
  | .register id timestamp => streams pf s (.register id timestamp)
  | .hangup id => streams pf s (.hangup id)
  | .camBuffer x throws => streams pf s (.camBuffer x throws)
  | .trackOpens c => runs pf s (.push c) 0
  | .notifyOne i => runs pf s (.notifyOne i) 0
  | .lock => runs pf s (.lock 0) 0
  | .test => runs pf s (.test 0) 0
  | .wake => runs pf s (.wake 0) 0
  | .returns now => runs pf s (.finish 0) now

/-- The tracks that open, in their order. -/
def openings (es : List (Event κ)) : List ℕ :=
  es.filterMap fun
    | .trackOpens c => some c
    | _ => none

/-- The clients that are added to the stream, in their order. -/
def opened (es : List (Streaming.Event κ)) : List ℕ :=
  es.filterMap fun
    | .trackOpen c _ => some c
    | _ => none

/-- What happens to the streamer, the openings apart. -/
def outer (es : List (Event κ)) : List (Streaming.Event κ) :=
  es.filterMap fun
    | .register id timestamp => some (.register id timestamp)
    | .hangup id => some (.hangup id)
    | .camBuffer x throws => some (.camBuffer x throws)
    | _ => none

def unopened (es : List (Streaming.Event κ)) : List (Streaming.Event κ) :=
  es.filterMap fun
    | .trackOpen _ _ => none
    | e => some e

section Step

variable {pf : FrameQueue.Platform} {s s' : Dispatched κ} {e : Event κ} {o : Out κ}

lemma streams_ok {e : Streaming.Event κ} (h : streams pf s e = .ok (o, s')) :
    o.events = [e] ∧ o.threadEvents = [] ∧ o.did = [] ∧ s'.mainThread = s.mainThread ∧
      run (Streamer.step pf) s.streamer [e] = .ok (o.actions, s'.streamer) := by
  unfold streams at h
  split at h
  · cases h
  · obtain ⟨rfl, rfl⟩ := Prod.mk.inj (Except.ok.inj h)
    exact ⟨rfl, rfl, rfl, rfl, ‹_›⟩

lemma runs_ok {e : Dispatch.Event ℕ} {now : ℕ} (h : runs pf s e now = .ok (o, s')) :
    ∃ did, s.mainThread.step e = .ok (did, s'.mainThread) ∧
      o.events = (finished did).map (fun c => .trackOpen c now) ∧ o.threadEvents = [e] ∧ o.did = [did] ∧
      run (Streamer.step pf) s.streamer o.events = .ok (o.actions, s'.streamer) := by
  unfold runs at h
  split at h
  · cases h
  · rename_i did mainThread hstep
    dsimp only at h
    split at h
    · cases h
    · obtain ⟨rfl, rfl⟩ := Prod.mk.inj (Except.ok.inj h)
      exact ⟨did, hstep, rfl, rfl, rfl, ‹_›⟩

/-- What a step is to the two parts. -/
structure Parts (pf : FrameQueue.Platform) (s : Dispatched κ) (e : Event κ) (o : Out κ)
    (s' : Dispatched κ) : Prop where
  streamer : run (Streamer.step pf) s.streamer o.events = .ok (o.actions, s'.streamer)
  mainThread : run DispatchQueue.step s.mainThread o.threadEvents = .ok (o.did, s'.mainThread)
  opened : opened o.events = o.did.flatMap finished
  unopened : unopened o.events = outer [e]
  openings : dispatched o.threadEvents = openings [e]
  /-- The server neither empties the queue nor ends it. -/
  keeps : .removePending ∉ o.threadEvents ∧ .setQuit ∉ o.threadEvents

omit [DecidableEq κ] in
lemma opened_map (cs : List ℕ) (now : ℕ) :
    opened (cs.map fun c => (.trackOpen c now : Streaming.Event κ)) = cs ∧
      unopened (cs.map fun c => (.trackOpen c now : Streaming.Event κ)) = [] := by
  constructor
  · rw [opened, List.filterMap_map]
    exact List.filterMap_some
  · rw [unopened, List.filterMap_map]
    exact List.filterMap_eq_nil_iff.2 fun _ _ => rfl

lemma parts_streams (e' : Streaming.Event κ) (h : streams pf s e' = .ok (o, s'))
    (hopened : opened [e'] = []) (hunopened : unopened [e'] = outer [e])
    (hopenings : openings [e] = []) : Parts pf s e o s' := by
  obtain ⟨hevents, hthread, hdid, hmain, hrun⟩ := streams_ok h
  refine ⟨hevents ▸ hrun, ?_, ?_, ?_, ?_, ?_⟩
  · rw [hthread, hdid, hmain]
    rfl
  · rw [hevents, hdid, hopened]
    rfl
  · rw [hevents, hunopened]
  · rw [hthread, hopenings]
    rfl
  · rw [hthread]
    exact ⟨List.not_mem_nil, List.not_mem_nil⟩

lemma parts_runs (e' : Dispatch.Event ℕ) {now : ℕ} (h : runs pf s e' now = .ok (o, s'))
    (houter : outer [e] = []) (hopenings : dispatched [e'] = openings [e])
    (hkeeps : .removePending ≠ e' ∧ .setQuit ≠ e') : Parts pf s e o s' := by
  obtain ⟨did, hstep, hevents, hthread, hdid, hrun⟩ := runs_ok h
  refine ⟨hrun, ?_, ?_, ?_, ?_, ?_⟩
  · rw [hthread, hdid]
    exact run_cons_ok hstep run_nil
  · rw [hevents, hdid, (opened_map _ now).1, List.flatMap_singleton]
  · rw [hevents, houter, (opened_map _ now).2]
  · rw [hthread, hopenings]
  · rw [hthread]
    exact ⟨fun hmem => hkeeps.1 (List.mem_singleton.1 hmem),
      fun hmem => hkeeps.2 (List.mem_singleton.1 hmem)⟩

theorem parts_of_step (h : step pf s e = .ok (o, s')) : Parts pf s e o s' := by
  cases e with
  | register id timestamp => exact parts_streams (.register id timestamp) h rfl rfl rfl
  | hangup id => exact parts_streams (.hangup id) h rfl rfl rfl
  | camBuffer x throws => exact parts_streams (.camBuffer x throws) h rfl rfl rfl
  | trackOpens c => exact parts_runs (.push c) h rfl rfl (by simp)
  | notifyOne i => exact parts_runs (.notifyOne i) h rfl rfl (by simp)
  | lock => exact parts_runs (.lock 0) h rfl rfl (by simp)
  | test => exact parts_runs (.test 0) h rfl rfl (by simp)
  | wake => exact parts_runs (.wake 0) h rfl rfl (by simp)
  | returns now => exact parts_runs (.finish 0) h rfl rfl (by simp)

end Step

/-! ### A whole run -/

section Run

variable {pf : FrameQueue.Platform} {q : FrameQueue} {s : Dispatched κ} {es : List (Event κ)}
  {os : List (Out κ)}

/-- **The streamer's part.** Its openings are where operations of the main thread returned. -/
theorem streamer_run (h : run (step pf) (start q) es = .ok (os, s)) :
    run (Streamer.step pf) (Streamer.start q) (os.flatMap Out.events) =
      .ok (os.flatMap Out.actions, s.streamer) :=
  run_part Dispatched.streamer Out.events Out.actions (fun _ _ _ _ hs => (parts_of_step hs).streamer) h

theorem mainThread_run (h : run (step pf) (start q) es = .ok (os, s)) :
    run DispatchQueue.step (DispatchQueue.create 1) (os.flatMap Out.threadEvents) =
      .ok (os.flatMap Out.did, s.mainThread) :=
  run_part Dispatched.mainThread Out.threadEvents Out.did
    (fun _ _ _ _ hs => (parts_of_step hs).mainThread) h

/-- The events of the two parts, as they are in the events of the whole. -/
structure Split (es : List (Event κ)) (os : List (Out κ)) : Prop where
  opened : opened (os.flatMap Out.events) = (os.flatMap Out.did).flatMap finished
  unopened : unopened (os.flatMap Out.events) = outer es
  openings : dispatched (os.flatMap Out.threadEvents) = openings es
  keeps : .removePending ∉ os.flatMap Out.threadEvents ∧ .setQuit ∉ os.flatMap Out.threadEvents

lemma split_run (h : run (step pf) (start q) es = .ok (os, s)) : Split es os := by
  refine history_run (J := fun es os _ => Split es os) ⟨rfl, rfl, rfl, ?_⟩ ?_ h
  · exact ⟨List.not_mem_nil, List.not_mem_nil⟩
  · intro es os s e o s' _ ⟨hop, hun, hdis, hrem, hquit⟩ hs
    have hparts := parts_of_step hs
    refine ⟨?_, ?_, ?_, ?_, ?_⟩
    · simp only [List.flatMap_append, List.flatMap_singleton]
      rw [Dispatched.opened, List.filterMap_append]
      exact congrArg₂ _ hop hparts.opened
    · simp only [List.flatMap_append, List.flatMap_singleton]
      rw [Dispatched.unopened, List.filterMap_append, outer, List.filterMap_append]
      exact congrArg₂ _ hun hparts.unopened
    · simp only [List.flatMap_append, List.flatMap_singleton]
      rw [dispatched_append, hdis, hparts.openings, Dispatched.openings, Dispatched.openings,
        ← List.filterMap_append]
      rfl
    · simp only [List.flatMap_append, List.flatMap_singleton, List.mem_append, not_or]
      exact ⟨hrem, hparts.keeps.1⟩
    · simp only [List.flatMap_append, List.flatMap_singleton, List.mem_append, not_or]
      exact ⟨hquit, hparts.keeps.2⟩

/-- The tracks that opened are those whose clients have been added, in their order, and then those the
main thread still has to do with. -/
theorem openings_run (h : run (step pf) (start q) es = .ok (os, s)) :
    openings es = opened (os.flatMap Out.events) ++ inHand s.mainThread ++ s.mainThread.queue := by
  have hsplit := split_run h
  rw [← hsplit.openings, queue_run (mainThread_run h),
    (taken_run_one hsplit.keeps.1 (mainThread_run h)).2, hsplit.opened]

/-- A main thread at rest has done with all of them. -/
theorem openings_of_rests (h : run (step pf) (start q) es = .ok (os, s)) (hr : Rests s.mainThread) :
    openings es = opened (os.flatMap Out.events) := by
  have hmain := mainThread_run h
  obtain ⟨hqueue, hhand⟩ := empty_of_rests Nat.one_pos (sound_run hmain) hr
    (quit_run (split_run h).keeps.2 hmain)
  rw [openings_run h, hqueue, hhand, List.append_nil, List.append_nil]

/-- With a slot in the frame queue, no step fails in it. -/
lemma frameQueue_safe {n b : ℕ} (hn : 1 ≤ n) (hw : pf.NoWrap b) (es : List (Event κ))
    (f : FrameQueue.Fault) :
    run (step pf) (start (FrameQueue.initialised pf n b)) es ≠ .error (.frameQueue f) := by
  have hdrained : ∀ {u : Streamer κ} (evs : List (Streaming.Event κ)), Drained n b u →
      ∃ as v, run (Streamer.step pf) u evs = .ok (as, v) ∧ Drained n b v := by
    intro u evs hu
    induction evs generalizing u with
    | nil => exact ⟨[], u, rfl, hu⟩
    | cons e evs ih =>
      obtain ⟨a, u', hstep, hu'⟩ := drained_step hw hn hu e
      obtain ⟨as, v, hrun, hv⟩ := ih hu'
      exact ⟨a :: as, v, run_cons_ok hstep hrun, hv⟩
  have hI : Invariant (step pf) fun s : Dispatched κ => Drained n b s.streamer := by
    intro s e o s' hs hstep
    obtain ⟨as, v, hrun, hv⟩ := hdrained o.events hs
    rw [(parts_of_step hstep).streamer] at hrun
    exact (Prod.mk.inj (Except.ok.inj hrun)).2 ▸ hv
  have h0 : Drained n b (start (FrameQueue.initialised pf n b) : Dispatched κ).streamer :=
    ⟨FrameQueue.inv_initialised pf n b,
      (FrameQueue.fillFreeList_containers pf n (FrameQueue.construct true n b)).2⟩
  have hstreams : ∀ (s : Dispatched κ) e, Drained n b s.streamer → streams pf s e ≠ .error (.frameQueue f) := by
    intro s e hs hno
    obtain ⟨as, v, hrun, -⟩ := hdrained [e] hs
    simp [streams, hrun] at hno
  have hruns : ∀ (s : Dispatched κ) e now, Drained n b s.streamer →
      runs pf s e now ≠ .error (.frameQueue f) := by
    intro s e now hs hno
    rcases hmain : s.mainThread.step e with _ | ⟨did, mainThread⟩
    · simp [runs, hmain] at hno
    · obtain ⟨as, v, hrun, -⟩ := hdrained ((finished did).map fun c => .trackOpen c now) hs
      simp [runs, hmain, hrun] at hno
  have hP : ∀ (s : Dispatched κ) e, Drained n b s.streamer → step pf s e ≠ .error (.frameQueue f) := by
    intro s e hs
    cases e with
    | register id timestamp => exact hstreams s (.register id timestamp) hs
    | hangup id => exact hstreams s (.hangup id) hs
    | camBuffer x throws => exact hstreams s (.camBuffer x throws) hs
    | trackOpens c => exact hruns s (.push c) 0 hs
    | notifyOne i => exact hruns s (.notifyOne i) 0 hs
    | lock => exact hruns s (.lock 0) 0 hs
    | test => exact hruns s (.test 0) 0 hs
    | wake => exact hruns s (.wake 0) 0 hs
    | returns now => exact hruns s (.finish 0) now hs
  exact fun hno => not_along_of_run_error (fun _ _ h => h) hno (along_of_inv hI hP h0 es)

end Run

/-- **Fan-out through the main thread.** Every run is a run of the streamer to the same actions, in which
each client is served as before; registrations, hang-ups and buffers are those of the run, and the
openings are those of the tracks, in their order, but for the ones the main thread has still to do with.
At rest it has none. With a slot in the frame queue nothing fails there. -/
theorem dispatched_fanOut (pf : FrameQueue.Platform) (q : FrameQueue) (es : List (Event κ)) :
    (∀ os s, run (step pf) (start q) es = .ok (os, s) →
      run (Streamer.step pf) (Streamer.start q) (os.flatMap Out.events) =
        .ok (os.flatMap Out.actions, s.streamer) ∧
      (∀ c, Served pf q c (os.flatMap Out.events) (os.flatMap Out.actions) s.streamer) ∧
      Started (os.flatMap Out.actions).flatten ∧
      unopened (os.flatMap Out.events) = outer es ∧
      openings es = opened (os.flatMap Out.events) ++ inHand s.mainThread ++ s.mainThread.queue ∧
      (Rests s.mainThread → openings es = opened (os.flatMap Out.events))) ∧
    ∀ n b, 1 ≤ n → pf.NoWrap b → q = FrameQueue.initialised pf n b →
      ∀ f, run (step pf) (start q) es ≠ .error (.frameQueue f) := by
  constructor
  · intro os s h
    obtain ⟨hserved, hstarted⟩ := served_run (streamer_run h)
    exact ⟨streamer_run h, hserved, hstarted, (split_run h).unopened, openings_run h,
      openings_of_rests h⟩
  · rintro n b hn hw rfl f
    exact frameQueue_safe hn hw es f

/-- A client registers, its track opens, and a buffer comes before the main thread has done with that and
one after. -/
theorem dispatched_fanOut_oneClient : ∃ os s,
    run (step (FrameQueue.Platform.ideal fun _ _ => 0))
      (start (FrameQueue.initialised (FrameQueue.Platform.ideal fun _ _ => 0) 1 4))
      [.register "999" 0, .trackOpens 0, .lock, .test, .camBuffer (FrameQueue.wholeFrame 1) (fun _ => false),
        .returns 0, .camBuffer (FrameQueue.wholeFrame 2) (fun _ => false)] = .ok (os, s) ∧
    [0] = opened (os.flatMap Out.events) ++ inHand s.mainThread ++ s.mainThread.queue := by
  have hall := dispatched_fanOut (FrameQueue.Platform.ideal fun _ _ => 0)
    (FrameQueue.initialised (FrameQueue.Platform.ideal fun _ _ => 0) 1 4)
    [.register "999" 0, .trackOpens 0, .lock, .test, .camBuffer (FrameQueue.wholeFrame 1) (fun _ => false),
      .returns 0, .camBuffer (FrameQueue.wholeFrame 2) (fun _ => false)]
  obtain ⟨os, s, h⟩ : ∃ os s, run (step (FrameQueue.Platform.ideal fun _ _ => 0))
      (start (FrameQueue.initialised (FrameQueue.Platform.ideal fun _ _ => 0) 1 4))
      [.register "999" 0, .trackOpens 0, .lock, .test, .camBuffer (FrameQueue.wholeFrame 1) (fun _ => false),
        .returns 0, .camBuffer (FrameQueue.wholeFrame 2) (fun _ => false)] = .ok (os, s) := ⟨_, _, rfl⟩
  obtain ⟨-, -, -, -, hopen, -⟩ := hall.1 os s h
  exact ⟨os, s, h, hopen⟩

end Dispatched

end RcControl.Streaming
