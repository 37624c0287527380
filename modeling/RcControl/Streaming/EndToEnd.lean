import RcControl.Recorder.Flow
import RcControl.Streaming.Dispatched

/-!
# From the encoder to the clients

The thread of the recorder, the ports that call it back, the main thread and the clients, all together.
The recorder hands each buffer of the encoder to `onCamBuffer` by the address of its header; what a
client is sent is what the header carries then. So it counts that nobody writes to a header between the
callback of the encoder and its release: the components write to headers that they were sent, a send to
an output port and a release reset the header they are given.

Each client is sent what the encoder has returned, from its opening to its end, unchanged and in order
(`endToEnd`).
-/

namespace RcControl.Streaming

open Lib Lib.Run Lib.Custody Mmal

/-- The recorder, the server, and what the headers carry. -/
structure EndToEnd (κ : Type) [DecidableEq κ] where
  recorder : Recorder
  server : Dispatched κ
  content : Recorder.Header → BufferHeader

namespace EndToEnd

inductive Event (κ : Type) where
  /-- The loop of the recorder makes its next call; `throws` is about the tracks it may send on. -/
  | loop (stop : Bool) (status : Status) (throws : ℕ → Bool)
  /-- A port calls back. -/
  | callback (port : Recorder.PortId) (buffer : Recorder.Header) (cmd : BitVec 32)
  /-- A component writes to a header that one of its ports was sent. -/
  | writes (buffer : Recorder.Header) (x : BufferHeader)
  /-- Anything that happens to the server, but for the buffers of the recorder. -/
  | server (e : Dispatched.Event κ)

/-- What a step is to the two parts, and which contents the encoder returned in it. -/
structure Out (κ : Type) where
  notes : List Recorder.Note
  serverEvents : List (Dispatched.Event κ)
  serverOuts : List (Dispatched.Out κ)
  returned : List BufferHeader

inductive Fault where
  | server (f : Dispatched.Fault)
  /-- The event is none that can happen now. -/
  | impossible

/-- `mmal_buffer_header_reset`. -/
def reset (x : BufferHeader) : BufferHeader :=
  { x with
    length := 0
    flags := 0
    dts := 1 <<< 63
    length_le := Nat.zero_le _
    length_lt := Nat.zero_lt_of_lt x.length_lt }

/-- `mmal_port_send_buffer` on an output port. -/
def clear (x : BufferHeader) : BufferHeader :=
  { x with length := 0, length_le := Nat.zero_le _, length_lt := Nat.zero_lt_of_lt x.length_lt }

variable {κ : Type} [DecidableEq κ]

/-- The pools are full, there are no clients, and the frame queue is as the recorder has set it up. -/
def start (q : FrameQueue) (size : Recorder.PoolId → ℕ) (content : Recorder.Header → BufferHeader) :
    EndToEnd κ :=
  ⟨Recorder.start size, Dispatched.start q, content⟩

/-- What the next call of the loop does to the header that it is given. -/
def touched (content : Recorder.Header → BufferHeader) :
    Recorder.Point → Recorder.Header → BufferHeader
  | .send .fillVideo buffer | .send .fillEncoder buffer =>
    Function.update content buffer (clear (content buffer))
  | .release buffer => Function.update content buffer (reset (content buffer))
  | _ => content

def loop (pf : FrameQueue.Platform) (s : EndToEnd κ) (stop : Bool) (status : Status)
    (throws : ℕ → Bool) : Except Fault (Out κ × EndToEnd κ) :=
  let r := s.recorder.loopStep stop status
  let events := (Recorder.seenIn r.1).map fun b => .camBuffer (s.content b) throws
  match run (Dispatched.step pf) s.server events with
  | .error f => .error (.server f)
  | .ok (outs, server) => .ok (⟨r.1, events, outs, []⟩, ⟨r.2, server, touched s.content s.recorder.point⟩)

/-- The callbacks of the ports: an event, and what comes back to the input of the encoder, is released. -/
def callback (s : EndToEnd κ) (port : Recorder.PortId) (buffer : Recorder.Header) (cmd : BitVec 32) :
    Except Fault (Out κ × EndToEnd κ) :=
  match s.recorder.step (.callback port buffer cmd) with
  | .error _ => .error .impossible
  | .ok (notes, recorder) =>
    .ok (⟨notes, [], [], (Recorder.returnedBy .encoderOutput notes).map s.content⟩,
      { s with
        recorder := recorder
        content := if cmd ≠ 0 ∨ port = .encoderInput
          then Function.update s.content buffer (reset (s.content buffer)) else s.content })

def serve (pf : FrameQueue.Platform) (s : EndToEnd κ) (e : Dispatched.Event κ) :
    Except Fault (Out κ × EndToEnd κ) :=
  match s.server.step pf e with
  | .error f => .error (.server f)
  | .ok (out, server) => .ok (⟨[], [e], [out], []⟩, { s with server := server })

def step (pf : FrameQueue.Platform) (s : EndToEnd κ) : Event κ → Except Fault (Out κ × EndToEnd κ)
  | .loop stop status throws => loop pf s stop status throws
  | .callback port buffer cmd => callback s port buffer cmd
  | .writes buffer x =>
    if buffer ∈ s.recorder.held .videoPort ++ s.recorder.held .encoderInput ++
        s.recorder.held .encoderOutput then
      .ok (⟨[], [], [], []⟩, { s with content := Function.update s.content buffer x })
    else .error .impossible
  | .server (.camBuffer _ _) => .error .impossible
  | .server e => serve pf s e

/-- The buffers among the events of the streamer. -/
def buffers (es : List (Streaming.Event κ)) : List BufferHeader :=
  es.filterMap fun
    | .camBuffer x _ => some x
    | _ => none

/-- The same among the events of the server. -/
def camBuffers (es : List (Dispatched.Event κ)) : List BufferHeader :=
  es.filterMap fun
    | .camBuffer x _ => some x
    | _ => none

/-- What happens to the server but for the buffers. -/
def apart (es : List (Dispatched.Event κ)) : List (Dispatched.Event κ) :=
  es.filterMap fun
    | .camBuffer _ _ => none
    | e => some e

/-- The same, as it is in the events of the whole. -/
def given (es : List (Event κ)) : List (Dispatched.Event κ) :=
  es.filterMap fun
    | .server e => some e
    | _ => none

/-- What the streamer is fed in a run of the whole. -/
def fed (os : List (Out κ)) : List (Streaming.Event κ) :=
  (os.flatMap Out.serverOuts).flatMap Dispatched.Out.events

/-- What the streamer does in it. -/
def done (os : List (Out κ)) : List (List Action) :=
  (os.flatMap Out.serverOuts).flatMap Dispatched.Out.actions

/-! ### Who writes where -/

section Content

variable {size : Recorder.PoolId → ℕ} {r : Recorder} {b : Recorder.Header}
  {content : Recorder.Header → BufferHeader}

/-- A header that is somewhere else is not on its way from the encoder. -/
lemma notMem_encoded {p : Recorder.Place} (h : Recorder.Accounted size r) (hb : b ∈ r.board p)
    (hp : p ≠ .processing) (hq : p ≠ .queueEncoderOut) : b ∉ Recorder.encoded r := by
  obtain ⟨place, -, hheld⟩ := h.held b (h.issued p b hb)
  have hplace : p = place := hheld.eq_of_mem hb
  intro hmem
  rcases List.mem_append.1 hmem with hunseen | hqueue
  · have hprocessing : b ∈ r.board .processing := by
      change b ∈ r.point.processing
      unfold Recorder.Point.unseen at hunseen
      split at hunseen
      · rename_i buffer hpt
        rw [hpt]
        exact hunseen
      · exact absurd hunseen List.not_mem_nil
    exact hp (hplace.trans (hheld.eq_of_mem hprocessing).symm)
  · exact hq (hplace.trans (hheld.eq_of_mem (show b ∈ r.board .queueEncoderOut from hqueue)).symm)

lemma map_update {l : List Recorder.Header} (hb : b ∉ l) (x : BufferHeader) :
    l.map (Function.update content b x) = l.map content :=
  List.map_congr_left fun c hc =>
    have hcb : c ≠ b := fun hcb => hb (hcb ▸ hc)
    Function.update_of_ne hcb ..

lemma encoded_send {call : Recorder.Call} (hpt : r.point = .send call b) (stop : Bool) (status : Status) :
    Recorder.encoded (r.loopStep stop status).2 = Recorder.encoded r := by
  unfold Recorder.loopStep
  rw [hpt]
  simp only [Recorder.sendToPort]
  split
  · cases call <;> simp [Recorder.encoded, hpt, Recorder.Point.unseen, Recorder.afterSend,
      Recorder.afterCall, Recorder.setHeld]
  · simp [Recorder.encoded, hpt, Recorder.Point.unseen]

/-- The loop writes to no header that is still to be handed over. -/
lemma map_touched (h : Recorder.Accounted size r) (stop : Bool) (status : Status) :
    (Recorder.encoded (r.loopStep stop status).2).map (touched content r.point) =
      (Recorder.encoded (r.loopStep stop status).2).map content := by
  have hsend : ∀ {call b}, r.point = .send call b → b ∉ Recorder.encoded (r.loopStep stop status).2 := by
    intro call b hpt
    rw [encoded_send hpt]
    refine notMem_encoded (p := .sending call) h ?_ (by simp) (by simp)
    simp [Recorder.board, hpt, Recorder.Point.sending]
  cases hpt : r.point with
  | send call b =>
    cases call with
    | fillVideo => exact map_update (hsend hpt) _
    | fillEncoder => exact map_update (hsend hpt) _
    | forward => rfl
  | release b =>
    refine map_update ?_ _
    have hb : b ∈ r.board .processing := by simp [Recorder.board, hpt, Recorder.Point.processing]
    obtain ⟨place, -, hheld⟩ := h.held b (h.issued _ b hb)
    have hplace := hheld.eq_of_mem hb
    intro hmem
    have hqueue : b ∈ r.board .queueEncoderOut := by
      change b ∈ r.queueEncoderOut
      simpa [Recorder.loopStep, hpt, Recorder.encoded, Recorder.Point.unseen,
        Recorder.bufferHeaderRelease, Recorder.setPool] using hmem
    cases hplace.trans (hheld.eq_of_mem hqueue).symm
  | _ => rfl

/-- A callback writes only to a header that it releases. -/
lemma map_callback {port : Recorder.PortId} {cmd : BitVec 32} {notes : List Recorder.Note}
    {r' : Recorder} (h : Recorder.Accounted size r) (hs : r.step (.callback port b cmd) = .ok (notes, r'))
    (x : BufferHeader) :
    (Recorder.encoded r').map (if cmd ≠ 0 ∨ port = .encoderInput then Function.update content b x
      else content) = (Recorder.encoded r').map content := by
  split
  · rename_i hrelease
    refine map_update ?_ x
    simp only [Recorder.step] at hs
    split at hs
    · cases hs
    · rename_i r₁ hback
      have hr' : (r₁.portCb port b cmd).2 = r' := congrArg Prod.snd (Except.ok.inj hs)
      have hencoded : Recorder.encoded (r₁.portCb port b cmd).2 = Recorder.encoded r := by
        rw [← (Recorder.handBack_between hback).2]
        rcases Recorder.portCb_cases r₁ port b cmd with ⟨heq, -⟩ | ⟨hcmd, rfl, -⟩ | ⟨hcmd, rfl, -⟩
        · rw [heq]
          rfl
        · simp [hcmd] at hrelease
        · simp [hcmd] at hrelease
      rw [← hr', hencoded]
      rcases Recorder.handBack_cases hback with ⟨hb, -⟩ | ⟨-, q, hq, -⟩
      · exact notMem_encoded (p := .port port) h hb (by simp) (by simp)
      · refine notMem_encoded (p := .pool port.eventPool) h ?_ (by simp) (by simp)
        change b ∈ r.pool port.eventPool
        rw [hq]
        exact List.mem_cons_self
  · rfl

end Content

section Step

variable {pf : FrameQueue.Platform} {size : Recorder.PoolId → ℕ} {s s' : EndToEnd κ} {e : Event κ} {o : Out κ}

/-- What a step is to the two parts. -/
structure Parts (pf : FrameQueue.Platform) (s : EndToEnd κ) (e : Event κ) (o : Out κ)
    (s' : EndToEnd κ) : Prop where
  server : run (Dispatched.step pf) s.server o.serverEvents = .ok (o.serverOuts, s'.server)
  recorder : ∀ size, Recorder.Accounted size s.recorder → Recorder.Accounted size s'.recorder
  apart : apart o.serverEvents = given [e]
  content : ∀ size, Recorder.Accounted size s.recorder →
    (Recorder.encoded s.recorder).map s.content ++ o.returned =
      camBuffers o.serverEvents ++ (Recorder.encoded s'.recorder).map s'.content

omit [DecidableEq κ] in
lemma apart_map_camBuffer (xs : List BufferHeader) (throws : ℕ → Bool) :
    apart (xs.map fun x => (.camBuffer x throws : Dispatched.Event κ)) = [] ∧
    camBuffers (xs.map fun x => (.camBuffer x throws : Dispatched.Event κ)) = xs := by
  constructor
  · rw [apart, List.filterMap_map]
    exact List.filterMap_eq_nil_iff.2 fun _ _ => rfl
  · rw [camBuffers, List.filterMap_map]
    exact List.filterMap_some

/-- The loop gives nothing back, and the callbacks show nothing. -/
lemma returnedBy_loopStep (r : Recorder) (stop : Bool) (status : Status) (port : Recorder.PortId) :
    Recorder.returnedBy port (r.loopStep stop status).1 = [] := by
  unfold Recorder.loopStep
  cases r.point with
  | send call b =>
    simp only [Recorder.sendToPort]
    split <;> rfl
  | take =>
    simp only
    split <;> rfl
  | _ => rfl

lemma seenIn_callback {r r' : Recorder} {port : Recorder.PortId} {b : Recorder.Header} {cmd : BitVec 32}
    {notes : List Recorder.Note} (hs : r.step (.callback port b cmd) = .ok (notes, r')) :
    Recorder.seenIn notes = [] := by
  simp only [Recorder.step] at hs
  split at hs
  · cases hs
  · rename_i r₁ hback
    have hnotes : (r₁.portCb port b cmd).1 = notes := congrArg Prod.fst (Except.ok.inj hs)
    rw [← hnotes]
    rcases Recorder.portCb_cases r₁ port b cmd with ⟨heq, -⟩ | ⟨-, -, heq⟩ | ⟨-, -, heq⟩ <;>
      rw [heq] <;> rfl

/-- What happens to the server alone. -/
lemma parts_serve {e : Dispatched.Event κ} (h : serve pf s e = .ok (o, s')) (hapart : apart [e] = [e])
    (hnone : camBuffers [e] = []) : Parts pf s (.server e) o s' := by
  unfold serve at h
  split at h
  · cases h
  · rename_i out server hs
    obtain ⟨rfl, rfl⟩ := Prod.mk.inj (Except.ok.inj h)
    refine ⟨run_cons_ok hs run_nil, fun size hr => hr, hapart, fun size hr => ?_⟩
    rw [List.append_nil, hnone]
    rfl

lemma parts_loop {stop : Bool} {status : Status} {throws : ℕ → Bool}
    (h : loop pf s stop status throws = .ok (o, s')) : Parts pf s (.loop stop status throws) o s' := by
  unfold loop at h
  dsimp only at h
  split at h
  · cases h
  · rename_i outs server hrun
    obtain ⟨rfl, rfl⟩ := Prod.mk.inj (Except.ok.inj h)
    obtain ⟨hapart, hshown⟩ := apart_map_camBuffer (κ := κ)
      ((Recorder.seenIn (s.recorder.loopStep stop status).1).map s.content) throws
    rw [List.map_map] at hapart hshown
    refine ⟨hrun, fun size hr => Recorder.loopStep_accounted hr stop status, hapart, fun size hr => ?_⟩
    have hflow := Recorder.loopStep_encoded s.recorder stop status
    rw [returnedBy_loopStep, List.append_nil] at hflow
    dsimp only
    rw [map_touched hr, hflow, List.map_append, List.append_nil]
    exact congrArg (· ++ _) hshown.symm

lemma parts_callback {port : Recorder.PortId} {buffer : Recorder.Header} {cmd : BitVec 32}
    (h : callback s port buffer cmd = .ok (o, s')) : Parts pf s (.callback port buffer cmd) o s' := by
  unfold callback at h
  split at h
  · cases h
  · rename_i notes recorder hs
    obtain ⟨rfl, rfl⟩ := Prod.mk.inj (Except.ok.inj h)
    refine ⟨rfl, fun size hr => Recorder.accounted_invariant size _ _ _ _ hr hs, rfl, fun size hr => ?_⟩
    have hflow := (Recorder.step_between hs).2
    rw [seenIn_callback hs, List.nil_append] at hflow
    dsimp only
    rw [map_callback hr hs, ← hflow, List.map_append]
    rfl

theorem parts_of_step (h : step pf s e = .ok (o, s')) : Parts pf s e o s' := by
  cases e with
  | loop stop status throws => exact parts_loop h
  | callback port buffer cmd => exact parts_callback h
  | writes buffer x =>
    simp only [step] at h
    split_ifs at h with hheld
    obtain ⟨rfl, rfl⟩ := Prod.mk.inj (Except.ok.inj h)
    refine ⟨rfl, fun size hr => hr, rfl, fun size hr => ?_⟩
    have hnot : buffer ∉ Recorder.encoded s.recorder := by
      rcases List.mem_append.1 hheld with hheld | hheld
      · rcases List.mem_append.1 hheld with hheld | hheld
        · exact notMem_encoded (p := .port .videoPort) hr hheld (by simp) (by simp)
        · exact notMem_encoded (p := .port .encoderInput) hr hheld (by simp) (by simp)
      · exact notMem_encoded (p := .port .encoderOutput) hr hheld (by simp) (by simp)
    dsimp only
    rw [map_update hnot, List.append_nil]
    rfl
  | server e =>
    cases e with
    | camBuffer x throws => cases h
    | register id timestamp => exact parts_serve h rfl rfl
    | hangup id => exact parts_serve h rfl rfl
    | trackOpens c => exact parts_serve h rfl rfl
    | notifyOne i => exact parts_serve h rfl rfl
    | lock => exact parts_serve h rfl rfl
    | test => exact parts_serve h rfl rfl
    | wake => exact parts_serve h rfl rfl
    | returns now => exact parts_serve h rfl rfl

end Step

/-! ### A whole run -/

omit [DecidableEq κ] in
lemma buffers_unopened (es : List (Streaming.Event κ)) : buffers (Dispatched.unopened es) = buffers es := by
  rw [buffers, Dispatched.unopened, List.filterMap_filterMap]
  refine List.filterMap_congr fun e _ => ?_
  cases e <;> rfl

omit [DecidableEq κ] in
lemma buffers_outer (es : List (Dispatched.Event κ)) : buffers (Dispatched.outer es) = camBuffers es := by
  rw [buffers, Dispatched.outer, List.filterMap_filterMap]
  refine List.filterMap_congr fun e _ => ?_
  cases e <;> rfl

section Run

variable {pf : FrameQueue.Platform} {q : FrameQueue} {size : Recorder.PoolId → ℕ}
  {content : Recorder.Header → BufferHeader} {s : EndToEnd κ} {es : List (Event κ)} {os : List (Out κ)}

/-- **The server's part.** -/
theorem server_run (h : run (step pf) (start q size content) es = .ok (os, s)) :
    run (Dispatched.step pf) (Dispatched.start q) (os.flatMap Out.serverEvents) =
      .ok (os.flatMap Out.serverOuts, s.server) :=
  run_part EndToEnd.server Out.serverEvents Out.serverOuts (fun _ _ _ _ hs => (parts_of_step hs).server) h

lemma invariant_accounted (pf : FrameQueue.Platform) (size : Recorder.PoolId → ℕ) :
    Invariant (step pf) fun s : EndToEnd κ => Recorder.Accounted size s.recorder :=
  fun _ _ _ _ hr hs => (parts_of_step hs).recorder size hr

/-- What the encoder has returned has been handed over, and what it carries has not changed; the rest is
still to be handed over, as it was returned. -/
theorem content_run (h : run (step pf) (start q size content) es = .ok (os, s)) :
    os.flatMap Out.returned = camBuffers (os.flatMap Out.serverEvents) ++
      (Recorder.encoded s.recorder).map s.content := by
  have hstep : ∀ (s : EndToEnd κ) e o s', Recorder.Accounted size s.recorder →
      step pf s e = .ok (o, s') → (Recorder.encoded s.recorder).map s.content ++ o.returned =
        camBuffers o.serverEvents ++ (Recorder.encoded s'.recorder).map s'.content :=
    fun _ _ _ _ hr hs => (parts_of_step hs).content size hr
  have hpipe := pipeline_run (invariant_accounted pf size) hstep (Recorder.start_accounted size) h
  rw [camBuffers, List.filterMap_flatMap]
  exact hpipe

lemma apart_run (h : run (step pf) (start q size content) es = .ok (os, s)) :
    apart (os.flatMap Out.serverEvents) = given es := by
  refine history_run (J := fun es os _ => apart (os.flatMap Out.serverEvents) = given es) rfl ?_ h
  intro es os s e o s' _ hJ hs
  rw [List.flatMap_append, List.flatMap_singleton, apart, List.filterMap_append, given,
    List.filterMap_append]
  exact congrArg₂ _ hJ (parts_of_step hs).apart

lemma server_error {f : Dispatched.Fault} {s : EndToEnd κ} {e : Event κ}
    (h : step pf s e = .error (.server f)) :
    ∃ events, run (Dispatched.step pf) s.server events = .error f := by
  have hserve : ∀ e', serve pf s e' = .error (.server f) →
      ∃ events, run (Dispatched.step pf) s.server events = .error f := by
    intro e' he'
    unfold serve at he'
    split at he'
    · rename_i g hs
      refine ⟨[e'], run_cons_error ?_⟩
      rw [hs, Fault.server.inj (Except.error.inj he')]
    · cases he'
  cases e with
  | loop stop status throws =>
    simp only [step, loop] at h
    split at h
    · rename_i g hrun
      exact ⟨_, hrun.trans (congrArg _ (Fault.server.inj (Except.error.inj h)))⟩
    · cases h
  | callback port buffer cmd =>
    simp only [step, callback] at h
    split at h <;> cases h
  | writes buffer x =>
    simp only [step] at h
    split at h <;> cases h
  | server e =>
    cases e with
    | camBuffer x throws => cases h
    | register id timestamp => exact hserve (.register id timestamp) h
    | hangup id => exact hserve (.hangup id) h
    | trackOpens c => exact hserve (.trackOpens c) h
    | notifyOne i => exact hserve (.notifyOne i) h
    | lock => exact hserve .lock h
    | test => exact hserve .test h
    | wake => exact hserve .wake h
    | returns now => exact hserve (.returns now) h

/-- With a slot in the frame queue, no step fails in it. -/
lemma frameQueue_safe {n b : ℕ} (hn : 1 ≤ n) (hw : pf.NoWrap b) (es : List (Event κ))
    (f : FrameQueue.Fault) :
    run (step pf) (start (FrameQueue.initialised pf n b) size content) es ≠
      .error (.server (.frameQueue f)) := by
  intro h
  obtain ⟨es₁, e, es₂, os, s, -, hrun, hstep⟩ := run_eq_error h
  obtain ⟨events, herror⟩ := server_error hstep
  exact Dispatched.frameQueue_safe hn hw _ f (run_append_error (server_run hrun) herror)

/-- **End to end.** In every run the server's part is a run of the streamer in which each client is
served, and in which the buffers are those that the encoder has returned: with the contents it returned
them with, in its order, each once, but for those the recorder has still to hand over, whose contents
are as they were returned. What else happens to the server is what is given. With a slot in the frame
queue nothing fails there. -/
theorem endToEnd (pf : FrameQueue.Platform) (q : FrameQueue) (size : Recorder.PoolId → ℕ)
    (content : Recorder.Header → BufferHeader) (es : List (Event κ)) :
    (∀ os s, run (step pf) (start q size content) es = .ok (os, s) →
      run (Streamer.step pf) (Streamer.start q) (fed os) = .ok (done os, s.server.streamer) ∧
      (∀ c, Served pf q c (fed os) (done os) s.server.streamer) ∧
      os.flatMap Out.returned = buffers (fed os) ++ (Recorder.encoded s.recorder).map s.content ∧
      Dispatched.unopened (fed os) = Dispatched.outer (os.flatMap Out.serverEvents) ∧
      apart (os.flatMap Out.serverEvents) = given es) ∧
    ∀ n b, 1 ≤ n → pf.NoWrap b → q = FrameQueue.initialised pf n b →
      ∀ f, run (step pf) (start q size content) es ≠ .error (.server (.frameQueue f)) := by
  refine ⟨fun os s h => ?_, fun n b hn hw hq f => hq ▸ frameQueue_safe hn hw es f⟩
  have hserver := server_run h
  have hstreamer := Dispatched.streamer_run hserver
  have hunopened := (Dispatched.split_run hserver).unopened
  refine ⟨hstreamer, (served_run hstreamer).1, ?_, hunopened, apart_run h⟩
  rw [content_run h, ← buffers_outer, ← hunopened, buffers_unopened]
  rfl

/-- One client, and one header of each pool: the loop goes round to the encoder, which fills its header
and returns it, and goes on until it has handed it over. -/
def oneFrame : List (Event String) :=
  [.server (.register "999" 0), .server (.trackOpens 0), .server .lock, .server .test,
    .server (.returns 0)] ++
  List.replicate 9 (.loop false .success fun _ => false) ++
  [.writes ⟨.encoderOut, 0⟩ (FrameQueue.wholeFrame 7), .callback .encoderOutput ⟨.encoderOut, 0⟩ 0] ++
  List.replicate 4 (.loop false .success fun _ => false)

theorem endToEnd_oneFrame : ∃ os s,
    run (step (FrameQueue.Platform.ideal fun _ _ => 0))
      (start (FrameQueue.initialised (FrameQueue.Platform.ideal fun _ _ => 0) 1 4) (fun _ => 1)
        fun _ => FrameQueue.wholeFrame 0) oneFrame = .ok (os, s) ∧
    (∀ c, Served (FrameQueue.Platform.ideal fun _ _ => 0)
      (FrameQueue.initialised (FrameQueue.Platform.ideal fun _ _ => 0) 1 4) c (fed os) (done os)
      s.server.streamer) ∧
    [FrameQueue.wholeFrame 7] = buffers (fed os) ++ (Recorder.encoded s.recorder).map s.content := by
  obtain ⟨os, s, h, hreturned⟩ : ∃ os s, run (step (FrameQueue.Platform.ideal fun _ _ => 0))
      (start (FrameQueue.initialised (FrameQueue.Platform.ideal fun _ _ => 0) 1 4) (fun _ => 1)
        fun _ => FrameQueue.wholeFrame 0) oneFrame = .ok (os, s) ∧
      os.flatMap Out.returned = [FrameQueue.wholeFrame 7] := ⟨_, _, rfl, rfl⟩
  obtain ⟨-, hserved, hbuffers, -⟩ := (endToEnd _ _ _ _ _).1 os s h
  exact ⟨os, s, h, hserved, hreturned ▸ hbuffers⟩

end Run

end EndToEnd

end RcControl.Streaming
