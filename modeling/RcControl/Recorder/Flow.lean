import RcControl.Recorder.Conservation

/-!
# No header overtakes another

What a port returns goes through a queue, and the put back after a failed send restores the front of
it. So the encoder is sent the frames in the order of the camera, and the streaming callback sees the
buffers in the order of the encoder, each once.
-/

namespace RcControl.Recorder

open Mmal Lib Lib.Run Lib.Custody

/-! ### What the notes say -/

/-- The buffers a port has returned. -/
def returnedBy (port : PortId) (notes : List Note) : List Header :=
  notes.filterMap fun
    | .returned p b => if p = port then some b else none
    | _ => none

/-- The buffers a port was sent. -/
def sentTo (port : PortId) (notes : List Note) : List Header :=
  notes.filterMap fun
    | .sent p b => if p = port then some b else none
    | _ => none

/-- The buffers the streaming callback was called with. -/
def seenIn (notes : List Note) : List Header :=
  notes.filterMap fun
    | .seen b => some b
    | _ => none

/-- What the loop has taken and not shown yet. -/
def Point.unseen : Point → List Header
  | .process buffer => [buffer]
  | _ => []

/-- The frames between the camera and the encoder. -/
def frames (s : Recorder) : List Header := s.point.sending .forward ++ s.queueEncoderIn

/-- The buffers between the encoder and the streaming callback. -/
def encoded (s : Recorder) : List Header := s.point.unseen ++ s.queueEncoderOut

section Step

variable {s s' : Recorder} {e : Event} {o : List Note}

lemma handBack_between {port : PortId} {b : Header} {cmd : BitVec 32}
    (h : s.handBack port b cmd = .ok s') : s'.frames = s.frames ∧ s'.encoded = s.encoded := by
  rcases handBack_cases h with ⟨-, rfl⟩ | ⟨-, q, -, rfl⟩
  · exact ⟨rfl, rfl⟩
  · exact ⟨rfl, rfl⟩

/-- A callback lets in what it notes. -/
lemma portCb_between (s : Recorder) (port : PortId) (b : Header) (cmd : BitVec 32) :
    s.frames ++ returnedBy .videoPort (s.portCb port b cmd).1 =
      sentTo .encoderInput (s.portCb port b cmd).1 ++ (s.portCb port b cmd).2.frames ∧
    s.encoded ++ returnedBy .encoderOutput (s.portCb port b cmd).1 =
      seenIn (s.portCb port b cmd).1 ++ (s.portCb port b cmd).2.encoded := by
  rcases portCb_cases s port b cmd with ⟨heq, -⟩ | ⟨-, rfl, heq⟩ | ⟨-, rfl, heq⟩
  · simp [heq, returnedBy, sentTo, seenIn, frames, encoded, bufferHeaderRelease, setPool]
  · simp [heq, returnedBy, sentTo, seenIn, frames, encoded, Queue.put]
  · simp [heq, returnedBy, sentTo, seenIn, frames, encoded, Queue.put]

/-- The loop lets out what it notes, from the front. -/
lemma loopStep_frames (s : Recorder) (stop : Bool) (status : Status) :
    s.frames ++ returnedBy .videoPort (s.loopStep stop status).1 =
      sentTo .encoderInput (s.loopStep stop status).1 ++ (s.loopStep stop status).2.frames := by
  unfold loopStep
  cases hpt : s.point with
  | get call =>
    simp only [takeFromQueue]
    rcases hq : (s.source call).get with _ | ⟨b, q⟩
    · cases call <;> simp [frames, hpt, returnedBy, sentTo, Point.sending, afterSend, afterCall]
    · rw [Queue.get_eq_some] at hq
      cases call <;> simp_all [frames, returnedBy, sentTo, Point.sending, source, setSource, setPool]
  | send call b =>
    simp only [sendToPort]
    split
    · cases call <;>
        simp [frames, hpt, returnedBy, sentTo, Point.sending, afterSend, afterCall, setHeld, Call.port]
    · simp [frames, hpt, returnedBy, sentTo, Point.sending]
  | putBack call b status =>
    cases call <;>
      simp [frames, hpt, returnedBy, sentTo, Point.sending, source, setSource, setPool, Queue.putBack]
  | take =>
    rcases hq : s.queueEncoderOut.get with _ | ⟨b, q⟩ <;>
      simp [frames, hpt, returnedBy, sentTo, Point.sending]
  | wait => cases stop <;> simp [frames, hpt, returnedBy, sentTo, Point.sending]
  | fill call =>
    cases call <;> simp only [] <;> split <;>
      simp [frames, hpt, returnedBy, sentTo, Point.sending, afterCall]
  | release b => simp [frames, hpt, returnedBy, sentTo, Point.sending, bufferHeaderRelease, setPool]
  | _ => simp [frames, hpt, returnedBy, sentTo, Point.sending]

lemma loopStep_encoded (s : Recorder) (stop : Bool) (status : Status) :
    s.encoded ++ returnedBy .encoderOutput (s.loopStep stop status).1 =
      seenIn (s.loopStep stop status).1 ++ (s.loopStep stop status).2.encoded := by
  unfold loopStep
  cases hpt : s.point with
  | get call =>
    simp only [takeFromQueue]
    rcases hq : (s.source call).get with _ | ⟨b, q⟩
    · cases call <;> simp [encoded, hpt, returnedBy, seenIn, Point.unseen, afterSend, afterCall]
    · cases call <;> simp [encoded, hpt, returnedBy, seenIn, Point.unseen, setSource, setPool]
  | send call b =>
    simp only [sendToPort]
    split
    · cases call <;>
        simp [encoded, hpt, returnedBy, seenIn, Point.unseen, afterSend, afterCall, setHeld]
    · simp [encoded, hpt, returnedBy, seenIn, Point.unseen]
  | putBack call b status =>
    cases call <;> simp [encoded, hpt, returnedBy, seenIn, Point.unseen, setSource, setPool]
  | take =>
    rcases hq : s.queueEncoderOut.get with _ | ⟨b, q⟩
    · simp [encoded, hpt, returnedBy, seenIn, Point.unseen]
    · rw [Queue.get_eq_some] at hq
      simp [encoded, hpt, hq, returnedBy, seenIn, Point.unseen]
  | wait => cases stop <;> simp [encoded, hpt, returnedBy, seenIn, Point.unseen]
  | fill call =>
    cases call <;> simp only [] <;> split <;>
      simp [encoded, hpt, returnedBy, seenIn, Point.unseen, afterCall]
  | release b => simp [encoded, hpt, returnedBy, seenIn, Point.unseen, bufferHeaderRelease, setPool]
  | _ => simp [encoded, hpt, returnedBy, seenIn, Point.unseen]

theorem step_between (h : step s e = .ok (o, s')) :
    s.frames ++ returnedBy .videoPort o = sentTo .encoderInput o ++ s'.frames ∧
    s.encoded ++ returnedBy .encoderOutput o = seenIn o ++ s'.encoded := by
  cases e with
  | loop stop status =>
    obtain ⟨rfl, rfl⟩ := Prod.mk.inj (Except.ok.inj h)
    exact ⟨loopStep_frames s stop status, loopStep_encoded s stop status⟩
  | callback port b cmd =>
    simp only [step] at h
    split at h
    · simp at h
    · rename_i s₁ hback
      obtain ⟨rfl, rfl⟩ := Prod.mk.inj (Except.ok.inj h)
      obtain ⟨hframes, hencoded⟩ := handBack_between hback
      exact hframes ▸ hencoded ▸ portCb_between s₁ port b cmd

end Step

/-! ### The whole run -/

/-- `send_buffer_from_queue` has a buffer in hand. -/
def Point.inSend : Point → Bool
  | .send .. | .putBack .. => true
  | _ => false

/-- What holds of the headers after a run with these notes. -/
structure Conserved (size : PoolId → ℕ) (os : List (List Note)) (s : Recorder) : Prop where
  /-- Each header is in one of the places of its pool, once, and nowhere else, or it is in the hand
  of `send_buffer_from_queue`, and nowhere else. -/
  held : ∀ b, Issued size b → (∃ p ∈ places b.pool, HeldAt s.board b p) ∨
    s.point.inSend = true ∧ ∃ call, s.point.sending call = [b] ∧ HeldAt s.board b (.sending call)
  /-- Outside `send_buffer_from_queue` it is in one of those places. -/
  settled : s.point.inSend = false → ∀ b, Issued size b → ∃ p ∈ places b.pool, HeldAt s.board b p
  /-- There are no other headers. -/
  issued : ∀ p, ∀ b ∈ s.board p, Issued size b
  /-- The encoder was sent what the camera returned, but for what is still on the way. -/
  frames_ordered : os.flatMap (returnedBy .videoPort) = os.flatMap (sentTo .encoderInput) ++ s.frames
  /-- The callback has seen what the encoder returned, but for what is still on the way. -/
  encoded_ordered : os.flatMap (returnedBy .encoderOutput) = os.flatMap seenIn ++ s.encoded

section Runs

variable {size : PoolId → ℕ} {es : List Event} {os : List (List Note)} {s : Recorder} {b : Header}

lemma inSend_of_sending {pt : Point} {call : Call} (h : b ∈ pt.sending call) :
    pt.inSend = true ∧ pt.sending call = [b] := by
  cases pt with
  | send c x | putBack c x =>
    refine ⟨rfl, ?_⟩
    simp only [Point.sending] at h ⊢
    split at h
    · rw [if_pos ‹_›, List.mem_singleton.1 h]
    · simp at h
  | _ => simp [Point.sending] at h

lemma Accounted.held_or_sending (h : Accounted size s) (hb : Issued size b) :
    (∃ p ∈ places b.pool, HeldAt s.board b p) ∨
      s.point.inSend = true ∧ ∃ call, s.point.sending call = [b] ∧ HeldAt s.board b (.sending call) := by
  obtain ⟨p, hplace | ⟨call, rfl, -⟩, hp⟩ := h.held b hb
  · exact Or.inl ⟨p, hplace, hp⟩
  · obtain ⟨hin, hsend⟩ := inSend_of_sending hp.mem
    exact Or.inr ⟨hin, call, hsend, hp⟩

/-- **Conservation and order.** In every run of the loop and the callbacks each header stays in one
place, and none is overtaken. -/
theorem conserved (h : run step (start size) es = .ok (os, s)) : Conserved size os s := by
  have hacc : Accounted size s := inv_run (accounted_invariant size) (start_accounted size) h
  have hkept : Invariant step fun _ => True := fun _ _ _ _ _ _ => trivial
  refine ⟨fun b => hacc.held_or_sending, fun hout b hb => ?_, hacc.issued, ?_, ?_⟩
  · rcases hacc.held_or_sending hb with hplace | ⟨hin, -⟩
    · exact hplace
    · simp [hout] at hin
  · exact pipeline_run hkept (fun _ _ _ _ _ hst => (step_between hst).1) trivial h
  · exact pipeline_run hkept (fun _ _ _ _ _ hst => (step_between hst).2) trivial h

end Runs

/-- A frame comes back, an event comes in while a buffer is in hand, and the encoder refuses the
frame. -/
def refusedFrame : List Event :=
  [.loop false .success, .loop false .success, .loop false .success, .loop false .success,
    .callback .videoPort ⟨.encoderIn, 0⟩ 0, .loop false .success, .loop false .success,
    .loop false .success, .callback .encoderInput ⟨.encoderEvents, 0⟩ 1, .loop false .success,
    .loop false .success, .loop false .success, .loop false .einval, .loop false .success]

theorem conserved_refusedFrame :
    ∃ os s, run step (start fun _ => 1) refusedFrame = .ok (os, s) ∧ s.point = .left .einval ∧
      Conserved (fun _ => 1) os s := by
  obtain ⟨os, s, h, hpt⟩ : ∃ os s, run step (start fun _ => 1) refusedFrame = .ok (os, s) ∧
      s.point = .left .einval := ⟨_, _, rfl, rfl⟩
  exact ⟨os, s, h, hpt, conserved h⟩

end RcControl.Recorder
