import RcControl.Recorder.Flow

/-!
# The loop keeps up

`fill_port_from_pool` goes on as long as it finds headers in the pool, and the callbacks bring headers back
while it does, so a round of the loop may be of any length. Still nothing waits for ever: a header that is
filled was in its pool before, and to be there again it takes a callback, or the release of a buffer that
was shown. So the loop shows the buffers of the encoder, and passes on the frames of the camera, within a
number of calls that the callbacks alone can put off (`keeps_up`).
-/

namespace RcControl.Recorder

open Mmal Lib Lib.Run Lib.Custody

/-- Nobody has set `*stop`, and the ports take what they are sent. -/
def GoesOn : Event → Prop
  | .loop stop status => stop = false ∧ status = .success
  | .callback .. => True

instance : DecidablePred GoesOn
  | .loop .. => inferInstanceAs (Decidable (_ ∧ _))
  | .callback .. => inferInstanceAs (Decidable True)

def Event.isLoop : Event → Bool
  | .loop .. => true
  | .callback .. => false

def Event.isCallback (e : Event) : Bool := !e.isLoop

/-- The headers that can be filled. -/
def stock (s : Recorder) : ℕ := (s.pool .encoderIn).length + (s.pool .encoderOut).length

/-- Where the loop is in its rounds. -/
def Point.inRound : Point → Prop
  | .fill .forward | .putBack .. | .left _ => False
  | _ => True

/-- The loop is in its rounds. Nobody else takes from the pools it fills from, so it finds there what it has
seen. -/
structure Going (s : Recorder) : Prop where
  inRound : s.point.inRound
  found : ∀ call, s.point = .get call → call ≠ .forward → s.source call ≠ []

/-- The calls up to and with the next one of the streaming callback, if there is nothing to fill. -/
def toShow : Point → ℕ
  | .process _ => 1
  | .take => 2
  | .send .forward _ => 3
  | .get .forward | .get .fillEncoder => 4
  | .fill .fillEncoder | .get .fillVideo => 5
  | .fill _ | .send .fillEncoder _ => 6
  | .wait | .send .fillVideo _ => 7
  | .change => 8
  | .release _ => 12
  | .putBack .. | .left _ => 0

/-- The calls up to and with the next send to the encoder. -/
def toForward : Point → ℕ
  | .send .forward _ => 1
  | .get .forward | .get .fillEncoder => 2
  | .fill .fillEncoder | .get .fillVideo => 3
  | .fill _ | .send .fillEncoder _ => 4
  | .wait | .send .fillVideo _ => 5
  | .change => 6
  | .release _ => 10
  | .process _ => 11
  | .take => 12
  | .putBack .. | .left _ => 0

lemma toShow_le (pt : Point) : toShow pt ≤ 12 := by
  unfold toShow
  split <;> omega

lemma toForward_le (pt : Point) : toForward pt ≤ 12 := by
  unfold toForward
  split <;> omega

/-- What a callback may bring to fill, in calls of the loop. -/
def brings : Event → ℕ
  | .loop .. => 0
  | .callback .. => 3

lemma sum_brings (es : List Event) : (es.map brings).sum = 3 * es.countP Event.isCallback := by
  induction es with
  | nil => rfl
  | cons e es ih =>
    rw [List.map_cons, List.sum_cons, ih, List.countP_cons]
    cases e with
    | loop stop status => simp [brings, Event.isCallback, Event.isLoop]
    | callback port b cmd => simp [brings, Event.isCallback, Event.isLoop, Nat.mul_add, Nat.add_comm]

/-! ### One step -/

section Step

variable {s s' : Recorder} {e : Event} {o : List Note}

lemma stock_bufferHeaderRelease (s : Recorder) (b : Header) :
    (s.bufferHeaderRelease b).stock ≤ s.stock + 1 := by
  unfold stock bufferHeaderRelease setPool Queue.put
  cases b.pool <;> simp <;> omega

lemma stock_handBack {port : PortId} {b : Header} {cmd : BitVec 32}
    (h : s.handBack port b cmd = .ok s') :
    s'.stock = s.stock ∧ s'.point = s.point ∧ ∀ call, s'.source call = s.source call := by
  rcases handBack_cases h with ⟨-, rfl⟩ | ⟨-, q, -, rfl⟩
  · exact ⟨rfl, rfl, fun call => by cases call <;> rfl⟩
  · cases port <;>
      exact ⟨by simp [stock, setPool, PortId.eventPool], rfl,
        fun call => by cases call <;> simp [source, setPool, PortId.eventPool]⟩

/-- A callback adds to the queues. -/
lemma portCb_adds (s : Recorder) (port : PortId) (b : Header) (cmd : BitVec 32) :
    (s.portCb port b cmd).2.stock ≤ s.stock + 1 ∧ (s.portCb port b cmd).2.point = s.point ∧
      ∀ call, s.source call ≠ [] → (s.portCb port b cmd).2.source call ≠ [] := by
  have hput : ∀ q : Queue Header, q.put b ≠ [] := fun q => List.concat_ne_nil b q
  rcases portCb_cases s port b cmd with ⟨heq, -⟩ | ⟨-, rfl, heq⟩ | ⟨-, rfl, heq⟩
  · rw [heq]
    refine ⟨stock_bufferHeaderRelease s b, rfl, fun call hne => ?_⟩
    cases call with
    | forward => exact hne
    | fillVideo | fillEncoder =>
      simp only [source, bufferHeaderRelease, setPool, Function.update_apply] at hne ⊢
      split
      · exact hput _
      · exact hne
  · rw [heq]
    refine ⟨Nat.le_succ _, rfl, fun call hne => ?_⟩
    cases call with
    | forward => exact hput _
    | _ => exact hne
  · rw [heq]
    exact ⟨Nat.le_succ _, rfl, fun call hne => by cases call <;> exact hne⟩

/-- A callback may bring a header to fill. -/
lemma callback_pays {port : PortId} {b : Header} {cmd : BitVec 32} (h : Going s)
    (hs : step s (.callback port b cmd) = .ok (o, s')) :
    Going s' ∧ s'.point = s.point ∧ s'.stock ≤ s.stock + 1 := by
  simp only [step] at hs
  split at hs
  · cases hs
  · rename_i s₁ hback
    obtain ⟨-, rfl⟩ := Prod.mk.inj (Except.ok.inj hs)
    obtain ⟨hstock, hpoint, hsource⟩ := stock_handBack hback
    obtain ⟨hstock', hpoint', hsource'⟩ := portCb_adds s₁ port b cmd
    have hsame := hpoint'.trans hpoint
    refine ⟨⟨hsame ▸ h.inRound, fun call hget hcall => ?_⟩, hsame, hstock ▸ hstock'⟩
    exact hsource' call (hsource call ▸ h.found call (hsame ▸ hget) hcall)

/-- A turn of the loop, from one call to the next. -/
structure Turn (s : Recorder) (o : List Note) (s' : Recorder) : Prop where
  going : Going s'
  /-- It shows a buffer, or comes nearer to where it does, or takes a header to fill. -/
  shows : s.encoded ≠ [] →
    3 * s'.stock + toShow s'.point + 1 ≤ 3 * s.stock + toShow s.point + 12 * (seenIn o).length
  /-- The same of where it passes a frame on. -/
  forwards : s.frames ≠ [] →
    3 * s'.stock + toForward s'.point + 1 ≤
      3 * s.stock + toForward s.point + 12 * (sentTo .encoderInput o).length

/-- With the same to fill, and nothing that it has to find. -/
lemma turn_stay {pt : Point} (hin : pt.inRound)
    (hget : ∀ call, pt = .get call → call ≠ .forward → s.source call ≠ [])
    (hshow : s.encoded ≠ [] → toShow pt + 1 ≤ toShow s.point)
    (hforward : s.frames ≠ [] → toForward pt + 1 ≤ toForward s.point) :
    Turn s [] { s with point := pt } where
  going := ⟨hin, fun call h hcall => by cases call <;> exact hget _ h hcall⟩
  shows hne := by have := hshow hne; simp only [stock]; omega
  forwards hne := by have := hforward hne; simp only [stock]; omega

/-- `send_buffer_from_queue` takes a header: one that it may fill, or a frame. -/
lemma turn_take {call : Call} {b : Header} {q : Queue Header} (hpt : s.point = .get call)
    (hq : s.source call = b :: q) :
    Turn s [] { s.setSource call q with point := .send call b } := by
  refine ⟨⟨by cases call <;> trivial, fun _ h => nomatch h⟩, fun _ => ?_, fun _ => ?_⟩
  · cases call <;> simp only [source] at hq <;>
      simp [stock, setSource, setPool, hpt, toShow, hq] <;> omega
  · cases call <;> simp only [source] at hq <;>
      simp [stock, setSource, setPool, hpt, toForward, hq] <;> omega

lemma turn_send {call : Call} {b : Header} (hpt : s.point = .send call b) :
    Turn s [.sent call.port b] { s.setHeld call.port (s.held call.port ++ [b]) with
      point := afterSend call } := by
  refine ⟨⟨by cases call <;> trivial, by cases call <;> simp [afterSend, afterCall]⟩, fun _ => ?_, fun _ => ?_⟩
  · cases call <;> simp [stock, setHeld, hpt, toShow, afterSend, afterCall, seenIn]
  · cases call <;> simp [stock, setHeld, hpt, toForward, afterSend, afterCall, sentTo, Call.port]

theorem turn_of_going (h : Going s) :
    Turn s (s.loopStep false .success).1 (s.loopStep false .success).2 := by
  have hin := h.inRound
  unfold loopStep
  cases hpt : s.point with
  | wait => exact turn_stay trivial (by simp) (by simp [hpt, toShow]) (by simp [hpt, toForward])
  | fill call =>
    rw [hpt] at hin
    dsimp only
    split
    · rename_i hlength
      refine turn_stay trivial (fun c hc _ => Point.get.inj hc ▸ List.ne_nil_of_length_pos hlength) ?_ ?_
      · cases call <;> simp_all [toShow, Point.inRound]
      · cases call <;> simp_all [toForward, Point.inRound]
    · cases call with
      | forward => exact hin.elim
      | fillVideo =>
        exact turn_stay trivial (by simp [afterCall]) (by simp [hpt, toShow, afterCall])
          (by simp [hpt, toForward, afterCall])
      | fillEncoder =>
        exact turn_stay trivial (by simp [afterCall]) (by simp [hpt, toShow, afterCall])
          (by simp [hpt, toForward, afterCall])
  | get call =>
    simp only [takeFromQueue]
    rcases hq : (s.source call).get with _ | ⟨b, q⟩
    · have hempty : s.source call = [] := by
        cases hs : s.source call with
        | nil => rfl
        | cons b q => simp [hs, Queue.get] at hq
      cases call with
      | forward =>
        refine turn_stay trivial (by simp [afterSend, afterCall]) (by simp [hpt, toShow, afterSend, afterCall])
          fun hne => absurd ?_ hne
        simpa [frames, hpt, Point.sending, source] using hempty
      | _ => exact absurd hempty (h.found _ hpt (by simp))
    · exact turn_take hpt (Queue.get_eq_some.1 hq)
  | send call b => exact turn_send hpt
  | putBack call b status => exact (hpt ▸ hin).elim
  | take =>
    rcases hq : s.queueEncoderOut.get with _ | ⟨b, q⟩
    · refine turn_stay trivial (by simp) (fun hne => absurd ?_ hne) (by simp [hpt, toForward])
      cases hs : s.queueEncoderOut with
      | nil => simp [encoded, hpt, Point.unseen, hs]
      | cons b q => simp [hs, Queue.get] at hq
    · refine ⟨⟨trivial, by simp⟩, fun _ => ?_, fun _ => ?_⟩
      · simp [stock, hpt, toShow]
      · simp [stock, hpt, toForward]
  | process b =>
    refine ⟨⟨trivial, by simp⟩, fun _ => ?_, fun _ => ?_⟩
    · simp [stock, hpt, toShow, seenIn]
    · simp [stock, hpt, toForward]
  | release b =>
    have hstock := stock_bufferHeaderRelease s b
    refine ⟨⟨trivial, by simp⟩, fun _ => ?_, fun _ => ?_⟩
    · simp only [hpt, toShow]
      change 3 * (s.bufferHeaderRelease b).stock + 8 + 1 ≤ _
      omega
    · simp only [hpt, toForward]
      change 3 * (s.bufferHeaderRelease b).stock + 6 + 1 ≤ _
      omega
  | change => exact turn_stay trivial (by simp) (by simp [hpt, toShow]) (by simp [hpt, toForward])
  | left status => exact (hpt ▸ hin).elim

/-- What the turns of the loop pay for, and what the callbacks bring. -/
structure Pays (s : Recorder) (e : Event) (o : List Note) (s' : Recorder) : Prop where
  going : Going s'
  shows : s.encoded ≠ [] → 3 * s'.stock + toShow s'.point + (if e.isLoop then 1 else 0) ≤
    3 * s.stock + toShow s.point + brings e + 12 * (seenIn o).length
  forwards : s.frames ≠ [] → 3 * s'.stock + toForward s'.point + (if e.isLoop then 1 else 0) ≤
    3 * s.stock + toForward s.point + brings e + 12 * (sentTo .encoderInput o).length

theorem pays_of_step (h : Going s) (he : GoesOn e) (hs : step s e = .ok (o, s')) : Pays s e o s' := by
  cases e with
  | loop stop status =>
    obtain ⟨rfl, rfl⟩ := he
    obtain ⟨rfl, rfl⟩ := Prod.mk.inj (Except.ok.inj hs)
    have hturn := turn_of_going h
    exact ⟨hturn.going, hturn.shows, hturn.forwards⟩
  | callback port b cmd =>
    obtain ⟨hgoing, hpoint, hstock⟩ := callback_pays h hs
    refine ⟨hgoing, fun _ => ?_, fun _ => ?_⟩
    · rw [hpoint, if_neg (by simp [Event.isLoop]), brings]
      omega
    · rw [hpoint, if_neg (by simp [Event.isLoop]), brings]
      omega

end Step

/-! ### A whole run -/

section Run

variable {size : PoolId → ℕ} {es fs : List Event} {os ps : List (List Note)} {s t : Recorder}

lemma going_start (size : PoolId → ℕ) : Going (start size) := ⟨trivial, fun _ h => nomatch h⟩

lemma going_run (h : Going s) (hes : ∀ e ∈ es, GoesOn e) (hrun : run step s es = .ok (os, t)) : Going t :=
  inv_run_along (P := fun _ e => GoesOn e) (fun _ _ _ _ hI he hs => (pays_of_step hI he hs).going) h
    (along_of_inv_mem (I := fun _ => True) (fun _ _ _ _ _ _ => trivial) (fun e he _ _ => hes e he) trivial)
    hrun

/-- A pool has the headers it was made with, at most. -/
lemma stock_le (h : Accounted size s) : s.stock ≤ size .encoderIn + size .encoderOut := by
  have hpool : ∀ call : Call, (s.source call).Nodup ∧
      (s.source call) ⊆ (List.range (size call.pool)).map (Header.mk call.pool) := by
    intro call
    refine ⟨List.nodup_iff_count_le_one.2 fun b => ?_, fun b hb => ?_⟩
    · by_cases hb : b ∈ s.source call
      · rw [← board_source] at hb ⊢
        obtain ⟨place, -, hheld⟩ := h.held b (h.issued _ b hb)
        exact Nat.le_of_eq (hheld.eq_of_mem hb ▸ hheld.1)
      · exact List.count_eq_zero.2 hb ▸ Nat.zero_le 1
    · have hissued : Issued size b := by
        rw [← board_source] at hb
        exact h.issued _ b hb
      rw [← pool_of_source h hb]
      exact List.mem_map.2 ⟨b.nth, List.mem_range.2 hissued, rfl⟩
  have hlength : ∀ call : Call, (s.source call).length ≤ size call.pool := fun call => by
    have hle := (List.subperm_of_subset (hpool call).1 (hpool call).2).length_le
    simpa using hle
  exact Nat.add_le_add (hlength .fillVideo) (hlength .fillEncoder)

/-- **The loop keeps up.** As long as nobody stops it and the ports take what they are sent, the `k` buffers
that the encoder has returned first of those not yet shown are shown, and the `k` frames that come next are
sent to the encoder, in their order, within a number of calls of the loop to which each callback adds
three. -/
theorem keeps_up (h : run step (start size) es = .ok (os, s)) (h' : run step s fs = .ok (ps, t))
    (hgo : ∀ e ∈ es ++ fs, GoesOn e) {k : ℕ}
    (hk : 3 * (size .encoderIn + size .encoderOut + fs.countP Event.isCallback) + 12 * k <
      fs.countP Event.isLoop) :
    s.encoded.take k <+: ps.flatMap seenIn ∧ s.frames.take k <+: ps.flatMap (sentTo .encoderInput) := by
  obtain ⟨hes, hfs⟩ := List.forall_mem_append.1 hgo
  have hgoing : Going s := going_run (going_start size) hes h
  have hstock := stock_le (inv_run (accounted_invariant size) (start_accounted size) h)
  have hkept : ∀ s e o s', Going s → GoesOn e → step s e = .ok (o, s') → Going s' :=
    fun _ _ _ _ hI he hs => (pays_of_step hI he hs).going
  constructor
  · refine progress_run (μ := fun s => 3 * s.stock + toShow s.point) (w := 12) hkept
      (fun _ _ _ _ hs => (step_between hs).2)
      (fun _ _ _ _ hI he hne hs => (pays_of_step hI he hs).shows hne) hgoing hfs h' ?_
    have hle := toShow_le s.point
    rw [sum_brings]
    omega
  · refine progress_run (μ := fun s => 3 * s.stock + toForward s.point) (w := 12) hkept
      (fun _ _ _ _ hs => (step_between hs).1)
      (fun _ _ _ _ hI he hne hs => (pays_of_step hI he hs).forwards hne) hgoing hfs h' ?_
    have hle := toForward_le s.point
    rw [sum_brings]
    omega

/-- A buffer comes back from the encoder, and a frame from the camera while the buffer is waiting. -/
theorem keeps_up_oneBuffer : ∃ os s ps t,
    run step (start fun _ => 1) (List.replicate 8 (.loop false .success) ++
      [.callback .encoderOutput ⟨.encoderOut, 0⟩ 0]) = .ok (os, s) ∧
    run step s (.callback .videoPort ⟨.encoderIn, 0⟩ 0 :: List.replicate 22 (.loop false .success)) =
      .ok (ps, t) ∧
    [⟨.encoderOut, 0⟩] <+: ps.flatMap seenIn := by
  obtain ⟨os, s, ps, t, h, h', hb⟩ : ∃ os s ps t,
      run step (start fun _ => 1) (List.replicate 8 (.loop false .success) ++
        [.callback .encoderOutput ⟨.encoderOut, 0⟩ 0]) = .ok (os, s) ∧
      run step s (.callback .videoPort ⟨.encoderIn, 0⟩ 0 :: List.replicate 22 (.loop false .success)) =
        .ok (ps, t) ∧
      s.encoded.take 1 = [⟨.encoderOut, 0⟩] := ⟨_, _, _, _, rfl, rfl, rfl⟩
  refine ⟨os, s, ps, t, h, h', hb ▸ (keeps_up h h' ?_ ?_).1⟩
  · decide
  · decide

end Run

end RcControl.Recorder
