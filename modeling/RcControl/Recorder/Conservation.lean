import RcControl.Lib.Custody
import RcControl.Recorder.Loop
import Mathlib.Data.List.Nodup

/-!
# No header is lost

Each header is in one place. The loop and the callbacks move a header at a time, each along the route
of its pool, so the headers of `pool_encoder_in` and of `pool_encoder_out` are kept apart, and each is
always in one of four places, or in the hand of `send_buffer_from_queue`.
-/

namespace RcControl.Recorder

open Mmal Lib Lib.Run Lib.Custody

/-! ### Places -/

/-- Where a header can be. -/
inductive Place where
  | pool (p : PoolId)
  | port (p : PortId)
  | queueEncoderIn
  | queueEncoderOut
  /-- In the loop body, from the queue to its release. -/
  | processing
  /-- In `send_buffer_from_queue`, from the queue to the port or back. -/
  | sending (call : Call)
  deriving DecidableEq

/-- The places of the headers of a pool. -/
def places : PoolId → List Place
  | .encoderIn => [.pool .encoderIn, .port .videoPort, .queueEncoderIn, .port .encoderInput]
  | .encoderOut => [.pool .encoderOut, .port .encoderOutput, .queueEncoderOut, .processing]
  | p => [.pool p]

/-- The pool whose headers a call sends. -/
def Call.pool : Call → PoolId
  | .fillVideo | .forward => .encoderIn
  | .fillEncoder => .encoderOut

/-- The pool whose headers are sent to a port. -/
def PortId.pool : PortId → PoolId
  | .videoPort | .encoderInput => .encoderIn
  | .encoderOutput => .encoderOut

/-- The place of the queue a call takes from. -/
def Call.source : Call → Place
  | .fillVideo => .pool .encoderIn
  | .fillEncoder => .pool .encoderOut
  | .forward => .queueEncoderIn

def Route (b : Header) (p : Place) : Prop :=
  p ∈ places b.pool ∨ ∃ call : Call, p = .sending call ∧ call.pool = b.pool

/-- What the call has in hand. -/
def Point.sending : Point → Call → List Header
  | .send call buffer, c | .putBack call buffer _, c => if call = c then [buffer] else []
  | _, _ => []

/-- What the loop body has in hand. -/
def Point.processing : Point → List Header
  | .process buffer | .release buffer => [buffer]
  | _ => []

/-- What is where. -/
def board (s : Recorder) : Place → List Header
  | .pool p => s.pool p
  | .port p => s.held p
  | .queueEncoderIn => s.queueEncoderIn
  | .queueEncoderOut => s.queueEncoderOut
  | .processing => s.point.processing
  | .sending call => s.point.sending call

/-- A header that was there at the start. -/
def Issued (size : PoolId → ℕ) (b : Header) : Prop := b.nth < size b.pool

/-- The invariant. -/
def Accounted (size : PoolId → ℕ) (s : Recorder) : Prop := Keeps (Issued size) Route s.board

section Board

variable (s : Recorder)

lemma board_setPool (p : PoolId) (q : Queue Header) :
    (s.setPool p q).board = Function.update s.board (.pool p) q := by
  funext r
  cases r with
  | pool p' => by_cases h : p' = p <;> simp [board, setPool, h]
  | _ => simp [board, setPool]

lemma board_setHeld (p : PortId) (l : List Header) :
    (s.setHeld p l).board = Function.update s.board (.port p) l := by
  funext r
  cases r with
  | port p' => by_cases h : p' = p <;> simp [board, setHeld, h]
  | _ => simp [board, setHeld]

lemma board_queueEncoderIn (q : Queue Header) :
    ({ s with queueEncoderIn := q } : Recorder).board = Function.update s.board .queueEncoderIn q := by
  funext r
  cases r <;> simp [board]

lemma board_queueEncoderOut (q : Queue Header) :
    ({ s with queueEncoderOut := q } : Recorder).board =
      Function.update s.board .queueEncoderOut q := by
  funext r
  cases r <;> simp [board]

lemma board_setSource (call : Call) (q : Queue Header) :
    (s.setSource call q).board = Function.update s.board call.source q := by
  cases call with
  | fillVideo => exact board_setPool s _ q
  | fillEncoder => exact board_setPool s _ q
  | forward => exact board_queueEncoderIn s q

lemma board_source (call : Call) : s.board call.source = s.source call := by
  cases call <;> rfl

/-- The point shows in two kinds of places. -/
lemma board_point (pt : Point) (r : Place) :
    ({ s with point := pt } : Recorder).board r =
      match r with
      | .processing => pt.processing
      | .sending call => pt.sending call
      | _ => s.board r := by
  cases r <;> rfl

end Board

/-! ### What the loop moves -/

section Moves

variable {size : PoolId → ℕ} {s : Recorder} {call : Call} {b : Header} {q : Queue Header}
  {status : Status} {pt : Point}

lemma source_ne_sending (call c : Call) : call.source ≠ .sending c := by
  cases call <;> simp [Call.source]

lemma source_ne_processing (call : Call) : call.source ≠ .processing := by
  cases call <;> simp [Call.source]

/-- Nothing moves when the loop goes on with the same in hand. -/
lemma board_stay (hp : pt.processing = s.point.processing) (hs : pt.sending = s.point.sending) :
    ({ s with point := pt } : Recorder).board = s.board := by
  funext r
  rw [board_point]
  cases r <;> simp [board, hp, hs]

lemma board_get (hpt : s.point = .get call) :
    ({ s.setSource call q with point := .send call b } : Recorder).board =
      Function.update (Function.update s.board call.source q) (.sending call) [b] := by
  funext r
  rw [board_point, board_setSource]
  cases r with
  | processing => simp [source_ne_processing call |>.symm, board, hpt, Point.processing]
  | sending c =>
    by_cases hc : call = c
    · simp [hc, Point.sending]
    · simp [hc, Ne.symm hc, (source_ne_sending call c).symm, board, hpt, Point.sending]
  | _ => simp

lemma board_send (hpt : s.point = .send call b) (l : List Header) :
    ({ s.setHeld call.port l with point := afterSend call } : Recorder).board =
      Function.update (Function.update s.board (.sending call) []) (.port call.port) l := by
  funext r
  rw [board_point, board_setHeld]
  cases r with
  | processing => cases call <;> simp [board, hpt, Point.processing, afterSend, afterCall]
  | sending c =>
    by_cases hc : call = c
    · cases call <;> simp [← hc, Point.sending, afterSend, afterCall]
    · cases call <;> simp [hc, Ne.symm hc, board, hpt, Point.sending, afterSend, afterCall]
  | port p => by_cases hp : p = call.port <;> simp [hp]
  | _ => simp

lemma board_putBack (hpt : s.point = .putBack call b status) :
    ({ s.setSource call q with point := .left status } : Recorder).board =
      Function.update (Function.update s.board (.sending call) []) call.source q := by
  funext r
  rw [board_point, board_setSource]
  cases r with
  | processing => simp [source_ne_processing call |>.symm, board, hpt, Point.processing]
  | sending c =>
    by_cases hc : call = c
    · simp [← hc, (source_ne_sending call call).symm, Point.sending]
    · simp [hc, Ne.symm hc, (source_ne_sending call c).symm, board, hpt, Point.sending]
  | _ => cases call <;> simp [Call.source, Function.update_apply]

lemma board_take (hpt : s.point = .take) :
    ({ s with queueEncoderOut := q, point := .process b } : Recorder).board =
      Function.update (Function.update s.board .queueEncoderOut q) .processing [b] := by
  funext r
  cases r <;> simp [board, hpt, Point.sending, Point.processing]

lemma board_release (hpt : s.point = .release b) :
    ({ s.bufferHeaderRelease b with point := .change } : Recorder).board =
      Function.update (Function.update s.board .processing []) (.pool b.pool)
        ((s.pool b.pool).put b) := by
  funext r
  rw [board_point, bufferHeaderRelease, board_setPool]
  cases r with
  | sending c => simp [board, hpt, Point.sending]
  | pool p => by_cases hp : p = b.pool <;> simp [hp]
  | _ => simp [Point.processing]

/-! ### One step keeps custody -/

/-- What a call has in hand is of the pool of the call. -/
lemma pool_of_sending (h : Accounted size s) (hb : b ∈ s.point.sending call) : b.pool = call.pool := by
  rcases h.on_route (p := .sending call) hb with hplace | ⟨c, hc, hpool⟩
  · cases hp : b.pool <;> simp [places, hp] at hplace
  · rw [Place.sending.injEq] at hc
    exact hc ▸ hpool.symm

lemma route_source (call : Call) (hb : b.pool = call.pool) : Route b call.source := by
  cases call <;> exact Or.inl (by simp [places, hb, Call.pool, Call.source])

lemma route_port (call : Call) (hb : b.pool = call.pool) : Route b (.port call.port) := by
  cases call <;> exact Or.inl (by simp [places, hb, Call.pool, Call.port])

lemma route_pool (b : Header) : Route b (.pool b.pool) := by
  refine Or.inl ?_
  cases b.pool <;> simp [places]

/-- What is in the queue a call takes from is of the pool of the call. -/
lemma pool_of_source (h : Accounted size s) (hb : b ∈ s.source call) : b.pool = call.pool := by
  rw [← board_source] at hb
  rcases h.on_route hb with hplace | ⟨c, hc, -⟩
  · cases hp : b.pool <;> cases call <;> simp_all [places, Call.source, Call.pool]
  · exact absurd hc (source_ne_sending call c)

/-- The loop goes on with the same in hand. -/
lemma accounted_stay (h : Accounted size s) (hp : pt.processing = s.point.processing)
    (hs : pt.sending = s.point.sending) : Accounted size ({ s with point := pt } : Recorder) := by
  apply h.perm
  intro r
  rw [board_stay hp hs]

lemma loopStep_get (h : Accounted size s) (hpt : s.point = .get call) :
    Accounted size (takeFromQueue s call) := by
  unfold takeFromQueue
  rcases hq : (s.source call).get with _ | ⟨b, q⟩
  · exact accounted_stay h (by cases call <;> simp [hpt, afterSend, afterCall, Point.processing])
      (by funext c; cases call <;> simp [hpt, afterSend, afterCall, Point.sending])
  · rw [Queue.get_eq_some] at hq
    refine Keeps.moves h (t := b) (p := call.source) (q := .sending call) ?_ ?_
    · show Moves _ (Recorder.board { s.setSource call q with point := .send call b }) _ _ _
      rw [board_get hpt]
      refine moves_update (source_ne_sending call call) ?_ ?_
      · rw [board_source, hq]
      · simp [board, hpt, Point.sending]
    · exact Or.inr ⟨call, rfl, (pool_of_source h (hq ▸ List.mem_cons_self)).symm⟩

lemma loopStep_send (h : Accounted size s) (hpt : s.point = .send call b) (status : Status) :
    Accounted size (sendToPort s call b status).2 := by
  have hin : s.board (.sending call) = [b] := by simp [board, hpt, Point.sending]
  unfold sendToPort
  split
  · refine Keeps.moves h (t := b) (p := .sending call) (q := .port call.port) ?_
      (route_port call (pool_of_sending h (by simp [hpt, Point.sending])))
    show Moves _ (Recorder.board { s.setHeld call.port _ with point := afterSend call }) _ _ _
    rw [board_send hpt]
    refine moves_update (by simp) (by rw [hin]) ?_
    exact List.perm_append_singleton b _
  · exact accounted_stay h (by simp [hpt, Point.processing]) (by funext c; simp [hpt, Point.sending])

lemma loopStep_putBack (h : Accounted size s) (hpt : s.point = .putBack call b status) :
    Accounted size { s.setSource call ((s.source call).putBack b) with point := .left status } := by
  have hin : s.board (.sending call) = [b] := by simp [board, hpt, Point.sending]
  refine Keeps.moves h (t := b) (p := .sending call) (q := call.source) ?_
    (route_source call (pool_of_sending h (by simp [hpt, Point.sending])))
  rw [board_putBack hpt]
  refine moves_update (source_ne_sending call call).symm (by rw [hin]) ?_
  rw [board_source]
  exact List.Perm.refl _

lemma loopStep_take (h : Accounted size s) (hpt : s.point = .take)
    (hq : s.queueEncoderOut = b :: q) :
    Accounted size { s with queueEncoderOut := q, point := .process b } := by
  have hb : b ∈ s.board .queueEncoderOut := by
    show b ∈ s.queueEncoderOut
    rw [hq]
    exact List.mem_cons_self
  refine Keeps.moves h (t := b) (p := .queueEncoderOut) (q := .processing) ?_ ?_
  · rw [board_take hpt]
    apply moves_update (by simp)
    · exact List.Perm.of_eq hq
    · simp [board, hpt, Point.processing]
  · rcases h.on_route hb with hplace | ⟨c, hc, -⟩
    · exact Or.inl (by cases hp : b.pool <;> simp_all [places])
    · simp at hc

lemma loopStep_release (h : Accounted size s) (hpt : s.point = .release b) :
    Accounted size { s.bufferHeaderRelease b with point := .change } := by
  refine Keeps.moves h (t := b) (p := .processing) (q := .pool b.pool) ?_ (route_pool b)
  rw [board_release hpt]
  apply moves_update (by simp)
  · simp [board, hpt, Point.processing]
  · exact List.perm_append_singleton b _

/-- **The loop keeps custody.** -/
theorem loopStep_accounted (h : Accounted size s) (stop : Bool) (status : Status) :
    Accounted size (s.loopStep stop status).2 := by
  unfold loopStep
  cases hpt : s.point with
  | wait =>
    cases stop
    all_goals
      exact accounted_stay h (by simp [hpt, Point.processing]) (by funext c; simp [hpt, Point.sending])
  | fill call =>
    dsimp only
    split
    all_goals
      exact accounted_stay h (by cases call <;> simp [hpt, Point.processing, afterCall])
        (by funext c; cases call <;> simp [hpt, Point.sending, afterCall])
  | get call => exact loopStep_get h hpt
  | send call b => exact loopStep_send h hpt status
  | putBack call b status => exact loopStep_putBack h hpt
  | take =>
    rcases hq : s.queueEncoderOut.get with _ | ⟨b, q⟩
    · exact accounted_stay h (by simp [hpt, Point.processing]) (by funext c; simp [hpt, Point.sending])
    · exact loopStep_take h hpt (Queue.get_eq_some.1 hq)
  | process b =>
    exact accounted_stay h (by simp [hpt, Point.processing]) (by funext c; simp [hpt, Point.sending])
  | release b => exact loopStep_release h hpt
  | change =>
    exact accounted_stay h (by simp [hpt, Point.processing]) (by funext c; simp [hpt, Point.sending])
  | left status => exact h

end Moves

/-! ### What a callback moves -/

section Callback

variable {size : PoolId → ℕ} {s s' : Recorder} {port : PortId} {b : Header} {cmd : BitVec 32}

/-- What a port holds is of the pool of the port. -/
lemma pool_of_held (h : Accounted size s) (hb : b ∈ s.held port) :
    b.pool = port.pool := by
  rcases h.on_route (p := .port port) hb with hplace | ⟨c, hc, -⟩
  · cases hp : b.pool <;> cases port <;> simp_all [places, PortId.pool]
  · simp at hc

/-- A callback takes the header to its pool, unless it is a frame. -/
lemma portCb_cases (s : Recorder) (port : PortId) (b : Header) (cmd : BitVec 32) :
    (s.portCb port b cmd = ([], s.bufferHeaderRelease b) ∧ (port = .encoderInput ∨ cmd ≠ 0)) ∨
    (cmd = 0 ∧ port = .videoPort ∧ s.portCb port b cmd =
      ([.returned port b], { s with queueEncoderIn := s.queueEncoderIn.put b })) ∨
    (cmd = 0 ∧ port = .encoderOutput ∧ s.portCb port b cmd =
      ([.returned port b], { s with queueEncoderOut := s.queueEncoderOut.put b })) := by
  by_cases hcmd : cmd = 0
  · cases port with
    | videoPort => exact Or.inr (Or.inl ⟨hcmd, rfl, by simp [portCb, genericOutputPortCb, hcmd]⟩)
    | encoderInput => exact Or.inl ⟨rfl, Or.inl rfl⟩
    | encoderOutput => exact Or.inr (Or.inr ⟨hcmd, rfl, by simp [portCb, genericOutputPortCb, hcmd]⟩)
  · refine Or.inl ⟨?_, Or.inr hcmd⟩
    cases port with
    | encoderInput => rfl
    | _ => exact if_pos hcmd

/-- What a port hands back it held, or it is an event that goes round in its own pool. -/
lemma handBack_cases (h : s.handBack port b cmd = .ok s') :
    (b ∈ s.held port ∧ s' = s.setHeld port ((s.held port).erase b)) ∨
    (cmd ≠ 0 ∧ ∃ q, s.pool port.eventPool = b :: q ∧ s' = s.setPool port.eventPool q) := by
  unfold handBack at h
  split at h
  · exact Or.inl ⟨‹_›, (Except.ok.inj h).symm⟩
  · rcases hq : (s.pool port.eventPool).get with _ | ⟨event, q⟩
    · simp [hq] at h
    · simp only [hq] at h
      split at h
      · obtain ⟨rfl, hcmd⟩ : event = b ∧ cmd ≠ 0 := ‹_›
        exact Or.inr ⟨hcmd, q, Queue.get_eq_some.1 hq, (Except.ok.inj h).symm⟩
      · simp at h

/-- From the port to where the callback puts it. -/
lemma callback_moves {r : Place} {l : List Header} (hb : b ∈ s.held port) (hr : Place.port port ≠ r)
    (hl : l.Perm (b :: s.board r)) :
    Moves s.board (Function.update (s.setHeld port ((s.held port).erase b)).board r l) b (.port port) r := by
  rw [board_setHeld]
  exact moves_update hr (List.perm_cons_erase hb) hl

lemma callback_held (h : Accounted size s) (hb : b ∈ s.held port) (cmd : BitVec 32) :
    Accounted size ((s.setHeld port ((s.held port).erase b)).portCb port b cmd).2 := by
  have hpool := pool_of_held h hb
  rcases portCb_cases (s.setHeld port ((s.held port).erase b)) port b cmd with
    ⟨heq, -⟩ | ⟨hcmd, hport, heq⟩ | ⟨hcmd, hport, heq⟩
  · rw [heq]
    refine Keeps.moves h (t := b) (p := .port port) (q := .pool b.pool) ?_ (route_pool b)
    show Moves _ (Recorder.board (Recorder.setPool _ _ _)) _ _ _
    rw [board_setPool]
    exact callback_moves hb (by simp) (List.perm_append_singleton b _)
  · subst hport
    refine Keeps.moves h (t := b) (p := .port .videoPort) (q := .queueEncoderIn) ?_
      (Or.inl (by simp [places, hpool, PortId.pool]))
    rw [heq, board_queueEncoderIn (s.setHeld .videoPort ((s.held .videoPort).erase b))]
    exact callback_moves (r := .queueEncoderIn) hb (by simp) (List.perm_append_singleton b _)
  · subst hport
    refine Keeps.moves h (t := b) (p := .port .encoderOutput) (q := .queueEncoderOut) ?_
      (Or.inl (by simp [places, hpool, PortId.pool]))
    rw [heq, board_queueEncoderOut (s.setHeld .encoderOutput ((s.held .encoderOutput).erase b))]
    exact callback_moves (r := .queueEncoderOut) hb (by simp) (List.perm_append_singleton b _)

/-- An event header leaves its pool and is released to it. -/
lemma callback_event {q : Queue Header} (h : Accounted size s) (hcmd : cmd ≠ 0)
    (hq : s.pool port.eventPool = b :: q) :
    Accounted size ((s.setPool port.eventPool q).portCb port b cmd).2 := by
  have hpool : b.pool = port.eventPool := by
    rcases h.on_route (p := .pool port.eventPool) (hq ▸ List.mem_cons_self) with hplace | ⟨c, hc, -⟩
    · cases hp : b.pool <;> cases port <;> simp_all [places, PortId.eventPool]
    · simp at hc
  rcases portCb_cases (s.setPool port.eventPool q) port b cmd with
    ⟨heq, -⟩ | ⟨hzero, -⟩ | ⟨hzero, -⟩
  · rw [heq]
    apply h.perm
    intro r
    show (Recorder.board (Recorder.setPool _ _ _) r).Perm _
    rw [board_setPool, board_setPool, hpool]
    by_cases hr : r = .pool port.eventPool
    · subst hr
      rw [Function.update_self]
      show (((s.setPool port.eventPool q).pool port.eventPool).put b).Perm (s.pool port.eventPool)
      rw [hq, setPool]
      simp only [Function.update_self]
      exact List.perm_append_singleton b q
    · rw [Function.update_of_ne hr, Function.update_of_ne hr]
  · exact absurd hzero hcmd
  · exact absurd hzero hcmd

/-- **A callback keeps custody.** -/
theorem callback_accounted (h : Accounted size s) (hback : s.handBack port b cmd = .ok s') :
    Accounted size (s'.portCb port b cmd).2 := by
  rcases handBack_cases hback with ⟨hb, rfl⟩ | ⟨hcmd, q, hq, rfl⟩
  · exact callback_held h hb cmd
  · exact callback_event h hcmd hq

end Callback

theorem start_accounted (size : PoolId → ℕ) : Accounted size (start size) := by
  have hmem : ∀ b : Header, b ∈ (start size).board (.pool b.pool) ↔ Issued size b := by
    intro b
    simp only [board, start, List.mem_map, List.mem_range, Issued]
    constructor
    · rintro ⟨n, hn, hb⟩
      exact hb ▸ hn
    · intro hn
      exact ⟨b.nth, hn, rfl⟩
  have hpool : ∀ p, ∀ b ∈ (start size).board p, p = .pool b.pool := by
    intro p b hb
    cases p with
    | pool p =>
      simp only [board, start, List.mem_map] at hb
      obtain ⟨n, -, rfl⟩ := hb
      rfl
    | _ => simp [board, start, Point.sending, Point.processing] at hb
  refine ⟨fun b hb => ⟨.pool b.pool, route_pool b, ?_, fun p hne hmem => hne (hpool p b hmem)⟩,
    fun p b hb => (hmem b).1 (hpool p b hb ▸ hb)⟩
  refine List.count_eq_one_of_mem ?_ ((hmem b).2 hb)
  exact List.nodup_range.map fun m n h => (Header.mk.inj h).2

/-- One step keeps custody. -/
theorem accounted_invariant (size : PoolId → ℕ) : Invariant step (Accounted size) := by
  intro s e o s' h hst
  cases e with
  | loop stop status =>
    obtain rfl : (s.loopStep stop status).2 = s' := congrArg Prod.snd (Except.ok.inj hst)
    exact loopStep_accounted h stop status
  | callback port b cmd =>
    simp only [step] at hst
    split at hst
    · simp at hst
    · obtain rfl := congrArg Prod.snd (Except.ok.inj hst)
      exact callback_accounted h ‹_›

end RcControl.Recorder
