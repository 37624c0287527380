import RcControl.Lib.While
import RcControl.Mmal.Port
import RcControl.Recorder.Conservation

/-!
# Filling a port from its pool

`fill_port_from_pool` and `send_buffer_from_queue` of `video.cpp`, over the queue as it is linked, while
no port gives anything back. On lists this is `deliver`: headers go to the port until it refuses one,
and that one stays in front (`fillPortFromPool_deliver`). The main loop does the same from its own point
`fill` (`fill_agrees`), where each header is in one place; so the port has none that is in the queue.
-/

namespace RcControl.Recorder

open Mmal Lib Lib.Run

/-- What `send_buffer_from_queue` is given, and the links of the headers. -/
structure Supply (S α : Type) where
  port : S
  /-- `none` is the null pointer. -/
  queue : Option (LinkedQueue α)
  next : Links α

section Functions

variable {S α : Type} [DecidableEq α] (port : Sink S α)

/-- `send_buffer_from_queue`. -/
def sendBufferFromQueue (s : Supply S α) : Except QueueFault (Status × Supply S α) :=
  match s.queue with
  | none => .ok (.success, s)
  | some queue =>
    match queue.get s.next with
    | .error f => .error f
    | .ok (none, queue) => .ok (.success, { s with queue := some queue })
    | .ok (some buffer, queue) =>
      let (status, p) := port.answer s.port buffer
      let next := port.relink s.port buffer s.next
      if status ≠ .success then
        let (next, queue) := queue.putBack next buffer
        .ok (status, { port := p, queue := some queue, next := next })
      else .ok (status, { port := p, queue := some queue, next := next })

/-- `fill_port_from_pool`; `pool` says that the pointer is not null, and the queue of `s` is then
`pool->queue`. -/
def fillPortFromPool (pool : Bool) (fuel : ℕ) (s : Supply S α) :
    Option (Except QueueFault (Status × Supply S α)) :=
  if !pool then some (.ok (.success, s))
  else
    While.loop (fun (status, s) => status = .success ∧ 0 < LinkedQueue.queueLength s.queue)
      (fun (_, s) => sendBufferFromQueue port s) fuel (.success, s)

end Functions

/-! ### What it does to a list -/

section Lists

variable {S α : Type} (port : Sink S α)

/-- Headers go to the port until it refuses one. -/
def deliver : S → Queue α → Status × S × Queue α
  | p, [] => (.success, p, [])
  | p, b :: l =>
    if (port.answer p b).1 = .success then deliver (port.answer p b).2 l
    else ((port.answer p b).1, (port.answer p b).2, b :: l)

/-- Of these headers the port takes the first `k`, and refuses the next, if there is one, with `e`. -/
inductive Takes (e : Status) : S → Queue α → ℕ → Prop
  | all (p : S) : Takes e p [] 0
  | refused {p : S} {b : α} {l : Queue α} (h : (port.answer p b).1 = e) (he : e ≠ .success) :
      Takes e p (b :: l) 0
  | accepted {p : S} {b : α} {l : Queue α} {k : ℕ} (h : (port.answer p b).1 = .success)
      (ht : Takes e (port.answer p b).2 l k) : Takes e p (b :: l) (k + 1)

variable {port}

/-- Every port takes some of the headers, so what is said of a port that does is said of every port. -/
theorem exists_takes (p : S) (l : Queue α) : ∃ e k, Takes port e p l k := by
  induction l generalizing p with
  | nil => exact ⟨.success, 0, .all p⟩
  | cons b l ih =>
    by_cases h : (port.answer p b).1 = .success
    · obtain ⟨e, k, ht⟩ := ih (port.answer p b).2
      exact ⟨e, k + 1, .accepted h ht⟩
    · exact ⟨_, 0, .refused rfl h⟩

theorem deliver_of_takes {e : Status} {p : S} {l : Queue α} {k : ℕ} (h : Takes port e p l k) :
    ∃ p', deliver port p l = (if k < l.length then e else .success, p', l.drop k) ∧
      port.held p' = port.held p ++ l.take k := by
  induction h with
  | all p => exact ⟨p, rfl, (List.append_nil _).symm⟩
  | @refused p b l h he =>
    have hne : (port.answer p b).1 ≠ .success := h ▸ he
    refine ⟨(port.answer p b).2, ?_, ?_⟩
    · simp [deliver, h, he]
    · rw [port.held_answer, if_neg hne, List.take_zero, List.append_nil]
  | @accepted p b l k h _ ih =>
    obtain ⟨p', hdeliver, hheld⟩ := ih
    refine ⟨p', ?_, ?_⟩
    · simp [deliver, h, hdeliver]
    · rw [hheld, port.held_answer, if_pos h, List.take_succ_cons, List.append_assoc]
      rfl

end Lists

/-! ### The linked queue -/

section Linked

variable {S α : Type} {port : Sink S α} {s : Supply S α} {l : Queue α} {b : α}

/-- The queue holds the list, and the port, which may link what it holds, holds none of it. -/
structure Supplies (port : Sink S α) (s : Supply S α) (l : Queue α) : Prop where
  queue : ∃ q, s.queue = some q ∧ Holds s.next q l
  apart : ∀ b ∈ l, b ∉ port.held s.port

lemma queueLength_supply (h : Supplies port s l) :
    (LinkedQueue.queueLength s.queue).toNat = l.length := by
  obtain ⟨q, hq, hholds⟩ := h.queue
  rw [hq]
  exact hholds.length

variable [DecidableEq α]

/-- A round: the first header goes to the port, or comes back to the front. -/
lemma sendBufferFromQueue_cons (h : Supplies port s (b :: l)) :
    ∃ s', sendBufferFromQueue port s = .ok ((port.answer s.port b).1, s') ∧
      s'.port = (port.answer s.port b).2 ∧
      Supplies port s' (if (port.answer s.port b).1 = .success then l else b :: l) := by
  obtain ⟨q, hq, hholds⟩ := h.queue
  obtain ⟨q', hget, hholds'⟩ := holds_get hholds
  obtain ⟨hb, -⟩ := List.nodup_cons.1 (Links.linked_nodup hholds.linked)
  have hlt : (b :: l).length < 2 ^ 32 := hholds.length ▸ q.length.isLt
  -- the send leaves the links of what is still in the queue
  have hrelink : ∀ c ∈ l, port.relink s.port b s.next c = s.next c := fun c hc =>
    port.relink_eq s.port b s.next c (h.apart c (List.mem_cons_of_mem b hc)) fun hcb => hb (hcb ▸ hc)
  have hsent := holds_congr hrelink hholds'
  have hheld := port.held_answer s.port b
  unfold sendBufferFromQueue
  by_cases hstatus : (port.answer s.port b).1 = .success
  · simp only [hq, hget, hstatus, ne_eq, not_true_eq_false, if_false, if_true]
    refine ⟨_, rfl, rfl, ⟨q', rfl, hsent⟩, fun c hc => ?_⟩
    rw [hheld, if_pos hstatus, List.mem_append, List.mem_singleton]
    rintro (hmem | rfl)
    · exact h.apart c (List.mem_cons_of_mem b hc) hmem
    · exact hb hc
  · simp only [hq, hget, hstatus, ne_eq, not_false_eq_true, if_true, if_false]
    refine ⟨_, rfl, rfl, ⟨_, rfl, holds_putBack hsent hb hlt⟩, fun c hc => ?_⟩
    rw [hheld, if_neg hstatus]
    exact h.apart c hc

/-- What holds at each test of the `while`: what is still to deliver ends as the whole. -/
def Filling (port : Sink S α) (p : S) (l : Queue α) (t : Status × Supply S α) : Prop :=
  ∃ rest, Supplies port t.2 rest ∧
    deliver port p l = if t.1 = .success then deliver port t.2.port rest else (t.1, t.2.port, rest)

/-- What is left for the `while` to do. -/
def roundsLeft (t : Status × Supply S α) : ℕ :=
  if t.1 = .success then (LinkedQueue.queueLength t.2.queue).toNat else 0

lemma filling_round {p : S} {t : Status × Supply S α} (h : Filling port p l t)
    (htest : decide (t.1 = .success ∧ 0 < LinkedQueue.queueLength t.2.queue) = true) :
    ∃ t', sendBufferFromQueue port t.2 = .ok t' ∧ Filling port p l t' ∧ roundsLeft t' < roundsLeft t := by
  obtain ⟨hstatus, hlength⟩ := of_decide_eq_true htest
  obtain ⟨rest, hsupplies, hdeliver⟩ := h
  have hrest := queueLength_supply hsupplies
  rw [if_pos hstatus] at hdeliver
  rcases rest with _ | ⟨b, rest⟩
  · rw [List.length_nil] at hrest
    bv_omega
  · obtain ⟨s', hsend, hport, hsupplies'⟩ := sendBufferFromQueue_cons hsupplies
    have hrest' := queueLength_supply hsupplies'
    refine ⟨_, hsend, ⟨_, hsupplies', ?_⟩, ?_⟩
    · rw [hdeliver, deliver, hport]
      split <;> rfl
    · rw [roundsLeft, roundsLeft, if_pos hstatus, hrest, List.length_cons]
      split
      · rename_i hanswer
        rw [if_pos hanswer] at hrest'
        exact hrest' ▸ Nat.lt_succ_self _
      · exact Nat.succ_pos _

/-- **The fill does on the linked queue what `deliver` does on the list.** -/
theorem fillPortFromPool_deliver (h : Supplies port s l) :
    ∃ s', (∀ fuel, l.length < fuel →
        fillPortFromPool port true fuel s = some (.ok ((deliver port s.port l).1, s'))) ∧
      s'.port = (deliver port s.port l).2.1 ∧ Supplies port s' (deliver port s.port l).2.2 := by
  have hstart : Filling port s.port l (.success, s) := ⟨l, h, rfl⟩
  have hlength : roundsLeft (.success, s) = l.length := queueLength_supply h
  obtain ⟨⟨status, s'⟩, ⟨rest, hsupplies, hdeliver⟩, hend, hloop⟩ :=
    While.loop_total roundsLeft (fun _ ht htest => filling_round ht htest) hstart
  have hresult : deliver port s.port l = (status, s'.port, rest) := by
    by_cases hstatus : status = .success
    · -- the `while` is left with nothing in the queue
      have hrest : rest = [] := by
        have hzero := queueLength_supply hsupplies
        simp only [hstatus, true_and, decide_eq_false_iff_not] at hend
        exact List.length_eq_zero_iff.1 (by bv_omega)
      rw [hrest] at hdeliver ⊢
      rw [hdeliver, if_pos hstatus, hstatus, deliver]
    · rw [hdeliver, if_neg hstatus]
  refine ⟨s', fun fuel hfuel => ?_, ?_, ?_⟩
  · rw [hresult]
    exact hloop fuel (hlength ▸ hfuel)
  · rw [hresult]
  · rwa [hresult]

/-- **The fill is exact.** It ends within a test for each header and one more: the port has got the
first `k`, in the order of the queue, and the others are in the queue as they were, the refused one in
front. -/
theorem fillPortFromPool_exact {e : Status} {k : ℕ} (h : Supplies port s l)
    (ht : Takes port e s.port l k) :
    ∃ s', (∀ fuel, l.length < fuel → fillPortFromPool port true fuel s =
        some (.ok (if k < l.length then e else .success, s'))) ∧
      port.held s'.port = port.held s.port ++ l.take k ∧
      ∃ queue, s'.queue = some queue ∧ Holds s'.next queue (l.drop k) ∧ queue.first = l[k]? := by
  obtain ⟨p, hdeliver, hheld⟩ := deliver_of_takes ht
  obtain ⟨s', hfill, hport, hsupplies⟩ := fillPortFromPool_deliver h
  rw [hdeliver] at hfill hport hsupplies
  obtain ⟨queue, hqueue, hholds⟩ := hsupplies.queue
  refine ⟨s', hfill, ?_, queue, hqueue, hholds, ?_⟩
  · rw [hport, hheld]
  · rw [Links.linked_head hholds.linked, List.head?_drop]

end Linked

/-- A component with room for one buffer. -/
def oneSlot : Sink (List ℕ) ℕ where
  answer held b := if held = [] then (.success, held ++ [b]) else (.enospc, held)
  relink _ b next := Function.update next b none
  held held := held
  held_answer held b := by by_cases h : held = [] <;> simp [h]
  relink_eq _ _ _ _ _ hx := by rw [Function.update_of_ne hx]

/-- Its port, enabled. -/
def oneSlotPort : CorePort oneSlot where
  hasPriv := true
  hasSend := true
  capabilities := 0
  isOutput := true
  isEnabled := true
  isPaused := false
  queueFirst := none
  queueLast := none
  transitBufferHeaders := 0
  allocSize _ := 1024
  hasData _ := true
  length _ := 0
  component := []
  held := []
  held_component := by simp [oneSlot]
  held_last := by simp
  transit_eq := rfl

/-- Three headers for it. -/
def threeHeaders : Supply (CorePort oneSlot) ℕ where
  port := oneSlotPort
  queue := some { length := 3, first := some 0, last := some 2, semaphore := 3 }
  next
    | 0 => some 1
    | 1 => some 2
    | _ => none

theorem fillPortFromPool_exact_three :
    ∃ s', (∀ fuel, 3 < fuel → fillPortFromPool (portSendBuffer oneSlot) true fuel threeHeaders =
        some (.ok (.enospc, s'))) ∧
      s'.port.held = [0] ∧
      ∃ queue, s'.queue = some queue ∧ Holds s'.next queue [1, 2] ∧ queue.first = some 1 := by
  have hsupplies : Supplies (portSendBuffer oneSlot) threeHeaders [0, 1, 2] := by
    refine ⟨⟨_, rfl, ⟨rfl, rfl, rfl, rfl⟩, rfl, rfl, rfl⟩, fun b _ => ?_⟩
    exact List.not_mem_nil
  have htakes : Takes (portSendBuffer oneSlot) .enospc threeHeaders.port [0, 1, 2] 1 :=
    .accepted rfl (.refused rfl (by decide))
  exact fillPortFromPool_exact hsupplies htakes

/-! ### The loop of the recorder -/

section Loop

variable {size : PoolId → ℕ} {r : Recorder} {call : Call} {S : Type} {port : Sink S Header}
  {s : Supply S Header} {l : Queue Header}

/-- A header in the queue of a call is not at its port. -/
lemma notMem_held_of_mem_source (h : Accounted size r) {b : Header} (hb : b ∈ r.source call) :
    b ∉ r.held call.port := by
  intro hheld
  rw [← board_source] at hb
  obtain ⟨p, -, hp⟩ := h.held b (h.issued call.source b hb)
  have hsource : call.source = p := hp.eq_of_mem hb
  have hport : Place.port call.port = p := hp.eq_of_mem hheld
  cases call <;> cases hsource.trans hport.symm

/-- The events of the fill, where the port answers as `port` does. -/
def fillEvents (port : Sink S Header) : S → Queue Header → List Event
  | _, [] => [.loop false .success]
  | p, b :: l =>
    .loop false .success :: .loop false .success :: .loop false (port.answer p b).1 ::
      if (port.answer p b).1 = .success then fillEvents port (port.answer p b).2 l
      else [.loop false .success]

lemma source_point (r : Recorder) (pt : Point) (call : Call) :
    ({ r with point := pt } : Recorder).source call = r.source call := by
  cases call <;> rfl

lemma source_setHeld (r : Recorder) (q : PortId) (m : List Header) (call : Call) :
    (r.setHeld q m).source call = r.source call := by
  cases call <;> rfl

lemma source_setSource (r : Recorder) (call : Call) (q : Queue Header) :
    (r.setSource call q).source call = q := by
  cases call <;> simp [setSource, source, setPool]

lemma held_setSource (r : Recorder) (call : Call) (q : Queue Header) :
    (r.setSource call q).held = r.held := by
  cases call <;> rfl

/-- The test and the get of a round. -/
lemma run_taken (hpt : r.point = .fill call) {b : Header} (hsource : r.source call = b :: l) :
    run Recorder.step r [.loop false .success, .loop false .success] =
      .ok ([[], []], { r.setSource call l with point := .send call b }) := by
  have htest : Recorder.step r (.loop false .success) = .ok ([], { r with point := .get call }) := by
    simp [Recorder.step, loopStep, hpt, hsource]
  refine run_cons_ok htest (run_cons_ok ?_ run_nil)
  simp only [Recorder.step, loopStep, takeFromQueue, source_point, hsource, Queue.get]
  cases call <;> rfl

/-- A round whose send is accepted. -/
lemma run_accepted (hcall : call ≠ .forward) (hpt : r.point = .fill call) {b : Header}
    (hsource : r.source call = b :: l) :
    ∃ os r', run Recorder.step r
        ([.loop false .success, .loop false .success] ++ [.loop false .success]) = .ok (os, r') ∧
      r'.point = .fill call ∧ r'.source call = l ∧
      r'.held call.port = r.held call.port ++ [b] := by
  have hafter : afterSend call = .fill call := by
    cases call with
    | forward => exact absurd rfl hcall
    | _ => rfl
  refine ⟨_, _, run_append_ok (run_taken hpt hsource) (run_cons_ok rfl run_nil), hafter, ?_, ?_⟩
  · simp only [source_point, source_setHeld, source_setSource]
  · simp only [held_setSource, setHeld, Function.update_self]

/-- A round whose send is refused. -/
lemma run_refused {status : Status} (hpt : r.point = .fill call) {b : Header}
    (hsource : r.source call = b :: l) (hstatus : status ≠ .success) :
    ∃ os r', run Recorder.step r ([.loop false .success, .loop false .success] ++
        [.loop false status, .loop false .success]) = .ok (os, r') ∧
      r'.point = .left status ∧ r'.source call = b :: l ∧ r'.held = r.held := by
  have hsend : Recorder.step { r.setSource call l with point := .send call b } (.loop false status) =
      .ok ([], { r.setSource call l with point := .putBack call b status }) := by
    simp [Recorder.step, loopStep, sendToPort, hstatus]
  refine ⟨_, _, run_append_ok (run_taken hpt hsource) (run_cons_ok hsend (run_cons_ok rfl run_nil)),
    rfl, ?_, ?_⟩
  · simp only [source_point, source_setSource, Queue.putBack]
  · simp only [held_setSource]

/-- **The loop does on its queue what `deliver` does.** -/
theorem loop_delivers (hcall : call ≠ .forward) (hpt : r.point = .fill call) {p : S}
    (hheld : port.held p = r.held call.port) :
    ∃ os r', run Recorder.step r (fillEvents port p (r.source call)) = .ok (os, r') ∧
      r'.source call = (deliver port p (r.source call)).2.2 ∧
      r'.held call.port = port.held (deliver port p (r.source call)).2.1 ∧
      r'.point = if (deliver port p (r.source call)).1 = .success then afterCall call
        else .left (deliver port p (r.source call)).1 := by
  obtain ⟨l, hl⟩ : ∃ l, r.source call = l := ⟨_, rfl⟩
  rw [hl]
  induction l generalizing r p with
  | nil =>
    have htest : Recorder.step r (.loop false .success) = .ok ([], { r with point := afterCall call }) := by
      simp [Recorder.step, loopStep, hpt, hl]
    exact ⟨_, _, run_cons_ok htest run_nil, (source_point r _ call).trans hl, hheld.symm, rfl⟩
  | cons b l ih =>
    have hanswer := port.held_answer p b
    by_cases hstatus : (port.answer p b).1 = .success
    · rw [if_pos hstatus] at hanswer
      obtain ⟨os, r', hrun, hpt', hl', hheld'⟩ := run_accepted hcall hpt hl
      obtain ⟨os', r'', hrun', hrest⟩ := ih (r := r') (p := (port.answer p b).2) hpt'
        (by rw [hanswer, hheld', hheld]) hl'
      rw [fillEvents, deliver, if_pos hstatus, if_pos hstatus, hstatus]
      exact ⟨_, r'', run_append_ok hrun hrun', hrest⟩
    · rw [if_neg hstatus] at hanswer
      obtain ⟨os, r', hrun, hpt', hl', hheld'⟩ := run_refused hpt hl hstatus
      rw [fillEvents, deliver, if_neg hstatus, if_neg hstatus]
      refine ⟨os, r', hrun, hl', ?_, ?_⟩
      · rw [hheld', hanswer, hheld]
      · rw [hpt', if_neg hstatus]

/-- **Both fills agree.** Wherever the loop comes to a fill, the function on the linked queue ends with what
the loop ends with: the same answer, the same headers left in the queue, and the same at the port. -/
theorem fill_agrees {es : List Event} {os₀ : List (List Note)}
    (h : run Recorder.step (start size) es = .ok (os₀, r)) (hcall : call ≠ .forward)
    (hpt : r.point = .fill call)
    (hqueue : ∃ q, s.queue = some q ∧ Holds s.next q (r.source call))
    (hheld : port.held s.port = r.held call.port) :
    ∃ status s' os r', (∀ fuel, (r.source call).length < fuel →
        fillPortFromPool port true fuel s = some (.ok (status, s'))) ∧
      run Recorder.step r (fillEvents port s.port (r.source call)) = .ok (os, r') ∧
      Supplies port s' (r'.source call) ∧ port.held s'.port = r'.held call.port ∧
      r'.point = if status = .success then afterCall call else .left status := by
  have hr : Accounted size r := inv_run (accounted_invariant size) (start_accounted size) h
  have hsupplies : Supplies port s (r.source call) :=
    ⟨hqueue, fun b hb => hheld ▸ notMem_held_of_mem_source hr hb⟩
  obtain ⟨s', hfill, hport, hsupplies'⟩ := fillPortFromPool_deliver hsupplies
  obtain ⟨os, r', hrun, hsource, hheld', hpoint⟩ := loop_delivers hcall hpt hheld
  refine ⟨_, s', os, r', hfill, hrun, hsource ▸ hsupplies', ?_, hpoint⟩
  rw [hport, hheld']

end Loop

/-- A video port with room for one header. -/
def oneHeader : Sink (List Header) Header where
  answer held b := if held = [] then (.success, held ++ [b]) else (.enospc, held)
  relink _ b next := Function.update next b none
  held held := held
  held_answer held b := by by_cases h : held = [] <;> simp [h]
  relink_eq _ _ _ _ _ hx := by rw [Function.update_of_ne hx]

/-- Two headers for it, as the pool has them linked. -/
def twoHeaders : Supply (List Header) Header where
  port := []
  queue := some { length := 2, first := some ⟨.encoderIn, 0⟩, last := some ⟨.encoderIn, 1⟩, semaphore := 2 }
  next b := if b = ⟨.encoderIn, 0⟩ then some ⟨.encoderIn, 1⟩ else none

/-- The first fill of the loop: the second header is refused. -/
theorem fill_agrees_two : ∃ r status s' os r',
    run Recorder.step (start fun _ => 2) [.loop false .success] = .ok ([[]], r) ∧
    (∀ fuel, 2 < fuel → fillPortFromPool oneHeader true fuel twoHeaders = some (.ok (status, s'))) ∧
    run Recorder.step r (fillEvents oneHeader [] [⟨.encoderIn, 0⟩, ⟨.encoderIn, 1⟩]) = .ok (os, r') ∧
    Supplies oneHeader s' (r'.source .fillVideo) ∧ oneHeader.held s'.port = r'.held .videoPort ∧
    r'.point = .left .enospc := by
  obtain ⟨r, h, hpt, hsource, hheld⟩ : ∃ r,
      run Recorder.step (start fun _ => 2) [.loop false .success] = .ok ([[]], r) ∧
      r.point = .fill .fillVideo ∧ r.source .fillVideo = [⟨.encoderIn, 0⟩, ⟨.encoderIn, 1⟩] ∧
      r.held .videoPort = [] := ⟨_, rfl, rfl, rfl, rfl⟩
  have hqueue : ∃ q, twoHeaders.queue = some q ∧ Holds twoHeaders.next q (r.source .fillVideo) :=
    hsource ▸ ⟨_, rfl, ⟨rfl, rfl, rfl⟩, rfl, rfl, rfl⟩
  have hport : oneHeader.held twoHeaders.port = r.held (Call.port .fillVideo) := hheld.symm
  obtain ⟨status, s', os, r', hfill, hrun, hsupplies, hports, hpoint⟩ :=
    fill_agrees h (by simp) hpt hqueue hport
  rw [hsource] at hfill hrun
  refine ⟨r, status, s', os, r', h, hfill, hrun, hsupplies, hports, ?_⟩
  obtain ⟨os₁, r₁, hrun₁, hpoint₁⟩ : ∃ os₁ r₁, run Recorder.step r
      (fillEvents oneHeader [] [⟨.encoderIn, 0⟩, ⟨.encoderIn, 1⟩]) = .ok (os₁, r₁) ∧
      r₁.point = .left .enospc := by
    obtain rfl := (Prod.mk.inj (Except.ok.inj h)).2
    exact ⟨_, _, rfl, rfl⟩
  exact (Prod.mk.inj (Except.ok.inj (hrun.symm.trans hrun₁))).2 ▸ hpoint₁

end RcControl.Recorder
