import RcControl.Lib.Run
import Mathlib.Logic.Function.Basic

/-!
# Event flags

`vcos_generic_event_flags.c` as it is built on a mutex, the semaphore of each thread and the timer of
each thread: what the main loop of the recorder waits on, and what its callbacks raise. A `get` that is
not satisfied links a waiter, which is on the stack of its thread, sets the timer and sleeps on the
semaphore; a `set` that satisfies it, or the timer when it expires, unlinks the waiter and posts.

What is done under the mutex of the flags is one step. The timer has a thread of its own, which calls
the routine with the mutex of the timer held; that the mutex is free is asked of those who take it.
-/

namespace RcControl.Vcos

/-- `VCOS_UNSIGNED`. -/
abbrev Flags := BitVec 32

/-- The `op` of a `get`: the other values are asserted against. -/
inductive Op where
  | or | and | orConsume | andConsume
  deriving DecidableEq

namespace Op

/-- `op & VCOS_AND`. -/
def all : Op → Bool
  | .and | .andConsume => true
  | .or | .orConsume => false

/-- `op & VCOS_CONSUME`. -/
def consume : Op → Bool
  | .orConsume | .andConsume => true
  | .or | .and => false

/-- Whether the events are what was asked for. -/
def Satisfied (op : Op) (events requested : Flags) : Prop :=
  if op.all then events &&& requested = requested else events &&& requested ≠ 0

instance (op : Op) (events requested : Flags) : Decidable (op.Satisfied events requested) := by
  unfold Satisfied
  infer_instance

section Bits

variable {op : Op} {events requested : Flags}

/-- All the bits asked for are there, or one of them is. -/
lemma satisfied_iff : op.Satisfied events requested ↔ if op.all
    then ∀ i, requested.getLsbD i = true → events.getLsbD i = true
    else ∃ i, requested.getLsbD i = true ∧ events.getLsbD i = true := by
  unfold Satisfied
  split
  · constructor
    · intro h i hi
      rw [← h, BitVec.getLsbD_and, Bool.and_eq_true] at hi
      exact hi.1
    · intro h
      refine BitVec.eq_of_getLsbD_eq fun i _ => ?_
      rw [BitVec.getLsbD_and]
      rcases hr : requested.getLsbD i
      · exact Bool.and_false _
      · rw [h i hr, Bool.and_true]
  · constructor
    · intro h
      by_contra hnone
      refine h (BitVec.eq_of_getLsbD_eq fun i _ => ?_)
      rw [BitVec.getLsbD_and, BitVec.ofNat_eq_ofNat, BitVec.getLsbD_zero, Bool.and_eq_false_iff]
      by_contra hboth
      simp only [not_or, Bool.not_eq_false] at hboth
      exact hnone ⟨i, hboth.2, hboth.1⟩
    · rintro ⟨i, hr, he⟩ hzero
      have hbit := congrArg (BitVec.getLsbD · i) hzero
      simp [he, hr] at hbit

lemma Satisfied.mono {events' : Flags} (hle : ∀ i, events'.getLsbD i = true → events.getLsbD i = true)
    (h : op.Satisfied events' requested) : op.Satisfied events requested := by
  rw [satisfied_iff] at h ⊢
  split at h
  · rw [if_pos ‹_›]
    exact fun i hi => hle i (h i hi)
  · rw [if_neg ‹_›]
    obtain ⟨i, hr, he⟩ := h
    exact ⟨i, hr, hle i he⟩

end Bits

end Op

/-- The `op` of a `set`. -/
inductive SetOp where
  | or | and

inductive Suspend where
  /-- Zero. -/
  | no
  | ms
  /-- `(VCOS_UNSIGNED)-1`. -/
  | forever
  deriving DecidableEq

/-- `VCOS_STATUS_T`, as far as a `get` returns it. -/
inductive Status where
  | success | eagain
  deriving DecidableEq

/-- `VCOS_EVENT_WAITER_T`, and whether there is a timer to be cancelled. -/
structure Waiter where
  requestedEvents : Flags
  op : Op
  returnStatus : Status
  actualEvents : Flags
  timed : Bool

/-- What a `get` has been asked, and what it answers. -/
structure Answer where
  requestedEvents : Flags
  op : Op
  status : Status
  events : Flags
  deriving DecidableEq

def Waiter.answer (w : Waiter) : Answer := ⟨w.requestedEvents, w.op, w.returnStatus, w.actualEvents⟩

/-- Where a thread is in `vcos_generic_event_flags_get`. -/
inductive Thread where
  | outside
  /-- At `_vcos_thread_sem_wait`. -/
  | asleep
  /-- At `_vcos_task_timer_cancel`, with what it will return. -/
  | cancelling (answer : Answer)
  deriving DecidableEq

/-- Where the timer of a thread is. -/
inductive Timer where
  | idle
  | set
  /-- In `event_flags_timer_expired`, before the mutex of the flags. -/
  | expired
  /-- Behind it, with `thread` found or not. -/
  | unlinked (found : Bool)
  deriving DecidableEq

/-- The mutex of the timer is not held by its own thread. -/
def Timer.free : Timer → Bool
  | .idle | .set => true
  | .expired | .unlinked _ => false

/-- What the threads and their timers do. -/
inductive Event (ι : Type) where
  | set (bitmask : Flags) (op : SetOp)
  /-- `get`, up to its return or to the semaphore. -/
  | get (t : ι) (bitmask : Flags) (op : Op) (suspend : Suspend)
  | timerExpires (t : ι)
  /-- `event_flags_timer_expired`, up to the unlocking. -/
  | timerUnlinks (t : ι)
  | timerPosts (t : ι)
  /-- The semaphore has been waited for. -/
  | wakes (t : ι)
  | cancels (t : ι)

/-- What there is to see of a step. -/
inductive Did (ι : Type) where
  | called (t : ι) (requestedEvents : Flags) (op : Op)
  /-- It is settled what the thread will return. -/
  | settled (t : ι) (answer : Answer)
  | returned (t : ι) (answer : Answer)

/-- The event is none that can happen now. -/
inductive Blocked where
  | blocked

/-- `VCOS_EVENT_FLAGS_T`, and the threads that use it. -/
structure EventFlags (ι : Type) where
  events : Flags
  waiters : List ι
  thread : ι → Thread
  /-- The variable `waitreq` of each thread. -/
  waiter : ι → Waiter
  /-- The count of the semaphore of each thread. -/
  sema : ι → ℕ
  timer : ι → Timer

namespace EventFlags

variable {ι : Type}

/-- `vcos_generic_event_flags_create`, with whatever is on the stacks. -/
def create (waiter : ι → Waiter) : EventFlags ι where
  events := 0
  waiters := []
  thread _ := .outside
  waiter := waiter
  sema _ := 0
  timer _ := .idle

/-- What a waiter waits for is there. -/
def Ready (s : EventFlags ι) (t : ι) : Prop :=
  (s.waiter t).op.Satisfied s.events (s.waiter t).requestedEvents

instance (s : EventFlags ι) : DecidablePred s.Ready := fun t => by
  unfold Ready
  infer_instance

/-- The events as a `set` makes them, before any are consumed. -/
def raise (s : EventFlags ι) (bitmask : Flags) : SetOp → EventFlags ι
  | .or => { s with events := s.events ||| bitmask }
  | .and => { s with events := s.events &&& bitmask }

section Raise

variable (s : EventFlags ι) (bitmask : Flags) (op : SetOp)

@[simp] lemma raise_thread : (s.raise bitmask op).thread = s.thread := by cases op <;> rfl

@[simp] lemma raise_waiter : (s.raise bitmask op).waiter = s.waiter := by cases op <;> rfl

@[simp] lemma raise_sema : (s.raise bitmask op).sema = s.sema := by cases op <;> rfl

@[simp] lemma raise_timer : (s.raise bitmask op).timer = s.timer := by cases op <;> rfl

end Raise

variable [DecidableEq ι]

/-- The waiter is told, and its thread posted. -/
def tell (s : EventFlags ι) (t : ι) : EventFlags ι :=
  { s with
    waiter := Function.update s.waiter t
      { s.waiter t with returnStatus := .success, actualEvents := s.events }
    sema := Function.update s.sema t (s.sema t + 1) }

/-- The walk of a `set` along the chain: who stays in it, what is consumed, and what was settled. -/
def walk : EventFlags ι → List ι → Flags → (List ι × Flags × List (Did ι)) × EventFlags ι
  | s, [], consumed => (([], consumed, []), s)
  | s, t :: ts, consumed =>
    if s.Ready t then
      let r := walk (s.tell t) ts
        (if (s.waiter t).op.consume then consumed ||| (s.waiter t).requestedEvents else consumed)
      ((r.1.1, r.1.2.1, .settled t ((s.tell t).waiter t).answer :: r.1.2.2), r.2)
    else
      let r := walk s ts consumed
      ((t :: r.1.1, r.1.2), r.2)

def set (s : EventFlags ι) (bitmask : Flags) (op : SetOp) : List (Did ι) × EventFlags ι :=
  let r := walk (s.raise bitmask op) s.waiters 0
  (r.1.2.2, { r.2 with waiters := r.1.1, events := r.2.events &&& ~~~r.1.2.1 })

def get (s : EventFlags ι) (t : ι) (bitmask : Flags) (op : Op) (suspend : Suspend) :
    List (Did ι) × EventFlags ι :=
  if op.Satisfied s.events bitmask then
    ([.called t bitmask op, .settled t ⟨bitmask, op, .success, s.events⟩,
        .returned t ⟨bitmask, op, .success, s.events⟩],
      { s with events := if op.consume then s.events &&& ~~~bitmask else s.events })
  else if suspend = .no then
    ([.called t bitmask op, .settled t ⟨bitmask, op, .eagain, 0⟩, .returned t ⟨bitmask, op, .eagain, 0⟩], s)
  else
    ([.called t bitmask op],
      { s with
        waiters := s.waiters ++ [t]
        thread := Function.update s.thread t .asleep
        waiter := Function.update s.waiter t ⟨bitmask, op, .eagain, 0, suspend = .ms⟩
        timer := Function.update s.timer t (if suspend = .ms then .set else .idle) })

/-- The waiter is unlinked if it is still in the chain: its status is that of the call. -/
def timerUnlinks (s : EventFlags ι) (t : ι) : List (Did ι) × EventFlags ι :=
  if t ∈ s.waiters then
    ([.settled t (s.waiter t).answer],
      { s with waiters := s.waiters.erase t, timer := Function.update s.timer t (.unlinked true) })
  else ([], { s with timer := Function.update s.timer t (.unlinked false) })

/-- The thread goes on from the semaphore. -/
def wakes (s : EventFlags ι) (t : ι) (n : ℕ) : List (Did ι) × EventFlags ι :=
  if (s.waiter t).timed then
    ([], { s with
      sema := Function.update s.sema t n
      thread := Function.update s.thread t (.cancelling (s.waiter t).answer) })
  else
    ([.returned t (s.waiter t).answer],
      { s with sema := Function.update s.sema t n, thread := Function.update s.thread t .outside })

def step (s : EventFlags ι) : Event ι → Except Blocked (List (Did ι) × EventFlags ι)
  | .set bitmask op => .ok (s.set bitmask op)
  | .get t bitmask op suspend =>
    -- the timer is set with the mutex of the flags held
    if s.thread t = .outside ∧ (s.timer t).free then .ok (s.get t bitmask op suspend)
    else .error .blocked
  | .timerExpires t =>
    if s.timer t = .set then .ok ([], { s with timer := Function.update s.timer t .expired })
    else .error .blocked
  | .timerUnlinks t =>
    if s.timer t = .expired then .ok (s.timerUnlinks t) else .error .blocked
  | .timerPosts t =>
    match s.timer t with
    | .unlinked found =>
      .ok ([], { s with
        timer := Function.update s.timer t .idle
        sema := if found then Function.update s.sema t (s.sema t + 1) else s.sema })
    | _ => .error .blocked
  | .wakes t =>
    match s.thread t, s.sema t with
    | .asleep, n + 1 => .ok (s.wakes t n)
    | _, _ => .error .blocked
  | .cancels t =>
    match s.thread t, (s.timer t).free with
    | .cancelling answer, true =>
      .ok ([.returned t answer],
        { s with
          timer := Function.update s.timer t .idle
          thread := Function.update s.thread t .outside })
    | _, _ => .error .blocked

/-! ### What a step does -/

inductive Does (s : EventFlags ι) : Event ι → List (Did ι) → EventFlags ι → Prop
  | sets (bitmask : Flags) (op : SetOp) :
      Does s (.set bitmask op) (s.set bitmask op).1 (s.set bitmask op).2
  | finds (t : ι) (bitmask : Flags) (op : Op) (suspend : Suspend) (hout : s.thread t = .outside)
      (hsat : op.Satisfied s.events bitmask) :
      Does s (.get t bitmask op suspend)
        [.called t bitmask op, .settled t ⟨bitmask, op, .success, s.events⟩,
          .returned t ⟨bitmask, op, .success, s.events⟩]
        { s with events := if op.consume then s.events &&& ~~~bitmask else s.events }
  | refuses (t : ι) (bitmask : Flags) (op : Op) (hout : s.thread t = .outside)
      (hunsat : ¬ op.Satisfied s.events bitmask) :
      Does s (.get t bitmask op .no)
        [.called t bitmask op, .settled t ⟨bitmask, op, .eagain, 0⟩,
          .returned t ⟨bitmask, op, .eagain, 0⟩] s
  | sleeps (t : ι) (bitmask : Flags) (op : Op) (suspend : Suspend) (hout : s.thread t = .outside)
      (hunsat : ¬ op.Satisfied s.events bitmask) (hsuspend : suspend ≠ .no) :
      Does s (.get t bitmask op suspend) [.called t bitmask op]
        { s with
          waiters := s.waiters ++ [t]
          thread := Function.update s.thread t .asleep
          waiter := Function.update s.waiter t ⟨bitmask, op, .eagain, 0, suspend = .ms⟩
          timer := Function.update s.timer t (if suspend = .ms then .set else .idle) }
  | expires (t : ι) (ht : s.timer t = .set) :
      Does s (.timerExpires t) [] { s with timer := Function.update s.timer t .expired }
  | unlinks (t : ι) (ht : s.timer t = .expired) (hlisted : t ∈ s.waiters) :
      Does s (.timerUnlinks t) [.settled t (s.waiter t).answer]
        { s with waiters := s.waiters.erase t, timer := Function.update s.timer t (.unlinked true) }
  | misses (t : ι) (ht : s.timer t = .expired) (hlisted : t ∉ s.waiters) :
      Does s (.timerUnlinks t) [] { s with timer := Function.update s.timer t (.unlinked false) }
  | posts (t : ι) (found : Bool) (ht : s.timer t = .unlinked found) :
      Does s (.timerPosts t) []
        { s with
          timer := Function.update s.timer t .idle
          sema := if found then Function.update s.sema t (s.sema t + 1) else s.sema }
  | wakes (t : ι) (n : ℕ) (hasleep : s.thread t = .asleep) (hn : s.sema t = n + 1)
      (htimed : (s.waiter t).timed = true) :
      Does s (.wakes t) []
        { s with
          sema := Function.update s.sema t n
          thread := Function.update s.thread t (.cancelling (s.waiter t).answer) }
  | returns (t : ι) (n : ℕ) (hasleep : s.thread t = .asleep) (hn : s.sema t = n + 1)
      (htimed : (s.waiter t).timed = false) :
      Does s (.wakes t) [.returned t (s.waiter t).answer]
        { s with sema := Function.update s.sema t n, thread := Function.update s.thread t .outside }
  | cancels (t : ι) (answer : Answer) (hthread : s.thread t = .cancelling answer)
      (hfree : (s.timer t).free = true) :
      Does s (.cancels t) [.returned t answer]
        { s with
          timer := Function.update s.timer t .idle
          thread := Function.update s.thread t .outside }

section Step

variable {s s' : EventFlags ι} {e : Event ι} {o : List (Did ι)}

lemma does_get (s : EventFlags ι) {t : ι} (bitmask : Flags) (op : Op) (suspend : Suspend)
    (hout : s.thread t = .outside) :
    Does s (.get t bitmask op suspend) (s.get t bitmask op suspend).1 (s.get t bitmask op suspend).2 := by
  unfold get
  by_cases hsat : op.Satisfied s.events bitmask
  · rw [if_pos hsat]
    exact .finds t bitmask op suspend hout hsat
  rw [if_neg hsat]
  by_cases hno : suspend = .no
  · subst hno
    exact .refuses t bitmask op hout hsat
  · rw [if_neg hno]
    exact .sleeps t bitmask op suspend hout hsat hno

theorem does_of_step (h : s.step e = .ok (o, s')) : Does s e o s' := by
  cases e with
  | set bitmask op =>
    obtain ⟨rfl, rfl⟩ := Prod.mk.inj (Except.ok.inj h)
    exact .sets bitmask op
  | get t bitmask op suspend =>
    simp only [step] at h
    split_ifs at h with hcan
    obtain ⟨rfl, rfl⟩ := Prod.mk.inj (Except.ok.inj h)
    exact does_get s bitmask op suspend hcan.1
  | timerExpires t =>
    simp only [step] at h
    split_ifs at h with ht
    obtain ⟨rfl, rfl⟩ := Prod.mk.inj (Except.ok.inj h)
    exact .expires t ht
  | timerUnlinks t =>
    simp only [step, timerUnlinks] at h
    split_ifs at h with ht hlisted <;> obtain ⟨rfl, rfl⟩ := Prod.mk.inj (Except.ok.inj h)
    · exact .unlinks t ht hlisted
    · exact .misses t ht hlisted
  | timerPosts t =>
    simp only [step] at h
    split at h
    · obtain ⟨rfl, rfl⟩ := Prod.mk.inj (Except.ok.inj h)
      exact .posts t _ ‹_›
    · cases h
  | wakes t =>
    simp only [step, wakes] at h
    split at h
    · split_ifs at h with htimed <;> obtain ⟨rfl, rfl⟩ := Prod.mk.inj (Except.ok.inj h)
      · exact .wakes t _ ‹_› ‹_› htimed
      · exact .returns t _ ‹_› ‹_› (by simpa using htimed)
    · cases h
  | cancels t =>
    simp only [step] at h
    split at h
    · obtain ⟨rfl, rfl⟩ := Prod.mk.inj (Except.ok.inj h)
      exact .cancels t _ ‹_› ‹_›
    · cases h

end Step

/-! ### The walk along the chain -/

/-- What a waiter is told. -/
def told (s : EventFlags ι) (t : ι) : Waiter :=
  { s.waiter t with returnStatus := .success, actualEvents := s.events }

/-- What a walk from `s` along `ts` does. -/
structure Walked (s : EventFlags ι) (ts : List ι) (consumed : Flags)
    (r : (List ι × Flags × List (Did ι)) × EventFlags ι) : Prop where
  kept : r.1.1 = ts.filter fun t => ¬ s.Ready t
  did : r.1.2.2 = (ts.filter fun t => s.Ready t).map fun t => .settled t (s.told t).answer
  consumed : ∀ i, r.1.2.1.getLsbD i = true ↔ consumed.getLsbD i = true ∨
    ∃ t ∈ ts, s.Ready t ∧ (s.waiter t).op.consume = true ∧ (s.waiter t).requestedEvents.getLsbD i = true
  waiter : ∀ t, r.2.waiter t = if t ∈ ts ∧ s.Ready t then s.told t else s.waiter t
  sema : ∀ t, r.2.sema t = if t ∈ ts ∧ s.Ready t then s.sema t + 1 else s.sema t
  events : r.2.events = s.events
  thread : r.2.thread = s.thread
  timer : r.2.timer = s.timer

lemma tell_of_ne {s : EventFlags ι} {t u : ι} (h : u ≠ t) : (s.tell t).waiter u = s.waiter u ∧
    (s.tell t).sema u = s.sema u ∧ ((s.tell t).Ready u ↔ s.Ready u) ∧ (s.tell t).told u = s.told u := by
  have hw : (s.tell t).waiter u = s.waiter u := Function.update_of_ne h ..
  refine ⟨hw, Function.update_of_ne h .., ?_, ?_⟩
  · simp only [Ready, hw]
    rfl
  · simp only [told, hw]
    rfl

theorem walk_walked (s : EventFlags ι) {ts : List ι} (hnodup : ts.Nodup) (consumed : Flags) :
    Walked s ts consumed (walk s ts consumed) := by
  induction ts generalizing s consumed with
  | nil => exact ⟨rfl, rfl, by simp [walk], by simp [walk], by simp [walk], rfl, rfl, rfl⟩
  | cons t ts ih =>
    obtain ⟨ht, hnodup⟩ := List.nodup_cons.1 hnodup
    have hne : ∀ u ∈ ts, u ≠ t := fun u hu hut => ht (hut ▸ hu)
    by_cases hready : s.Ready t
    · have hself : (s.tell t).waiter t = s.told t := Function.update_self ..
      have hsema : (s.tell t).sema t = s.sema t + 1 := Function.update_self ..
      have hrest := ih (s.tell t) hnodup
        (if (s.waiter t).op.consume then consumed ||| (s.waiter t).requestedEvents else consumed)
      rw [walk, if_pos hready]
      dsimp only
      refine ⟨?_, ?_, fun i => ?_, fun u => ?_, fun u => ?_, hrest.events, hrest.thread, hrest.timer⟩
      · rw [hrest.kept, List.filter_cons_of_neg (by simpa using hready)]
        exact List.filter_congr fun u hu => by simp only [(tell_of_ne (hne u hu)).2.2.1]
      · have hfilter : (ts.filter fun u => (s.tell t).Ready u) = ts.filter fun u => s.Ready u :=
          List.filter_congr fun u hu => by simp only [(tell_of_ne (hne u hu)).2.2.1]
        rw [List.filter_cons_of_pos (by simpa using hready), List.map_cons, hrest.did, hself, hfilter]
        refine congrArg _ (List.map_congr_left fun u hu => ?_)
        rw [(tell_of_ne (hne u (List.mem_of_mem_filter hu))).2.2.2]
      · have hsame : (∃ u ∈ ts, (s.tell t).Ready u ∧ ((s.tell t).waiter u).op.consume = true ∧
            ((s.tell t).waiter u).requestedEvents.getLsbD i = true) ↔
            ∃ u ∈ ts, s.Ready u ∧ (s.waiter u).op.consume = true ∧
              (s.waiter u).requestedEvents.getLsbD i = true := by
          refine exists_congr fun u => and_congr_right fun hu => ?_
          obtain ⟨hw, -, hr, -⟩ := tell_of_ne (s := s) (hne u hu)
          rw [hw, hr]
        rw [hrest.consumed, hsame]
        by_cases hconsume : (s.waiter t).op.consume = true <;>
          simp [hready, hconsume, or_assoc]
      · rw [hrest.waiter]
        by_cases hut : u = t
        · subst hut
          simp [ht, hready, hself]
        · obtain ⟨hw, -, hr, htold⟩ := tell_of_ne (s := s) hut
          simp only [hw, hr, htold, List.mem_cons, hut, false_or]
      · rw [hrest.sema]
        by_cases hut : u = t
        · subst hut
          simp [ht, hready, hsema]
        · obtain ⟨-, hs, hr, -⟩ := tell_of_ne (s := s) hut
          simp only [hs, hr, List.mem_cons, hut, false_or]
    · have hrest := ih s hnodup consumed
      rw [walk, if_neg hready]
      dsimp only
      refine ⟨?_, ?_, fun i => ?_, fun u => ?_, fun u => ?_, hrest.events, hrest.thread, hrest.timer⟩
      · rw [hrest.kept, List.filter_cons_of_pos (by simpa using hready)]
      · rw [hrest.did, List.filter_cons_of_neg (by simpa using hready)]
      · rw [hrest.consumed]
        simp [hready]
      · rw [hrest.waiter]
        by_cases hut : u = t
        · subst hut
          simp [hready]
        · simp only [List.mem_cons, hut, false_or]
      · rw [hrest.sema]
        by_cases hut : u = t
        · subst hut
          simp [hready]
        · simp only [List.mem_cons, hut, false_or]

end EventFlags

end RcControl.Vcos
