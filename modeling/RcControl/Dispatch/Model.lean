import RcControl.Lib.Crew
import RcControl.Lib.Run

/-!
# The dispatch queue

`DispatchQueue`: operations are pushed by any thread and run by the threads of the queue, which wait on
a condition variable. The mutex, the condition variable and the scheduler are the events of the model:
what is done between `lock` and the next `unlock` or `wait` is one step, and everything else may come in
between.
-/

namespace RcControl.Dispatch

variable {α : Type*}

/-- Where a thread is in `dispatchThreadHandler`. -/
inductive Thread (α : Type*) where
  /-- It wants the mutex: before the loop, after an operation, or in `wait` when it has been woken. -/
  | locking
  /-- It has the mutex, and goes on to the predicate of `wait`. -/
  | testing
  /-- In `wait`, without the mutex. -/
  | sleeping
  | running (op : α)
  | left

/-- What is done to the queue, or by one of its threads. -/
inductive Event (α : Type*) where
  /-- A thread is given the mutex. -/
  | lock (i : ℕ)
  /-- A thread that has the mutex goes on until it gives it up. -/
  | test (i : ℕ)
  /-- The operation that a thread runs returns. -/
  | finish (i : ℕ)
  /-- A thread wakes up that nobody has woken. -/
  | wake (i : ℕ)
  /-- `dispatch`, up to `lock.unlock()`. -/
  | push (op : α)
  /-- The rest of a `dispatch`: `notify_one` wakes one thread, if one sleeps. -/
  | notifyOne (i : Option ℕ)
  | removePending
  /-- `~DispatchQueue`, up to `lock.unlock()`. -/
  | setQuit
  | notifyAll

/-- What there is to see of a step. -/
inductive Did (α : Type*) where
  | started (op : α)
  | finished (op : α)
  | removed (ops : List α)

/-- The event is none that can happen now. -/
inductive Blocked where
  | blocked

/-- A thread that `notify_all` wakes. -/
def Thread.roused : Thread α → Thread α
  | sleeping => locking
  | t => t

end RcControl.Dispatch

namespace RcControl

open Dispatch

structure DispatchQueue (α : Type*) where
  /-- The thread that has the mutex. -/
  lockMutex : Option ℕ
  threads : List (Thread α)
  queue : List α
  quit : Bool
  /-- Calls of `dispatch` that have pushed and not yet notified. -/
  notices : ℕ
  /-- The destructor has called `notify_all`, and joins. -/
  joining : Bool

namespace DispatchQueue

variable {α : Type*}

/-- The constructor. -/
def create (threadCount : ℕ) : DispatchQueue α where
  lockMutex := none
  threads := List.replicate threadCount .locking
  queue := []
  quit := false
  notices := 0
  joining := false

/-- A thread goes to another place. -/
def place (d : DispatchQueue α) (i : ℕ) (t : Thread α) : DispatchQueue α :=
  { d with threads := d.threads.set i t }

def lock (d : DispatchQueue α) (i : ℕ) : Except Blocked (List (Did α) × DispatchQueue α) :=
  match d.lockMutex, d.threads[i]? with
  | none, some .locking => .ok ([], { d.place i .testing with lockMutex := some i })
  | _, _ => .error .blocked

/-- From the mutex on: `wait` returns at once if there is an operation or the queue quits. Without
`quit` an operation is taken and run, and with it the loop is left. After an operation the condition of
the loop comes first, and leads to the same. -/
def test (d : DispatchQueue α) (i : ℕ) : Except Blocked (List (Did α) × DispatchQueue α) :=
  match d.threads[i]? with
  | some .testing =>
    if d.quit then .ok ([], { d.place i .left with lockMutex := none })
    else
      match d.queue with
      | [] => .ok ([], { d.place i .sleeping with lockMutex := none })
      | op :: ops => .ok ([.started op], { d.place i (.running op) with lockMutex := none, queue := ops })
  | _ => .error .blocked

def finish (d : DispatchQueue α) (i : ℕ) : Except Blocked (List (Did α) × DispatchQueue α) :=
  match d.threads[i]? with
  | some (.running op) => .ok ([.finished op], d.place i .locking)
  | _ => .error .blocked

def wake (d : DispatchQueue α) (i : ℕ) : Except Blocked (List (Did α) × DispatchQueue α) :=
  match d.threads[i]? with
  | some .sleeping => .ok ([], d.place i .locking)
  | _ => .error .blocked

def isSleeping : Thread α → Bool
  | .sleeping => true
  | _ => false

/-- Which of the threads that sleep is woken is not said. -/
def notifyOne (d : DispatchQueue α) : Option ℕ → Except Blocked (List (Did α) × DispatchQueue α)
  | some i =>
    match d.notices, d.threads[i]? with
    | n + 1, some .sleeping => .ok ([], { d.place i .locking with notices := n })
    | _, _ => .error .blocked
  | none =>
    match d.notices, d.threads.any isSleeping with
    | n + 1, false => .ok ([], { d with notices := n })
    | _, _ => .error .blocked

/-- What one does who locks the mutex, changes something and unlocks it. -/
def locked (d : DispatchQueue α) (did : List (Did α)) (d' : DispatchQueue α) :
    Except Blocked (List (Did α) × DispatchQueue α) :=
  match d.lockMutex with
  | none => .ok (did, d')
  | some _ => .error .blocked

def push (d : DispatchQueue α) (op : α) : Except Blocked (List (Did α) × DispatchQueue α) :=
  locked d [] { d with queue := d.queue ++ [op], notices := d.notices + 1 }

def removePending (d : DispatchQueue α) : Except Blocked (List (Did α) × DispatchQueue α) :=
  locked d [.removed d.queue] { d with queue := [] }

def setQuit (d : DispatchQueue α) : Except Blocked (List (Did α) × DispatchQueue α) :=
  locked d [] { d with quit := true }

def notifyAll (d : DispatchQueue α) : Except Blocked (List (Did α) × DispatchQueue α) :=
  if d.quit && !d.joining then
    .ok ([], { d with threads := d.threads.map Thread.roused, joining := true })
  else .error .blocked

def step (d : DispatchQueue α) : Event α → Except Blocked (List (Did α) × DispatchQueue α)
  | .lock i => d.lock i
  | .test i => d.test i
  | .finish i => d.finish i
  | .wake i => d.wake i
  | .push op => d.push op
  | .notifyOne i => d.notifyOne i
  | .removePending => d.removePending
  | .setQuit => d.setQuit
  | .notifyAll => d.notifyAll

end DispatchQueue

namespace Dispatch

variable {α : Type*} {d d' : DispatchQueue α} {e : Event α} {o : List (Did α)}

/-! ### What a step does -/

inductive Does (d : DispatchQueue α) : Event α → List (Did α) → DispatchQueue α → Prop
  | locks (i : ℕ) (hfree : d.lockMutex = none) (hi : d.threads[i]? = some .locking) :
      Does d (.lock i) [] { d.place i .testing with lockMutex := some i }
  | leaves (i : ℕ) (hi : d.threads[i]? = some .testing) (hq : d.quit = true) :
      Does d (.test i) [] { d.place i .left with lockMutex := none }
  | sleeps (i : ℕ) (hi : d.threads[i]? = some .testing) (hq : d.quit = false) (hempty : d.queue = []) :
      Does d (.test i) [] { d.place i .sleeping with lockMutex := none }
  | starts (i : ℕ) (op : α) (ops : List α) (hi : d.threads[i]? = some .testing) (hq : d.quit = false)
      (hqueue : d.queue = op :: ops) :
      Does d (.test i) [.started op] { d.place i (.running op) with lockMutex := none, queue := ops }
  | finishes (i : ℕ) (op : α) (hi : d.threads[i]? = some (.running op)) :
      Does d (.finish i) [.finished op] (d.place i .locking)
  | wakes (i : ℕ) (hi : d.threads[i]? = some .sleeping) : Does d (.wake i) [] (d.place i .locking)
  | pushes (op : α) (hfree : d.lockMutex = none) :
      Does d (.push op) [] { d with queue := d.queue ++ [op], notices := d.notices + 1 }
  | notifies (i n : ℕ) (hn : d.notices = n + 1) (hi : d.threads[i]? = some .sleeping) :
      Does d (.notifyOne (some i)) [] { d.place i .locking with notices := n }
  /-- There is nobody to wake. -/
  | notifiesNobody (n : ℕ) (hn : d.notices = n + 1) (hnone : .sleeping ∉ d.threads) :
      Does d (.notifyOne none) [] { d with notices := n }
  | removes (hfree : d.lockMutex = none) : Does d .removePending [.removed d.queue] { d with queue := [] }
  | quits (hfree : d.lockMutex = none) : Does d .setQuit [] { d with quit := true }
  | rouses (hq : d.quit = true) (hj : d.joining = false) :
      Does d .notifyAll [] { d with threads := d.threads.map Thread.roused, joining := true }

lemma sleeping_notMem (h : d.threads.any DispatchQueue.isSleeping = false) : .sleeping ∉ d.threads :=
  fun hmem => List.any_eq_false.1 h _ hmem rfl

lemma locked_eq_ok {did : List (Did α)} {x : DispatchQueue α} :
    DispatchQueue.locked d did x = .ok (o, d') ↔ d.lockMutex = none ∧ did = o ∧ x = d' := by
  rcases hl : d.lockMutex with _ | i <;> simp [DispatchQueue.locked, hl]

theorem does_of_step (h : d.step e = .ok (o, d')) : Does d e o d' := by
  cases e with
  | lock i =>
    simp only [DispatchQueue.step, DispatchQueue.lock] at h
    split at h
    · obtain ⟨rfl, rfl⟩ := Prod.mk.inj (Except.ok.inj h)
      exact .locks i ‹_› ‹_›
    · cases h
  | test i =>
    simp only [DispatchQueue.step, DispatchQueue.test] at h
    split at h
    · rcases hq : d.quit
      · rw [hq, if_neg Bool.false_ne_true] at h
        split at h <;> obtain ⟨rfl, rfl⟩ := Prod.mk.inj (Except.ok.inj h)
        · exact .sleeps i ‹_› hq ‹_›
        · exact .starts i _ _ ‹_› hq ‹_›
      · rw [hq, if_pos rfl] at h
        obtain ⟨rfl, rfl⟩ := Prod.mk.inj (Except.ok.inj h)
        exact .leaves i ‹_› hq
    · cases h
  | finish i =>
    simp only [DispatchQueue.step, DispatchQueue.finish] at h
    split at h
    · obtain ⟨rfl, rfl⟩ := Prod.mk.inj (Except.ok.inj h)
      exact .finishes i _ ‹_›
    · cases h
  | wake i =>
    simp only [DispatchQueue.step, DispatchQueue.wake] at h
    split at h
    · obtain ⟨rfl, rfl⟩ := Prod.mk.inj (Except.ok.inj h)
      exact .wakes i ‹_›
    · cases h
  | push op =>
    obtain ⟨hfree, rfl, rfl⟩ := locked_eq_ok.1 h
    exact .pushes op hfree
  | notifyOne i =>
    rcases i with _ | i
    · simp only [DispatchQueue.step, DispatchQueue.notifyOne] at h
      split at h
      · obtain ⟨rfl, rfl⟩ := Prod.mk.inj (Except.ok.inj h)
        exact .notifiesNobody _ ‹_› (sleeping_notMem ‹_›)
      · cases h
    · simp only [DispatchQueue.step, DispatchQueue.notifyOne] at h
      split at h
      · obtain ⟨rfl, rfl⟩ := Prod.mk.inj (Except.ok.inj h)
        exact .notifies i _ ‹_› ‹_›
      · cases h
  | removePending =>
    obtain ⟨hfree, rfl, rfl⟩ := locked_eq_ok.1 h
    exact .removes hfree
  | setQuit =>
    obtain ⟨hfree, rfl, rfl⟩ := locked_eq_ok.1 h
    exact .quits hfree
  | notifyAll =>
    simp only [DispatchQueue.step, DispatchQueue.notifyAll] at h
    split at h
    · rename_i hcond
      obtain ⟨rfl, rfl⟩ := Prod.mk.inj (Except.ok.inj h)
      rw [Bool.and_eq_true, Bool.not_eq_true'] at hcond
      exact .rouses hcond.1 hcond.2
    · cases h

end Dispatch

end RcControl
