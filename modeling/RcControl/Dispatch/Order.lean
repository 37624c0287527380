import RcControl.Dispatch.Model

/-!
# The order of the operations

The operations leave the queue in the order of the calls of `dispatch`, each once: taken by a thread or
removed (`fifo`). What the threads have taken they have finished or are running. With one thread, as
`MainThread` has, they finish in that order too (`serial`).
-/

namespace RcControl.Dispatch

open Lib Lib.Run
open scoped List

variable {α : Type*}

/-- The operations that the calls of `dispatch` among these events push. -/
def dispatched (es : List (Event α)) : List α :=
  es.filterMap fun
    | .push op => some op
    | _ => none

/-- The operations that leave the queue. -/
def taken (o : List (Did α)) : List α :=
  o.flatMap fun
    | .started op => [op]
    | .removed ops => ops
    | .finished _ => []

def started (o : List (Did α)) : List α :=
  o.flatMap fun
    | .started op => [op]
    | _ => []

def finished (o : List (Did α)) : List α :=
  o.flatMap fun
    | .finished op => [op]
    | _ => []

/-- The operation that a thread runs. -/
def Thread.inHand : Thread α → List α
  | .running op => [op]
  | _ => []

def inHand (d : DispatchQueue α) : List α := d.threads.flatMap Thread.inHand

@[simp] lemma inHand_create (n : ℕ) : inHand (DispatchQueue.create n : DispatchQueue α) = [] :=
  List.flatMap_eq_nil_iff.2 fun _ ht => by rw [List.eq_of_mem_replicate ht]; rfl

lemma inHand_map_roused (l : List (Thread α)) :
    (l.map Thread.roused).flatMap Thread.inHand = l.flatMap Thread.inHand := by
  rw [List.flatMap_map]
  refine List.flatMap_congr fun t _ => ?_
  cases t <;> rfl

section Step

variable {d d' : DispatchQueue α} {e : Event α} {o : List (Did α)}

/-- What was queued, and then what is pushed, is what is taken and then what is queued. -/
theorem queue_step (h : d.step e = .ok (o, d')) :
    d.queue ++ dispatched [e] = taken o ++ d'.queue := by
  cases does_of_step h with
  | starts i op ops hi hq hqueue => exact (List.append_nil _).trans hqueue
  | pushes op hfree => rfl
  | removes hfree => exact congrArg (· ++ []) (List.append_nil _).symm
  | _ => exact List.append_nil _

/-- What is started, and what was running, is what is finished and what is running. -/
theorem inHand_step (h : d.step e = .ok (o, d')) :
    (started o ++ inHand d).Perm (finished o ++ inHand d') := by
  cases does_of_step h with
  | locks i hfree hi => exact (Crew.flatMap_set hi .testing Thread.inHand).symm
  | leaves i hi hq => exact (Crew.flatMap_set hi .left Thread.inHand).symm
  | sleeps i hi hq hempty => exact (Crew.flatMap_set hi .sleeping Thread.inHand).symm
  | starts i op ops hi hq hqueue => exact (Crew.flatMap_set hi (.running op) Thread.inHand).symm
  | finishes i op hi => exact (Crew.flatMap_set hi .locking Thread.inHand).symm
  | wakes i hi => exact (Crew.flatMap_set hi .locking Thread.inHand).symm
  | notifies i n hn hi => exact (Crew.flatMap_set hi .locking Thread.inHand).symm
  | rouses hq hj => exact .of_eq (inHand_map_roused d.threads).symm
  | _ => exact .refl _

theorem length_step (h : d.step e = .ok (o, d')) : d'.threads.length = d.threads.length := by
  cases does_of_step h <;> simp [DispatchQueue.place]

/-- Without `removePending` what is taken is started. -/
lemma taken_step (h : d.step e = .ok (o, d')) (he : e ≠ .removePending) : taken o = started o := by
  cases does_of_step h with
  | removes hfree => exact absurd rfl he
  | _ => rfl

/-- One thread finishes what it runs before it starts something. -/
theorem inHand_step_one {t : Thread α} (ht : d.threads = [t]) (h : d.step e = .ok (o, d')) :
    inHand d ++ started o = finished o ++ inHand d' := by
  have hone : ∀ {i : ℕ} {a : Thread α}, d.threads[i]? = some a → i = 0 ∧ t = a := by
    intro i a hi
    rw [ht] at hi
    obtain ⟨hlt, rfl⟩ := List.getElem?_eq_some_iff.1 hi
    exact ⟨by simpa using hlt, by simp⟩
  have hset : ∀ {i : ℕ} {a : Thread α} (b : Thread α), d.threads[i]? = some a →
      inHand d = a.inHand ∧ (d.threads.set i b).flatMap Thread.inHand = b.inHand := by
    intro i a b hi
    obtain ⟨rfl, rfl⟩ := hone hi
    simp [inHand, ht]
  cases does_of_step h with
  | locks i hfree hi => exact (congrArg (· ++ []) (hset .testing hi).1).trans (hset .testing hi).2.symm
  | leaves i hi hq => exact (congrArg (· ++ []) (hset .left hi).1).trans (hset .left hi).2.symm
  | sleeps i hi hq hempty =>
    exact (congrArg (· ++ []) (hset .sleeping hi).1).trans (hset .sleeping hi).2.symm
  | starts i op ops hi hq hqueue =>
    exact (congrArg (· ++ [op]) (hset (.running op) hi).1).trans (hset (.running op) hi).2.symm
  | finishes i op hi =>
    exact (congrArg (· ++ []) (hset .locking hi).1).trans (congrArg ([op] ++ ·) (hset .locking hi).2.symm)
  | wakes i hi => exact (congrArg (· ++ []) (hset .locking hi).1).trans (hset .locking hi).2.symm
  | notifies i n hn hi =>
    exact (congrArg (· ++ []) (hset .locking hi).1).trans (hset .locking hi).2.symm
  | rouses hq hj => exact (List.append_nil _).trans (inHand_map_roused d.threads).symm
  | _ => exact List.append_nil _

end Step

section Run

variable {d : DispatchQueue α} {n : ℕ} {es es' : List (Event α)} {os : List (List (Did α))}

lemma dispatched_append : dispatched (es ++ es') = dispatched es ++ dispatched es' :=
  List.filterMap_append ..

theorem queue_run (h : run DispatchQueue.step (.create n) es = .ok (os, d)) :
    dispatched es = os.flatMap taken ++ d.queue := by
  refine history_run (J := fun es os d => dispatched es = os.flatMap taken ++ d.queue) rfl ?_ h
  intro es os d e o d' _ hqueue hstep
  rw [dispatched_append, hqueue, List.append_assoc, queue_step hstep, List.flatMap_append,
    List.flatMap_singleton, List.append_assoc]

theorem inHand_run (h : run DispatchQueue.step (.create n) es = .ok (os, d)) :
    os.flatMap started ~ os.flatMap finished ++ inHand d := by
  have hperm := perm_run (fun s e o s' hs => List.perm_append_comm.trans (inHand_step hs)) h
  rwa [inHand_create, List.nil_append] at hperm

/-- Only the destructor quits. -/
lemma quit_run (hes : .setQuit ∉ es) (h : run DispatchQueue.step (.create n) es = .ok (os, d)) :
    d.quit = false := by
  refine history_run (J := fun es _ d => .setQuit ∉ es → d.quit = false) (fun _ => rfl) ?_ h hes
  intro es os d e o d' _ hquit hstep hes
  rw [List.mem_append, not_or, List.mem_singleton] at hes
  have hq := hquit hes.1
  cases does_of_step hstep with
  | quits hfree => exact absurd rfl hes.2
  | _ => exact hq

/-- **First in, first out.** After every run the operations dispatched are those taken, in their order,
and then those in the queue; and those started are the ones finished and the ones that threads run. -/
theorem fifo (h : run DispatchQueue.step (.create n) es = .ok (os, d)) :
    dispatched es = os.flatMap taken ++ d.queue ∧
      os.flatMap started ~ os.flatMap finished ++ inHand d :=
  ⟨queue_run h, inHand_run h⟩

/-- Two threads, each with an operation in hand, while a third waits. -/
theorem fifo_twoThreads : ∃ os d, run DispatchQueue.step (.create 2)
      [.push 1, .push 2, .push 3, .lock 1, .test 1, .lock 0, .test 0, .finish 0] = .ok (os, d) ∧
    [1, 2, 3] = os.flatMap taken ++ d.queue ∧
      os.flatMap started ~ os.flatMap finished ++ inHand d := by
  obtain ⟨os, d, h⟩ : ∃ os d, run DispatchQueue.step (.create 2)
      [.push 1, .push 2, .push 3, .lock 1, .test 1, .lock 0, .test 0, .finish 0] = .ok (os, d) :=
    ⟨_, _, rfl⟩
  exact ⟨os, d, h, fifo h⟩

theorem taken_run_one (hes : .removePending ∉ es)
    (h : run DispatchQueue.step (.create 1) es = .ok (os, d)) :
    (∃ t, d.threads = [t]) ∧ os.flatMap taken = os.flatMap finished ++ inHand d := by
  have hall : (∃ t, d.threads = [t]) ∧ (.removePending ∉ es →
      os.flatMap taken = os.flatMap finished ++ inHand d) := by
    refine history_run (J := fun es os d => (∃ t, d.threads = [t]) ∧ (.removePending ∉ es →
      os.flatMap taken = os.flatMap finished ++ inHand d)) ⟨⟨_, rfl⟩, fun _ => rfl⟩ ?_ h
    rintro es os d e o d' - ⟨⟨t, ht⟩, htaken⟩ hstep
    refine ⟨List.length_eq_one_iff.1 ?_, fun hes => ?_⟩
    · rw [length_step hstep, ht]
      rfl
    · rw [List.mem_append, not_or, List.mem_singleton] at hes
      simp only [List.flatMap_append, List.flatMap_singleton]
      rw [htaken hes.1, taken_step hstep (Ne.symm hes.2), List.append_assoc, inHand_step_one ht hstep,
        List.append_assoc]
  exact ⟨hall.1, hall.2 hes⟩

/-- **One after the other.** A single thread finishes the operations in the order they are dispatched. -/
theorem serial (hes : .removePending ∉ es) (h : run DispatchQueue.step (.create 1) es = .ok (os, d)) :
    dispatched es = os.flatMap finished ++ inHand d ++ d.queue ∧ (inHand d).length ≤ 1 := by
  obtain ⟨⟨t, ht⟩, htaken⟩ := taken_run_one hes h
  refine ⟨by rw [queue_run h, htaken], ?_⟩
  rw [inHand, ht, List.flatMap_singleton]
  cases t with
  | running op => exact Nat.le_refl 1
  | _ => exact Nat.zero_le 1

/-- The first operation has returned, the second runs, and the third waits. -/
theorem serial_threeOperations : ∃ os d, run DispatchQueue.step (.create 1)
      [.lock 0, .test 0, .push 1, .push 2, .notifyOne (some 0), .notifyOne none, .lock 0, .test 0, .push 3,
        .finish 0, .lock 0, .test 0] = .ok (os, d) ∧
    [1, 2, 3] = os.flatMap finished ++ inHand d ++ d.queue ∧ (inHand d).length ≤ 1 := by
  obtain ⟨os, d, h⟩ : ∃ os d, run DispatchQueue.step (.create 1)
      [.lock 0, .test 0, .push 1, .push 2, .notifyOne (some 0), .notifyOne none, .lock 0, .test 0, .push 3,
        .finish 0, .lock 0, .test 0] = .ok (os, d) := ⟨_, _, rfl⟩
  exact ⟨os, d, h, serial (by simp) h⟩

end Run

end RcControl.Dispatch
