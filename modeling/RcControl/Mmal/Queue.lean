import RcControl.Lib.Links
import RcControl.Lib.Run
import RcControl.Mmal.Core
import Mathlib.Algebra.Ring.Nat

/-!
# The queue as it is linked

`MMAL_QUEUE_T` as `mmal_queue.c` keeps it: headers linked through their `next`, the first of them, where
the next one is to be linked, a length and a semaphore. Each operation has the lock from its start to
its end, and is one step here; its checks for null arguments are for callers that pass one, and only
`mmal_queue_length` has such a caller.

A queue that holds a list holds, after an operation, what the operation on lists leaves of it; so it is
for every run of operations (`linked_refines`).
-/

namespace RcControl.Mmal

open Lib.Links

/-- The `next` of each header; `none` is the null pointer. -/
abbrev Links (α : Type) := α → Option α

/-- `struct MMAL_QUEUE_T`. -/
structure LinkedQueue (α : Type) where
  length : BitVec 32
  first : Option α
  /-- The address of a pointer: `none` is `&queue->first`, and `some b` is `&b->next`. -/
  last : Option α
  /-- The count of the semaphore. -/
  semaphore : ℕ

inductive QueueFault where
  /-- `buffer->next` of a null `buffer`. -/
  | nullBuffer
  deriving DecidableEq

namespace LinkedQueue

section Update

variable {α : Type} [DecidableEq α]

/-- `mmal_queue_put`. -/
def put (q : LinkedQueue α) (next : Links α) (buffer : α) : Links α × LinkedQueue α :=
  match q.last with
  | none =>
    (Function.update next buffer none,
      { q with length := q.length + 1, first := some buffer, last := some buffer,
               semaphore := q.semaphore + 1 })
  | some x =>
    (Function.update (Function.update next x (some buffer)) buffer none,
      { q with length := q.length + 1, last := some buffer, semaphore := q.semaphore + 1 })

/-- `mmal_queue_put_back`. -/
def putBack (q : LinkedQueue α) (next : Links α) (buffer : α) : Links α × LinkedQueue α :=
  (Function.update next buffer q.first,
    { length := q.length + 1
      first := some buffer
      last := if q.last = none then some buffer else q.last
      semaphore := q.semaphore + 1 })

end Update

variable {α : Type}

/-- `mmal_queue_create`, where there is memory for it. -/
def create : LinkedQueue α where
  length := 0
  first := none
  last := none
  semaphore := 0

/-- `mmal_queue_get_core`. -/
def getCore (q : LinkedQueue α) (next : Links α) : Except QueueFault (α × LinkedQueue α) :=
  match q.first with
  | none => .error .nullBuffer
  | some buffer =>
    .ok (buffer, { q with length := q.length - 1
                          first := next buffer
                          last := if next buffer = none then none else q.last })

/-- `mmal_queue_get`. -/
def get (q : LinkedQueue α) (next : Links α) : Except QueueFault (Option α × LinkedQueue α) :=
  match q.semaphore with
  | 0 => .ok (none, q)
  | n + 1 =>
    match { q with semaphore := n }.getCore next with
    | .error f => .error f
    | .ok (buffer, q) => .ok (some buffer, q)

/-- `mmal_queue_length`. -/
def queueLength : Option (LinkedQueue α) → BitVec 32
  | none => 0
  | some q => q.length

end LinkedQueue

/-! ### What a queue holds -/

/-- The queue holds the list. -/
structure Holds {α : Type} (next : Links α) (q : LinkedQueue α) (l : Queue α) : Prop where
  linked : Linked next q.first l
  last : q.last = l.getLast?
  length : q.length.toNat = l.length
  semaphore : q.semaphore = l.length

section Operations

variable {α : Type} {next next' : Links α} {q : LinkedQueue α} {l : Queue α} {b : α}

lemma holds_create (next : Links α) : Holds next LinkedQueue.create [] :=
  ⟨rfl, rfl, rfl, rfl⟩

/-- Links of other headers do not matter. -/
lemma holds_congr (heq : ∀ c ∈ l, next' c = next c) (h : Holds next q l) : Holds next' q l :=
  { h with linked := linked_congr heq h.linked }

/-- A count below the range of `unsigned int` goes up by one. -/
lemma toNat_succ {n : BitVec 32} {k : ℕ} (h : n.toNat = k) (hk : k + 1 < 2 ^ 32) :
    (n + 1).toNat = k + 1 := by
  bv_omega

lemma get_nil (h : Holds next q []) : q.get next = .ok (none, q) := by
  simp [LinkedQueue.get, h.semaphore]

theorem holds_get (h : Holds next q (b :: l)) :
    ∃ q', q.get next = .ok (some b, q') ∧ Holds next q' l := by
  obtain ⟨hfirst, hlinked⟩ := h.linked
  have hsemaphore : q.semaphore = l.length + 1 := h.semaphore
  have hlength : q.length.toNat = l.length + 1 := h.length
  simp only [LinkedQueue.get, hsemaphore, LinkedQueue.getCore, hfirst]
  refine ⟨_, rfl, hlinked, ?_, by bv_omega, rfl⟩
  have hnext := linked_head hlinked
  cases l with
  | nil => simp [hnext]
  | cons c l => simp [hnext, h.last]

variable [DecidableEq α]

theorem holds_put (h : Holds next q l) (hb : b ∉ l) (hlt : l.length + 1 < 2 ^ 32) :
    Holds (q.put next b).1 (q.put next b).2 (l.put b) := by
  have hlength : (q.length + 1).toNat = (l ++ [b]).length := by
    simpa using toNat_succ h.length hlt
  have hsemaphore : q.semaphore + 1 = (l ++ [b]).length := by
    simp [h.semaphore]
  have hlast : some b = (l ++ [b]).getLast? := by simp
  rcases List.eq_nil_or_concat l with rfl | ⟨m, x, rfl⟩
  · have hnone : q.last = none := h.last
    have hnull : Function.update next b none b = none := by rw [Function.update_self]
    simp only [LinkedQueue.put, hnone]
    exact ⟨⟨rfl, hnull⟩, hlast, hlength, hsemaphore⟩
  · rw [List.concat_eq_append] at h hb hlast hlength hsemaphore ⊢
    have hx : q.last = some x := by simpa using h.last
    simp only [LinkedQueue.put, hx]
    exact ⟨linked_behind h.linked hb, hlast, hlength, hsemaphore⟩

theorem holds_putBack (h : Holds next q l) (hb : b ∉ l) (hlt : l.length + 1 < 2 ^ 32) :
    Holds (q.putBack next b).1 (q.putBack next b).2 (l.putBack b) where
  linked := linked_front h.linked hb
  last := by
    cases l with
    | nil => simp [LinkedQueue.putBack, Queue.putBack, h.last]
    | cons c l => simp [LinkedQueue.putBack, Queue.putBack, h.last]
  length := toNat_succ h.length hlt
  semaphore := congrArg (· + 1) h.semaphore

end Operations

/-! ### Runs -/

inductive QueueCall (α : Type) where
  | put (buffer : α)
  | putBack (buffer : α)
  | get
  | length

/-- What a call returns. -/
inductive Reply (α : Type) where
  | done
  | buffer (b : Option α)
  | length (n : ℕ)

section Runs

variable {α : Type}

/-- A call on the list. -/
def Queue.call (l : Queue α) : QueueCall α → Except QueueFault (Reply α × Queue α)
  | .put b => .ok (.done, l.put b)
  | .putBack b => .ok (.done, l.putBack b)
  | .get =>
    match l.get with
    | none => .ok (.buffer none, l)
    | some (b, l) => .ok (.buffer (some b), l)
  | .length => .ok (.length l.length, l)

variable [DecidableEq α]

/-- A call on the linked queue. -/
def LinkedQueue.call (u : Links α × LinkedQueue α) :
    QueueCall α → Except QueueFault (Reply α × (Links α × LinkedQueue α))
  | .put b => .ok (.done, u.2.put u.1 b)
  | .putBack b => .ok (.done, u.2.putBack u.1 b)
  | .get =>
    match u.2.get u.1 with
    | .error f => .error f
    | .ok (b, q) => .ok (.buffer b, (u.1, q))
  | .length => .ok (.length (queueLength (some u.2)).toNat, u)

/-- What is put into the queue is not in it, and there is room in its length. -/
def Fits (l : Queue α) : QueueCall α → Prop
  | .put b | .putBack b => b ∉ l ∧ l.length + 1 < 2 ^ 32
  | .get | .length => True

/-- **The linked queue is the queue of lists.** -/
theorem linked_refines {l : Queue α} {u : Links α × LinkedQueue α} {calls : List (QueueCall α)}
    (h : Holds u.1 u.2 l) (hfits : Lib.Run.Along Queue.call Fits l calls) :
    ∃ replies l' u', Lib.Run.run Queue.call l calls = .ok (replies, l') ∧
      Lib.Run.run LinkedQueue.call u calls = .ok (replies, u') ∧ Holds u'.1 u'.2 l' := by
  let R (l : Queue α) (u : Links α × LinkedQueue α) : Prop := Holds u.1 u.2 l
  refine Lib.Run.run_refines (R := R) ?_ h hfits
  rintro l ⟨next, q⟩ call h hfit
  cases call with
  | put b => exact ⟨_, _, _, rfl, rfl, holds_put h hfit.1 hfit.2⟩
  | putBack b => exact ⟨_, _, _, rfl, rfl, holds_putBack h hfit.1 hfit.2⟩
  | get =>
    cases l with
    | nil => exact ⟨_, _, _, rfl, by simp only [LinkedQueue.call, get_nil h], h⟩
    | cons b l =>
      obtain ⟨q', hq', h'⟩ := holds_get h
      exact ⟨_, _, (next, q'), rfl, by simp only [LinkedQueue.call, hq'], h'⟩
  | length => exact ⟨_, _, _, rfl, by rw [LinkedQueue.call, LinkedQueue.queueLength, h.length], h⟩

/-- **The queue that was created.** Whatever the links of the headers are at first, as long as no header is
put into it while it is there and it does not outgrow its length, each call on the linked queue returns what
it returns on the list, and no `mmal_queue_get` finds a null pointer behind its semaphore. -/
theorem created_refines (next : Links α) {calls : List (QueueCall α)}
    (hfits : Lib.Run.Along Queue.call Fits [] calls) :
    ∃ replies l u, Lib.Run.run Queue.call [] calls = .ok (replies, l) ∧
      Lib.Run.run LinkedQueue.call (next, LinkedQueue.create) calls = .ok (replies, u) ∧
      Holds u.1 u.2 l :=
  linked_refines (holds_create next) hfits

/-- One put at the end, one in front, and both taken out, over links that point anywhere. -/
theorem created_refines_two : ∃ replies l u,
    Lib.Run.run Queue.call [] [.put 1, .putBack 0, .get, .length, .get, .get] = .ok (replies, l) ∧
    Lib.Run.run LinkedQueue.call (fun _ => some 7, LinkedQueue.create)
      [.put 1, .putBack 0, .get, .length, .get, .get] = .ok (replies, u) ∧
    Holds u.1 u.2 l ∧
    replies = [.done, .done, .buffer (some 0), .length 1, .buffer (some 1), .buffer none] := by
  have hfits : Lib.Run.Along Queue.call Fits []
      [.put 1, .putBack 0, .get, .length, .get, .get] := by
    refine Lib.Run.along_cons_ok rfl ⟨List.not_mem_nil, by decide⟩ ?_
    refine Lib.Run.along_cons_ok rfl ⟨by decide, by decide⟩ ?_
    refine Lib.Run.along_cons_ok rfl trivial (Lib.Run.along_cons_ok rfl trivial ?_)
    exact Lib.Run.along_cons_ok rfl trivial (Lib.Run.along_cons_ok rfl trivial trivial)
  obtain ⟨replies, l, u, h, h', hholds⟩ := created_refines (fun _ => some 7) hfits
  exact ⟨replies, l, u, h, h', hholds, (Prod.mk.inj (Except.ok.inj h)).1.symm⟩

end Runs

end RcControl.Mmal
