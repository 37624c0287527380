import Mathlib.Data.List.Basic

/-!
# MMAL statuses and queues

`MMAL_STATUS_T`, and `MMAL_QUEUE_T` as the list of what is in it, the first to come out in front. That
the linked headers amount to this list is `linked_refines`.
-/

namespace RcControl.Mmal

/-- `MMAL_STATUS_T`. -/
inductive Status where
  | success | enomem | enospc | einval | enosys | enoent | enxio | eio | espipe | ecorrupt
  | enotready | econfig | eisconn | enotconn | eagain | efault
  deriving DecidableEq

/-- `MMAL_QUEUE_T`. -/
abbrev Queue (α : Type) := List α

namespace Queue

variable {α : Type}

/-- `mmal_queue_put`. -/
def put (q : Queue α) (x : α) : Queue α := q ++ [x]

/-- `mmal_queue_put_back`. -/
def putBack (q : Queue α) (x : α) : Queue α := x :: q

/-- `mmal_queue_get`; `none` is the null pointer. -/
def get : Queue α → Option (α × Queue α)
  | [] => none
  | x :: q => some (x, q)

theorem get_eq_some {q q' : Queue α} {x : α} : q.get = some (x, q') ↔ q = x :: q' := by
  cases q with
  | nil => simp [get]
  | cons y q => simp [get]

end Queue

end RcControl.Mmal
