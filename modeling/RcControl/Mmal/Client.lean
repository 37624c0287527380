import RcControl.Lib.Crew
import RcControl.Lib.Run

/-!
# Messages to VideoCore

`mmal_vc_client.c`: any number of threads send messages to VideoCore, and those that want a reply wait for
it in one of sixteen waiters, whose address the message carries there and back. What is done under a mutex
is one step, but for the search for a waiter, which goes on by one waiter at a time: a waiter is given back
without the mutex. An assertion that fails is logged, and the code goes on.

VideoCore is what it may do: it reads what it is sent in its order, and answers each message that asks for
a reply when it likes, once. A call is its number; what the messages carry besides is not looked at here.
-/

namespace RcControl.Mmal.Client

/-- `MAX_WAITERS`. -/
def maxWaiters : ℕ := 16

variable {β : Type*}

/-- `MMAL_WAITER_T`. -/
structure Waiter where
  sem : ℕ
  inuse : Bool
  /-- The call whose buffer the reply goes to. -/
  dest : ℕ
  destlen : ℕ

/-- A call of `mmal_vc_sendwait_message`. -/
structure Call where
  number : ℕ
  destlen : ℕ
  sendDummyBulk : Bool

/-- Where a thread is. -/
inductive Thread where
  | idle
  /-- At the mutex of the bulk transfers. -/
  | bulkLock (c : Call)
  /-- In `get_waiter`, at the semaphore of the pool. -/
  | sem (c : Call)
  /-- In `get_waiter`, at the mutex. -/
  | lock (c : Call)
  /-- In `get_waiter`, at a waiter. -/
  | scan (c : Call) (i : ℕ)
  /-- At `mmal_vc_use_internal`. -/
  | use (c : Call) (i : ℕ)
  /-- At `vchiq_queue_message`. -/
  | queue (c : Call) (i : ℕ)
  /-- At `vchiq_queue_bulk_transmit`. -/
  | bulk (c : Call) (i : ℕ)
  /-- At the semaphore of its waiter. -/
  | wait (c : Call) (i : ℕ)
  /-- At `mmal_vc_release_internal`, with or without a reply. -/
  | release (c : Call) (i : ℕ) (ok : Bool)
  /-- In `release_waiter`. -/
  | free (c : Call) (i : ℕ) (ok : Bool)
  /-- In `release_waiter`, at the semaphore of the pool, with the length of the reply. -/
  | post (c : Call) (reply : Option ℕ)
  /-- In `mmal_vc_send_message`, at the mutex of the bulk transfers. -/
  | sendLock (number : ℕ)
  /-- In `mmal_vc_send_message`, at `vchiq_queue_message`. -/
  | sendQueue (number : ℕ) (bulk : Bool)
  /-- In `mmal_vc_send_message`, at `vchiq_queue_bulk_transmit`. -/
  | sendBulk (number : ℕ)

/-- A message that asks for a reply. -/
structure Request where
  waiter : ℕ
  call : ℕ
  deriving DecidableEq

/-- What VCHIQ is given. -/
inductive Item where
  | request (r : Request) (bulk : Bool)
  | message (number : ℕ) (bulk : Bool)
  | bulk (number : ℕ)
  deriving DecidableEq

/-- What there is to see of a step. -/
inductive Note (β : Type*) where
  | calls (number : ℕ)
  | queues (x : Item)
  /-- A call of `mmal_vc_sendwait_message` returns: with `MMAL_EIO`, or with the length and what is in the
  buffer. -/
  | returns (c : Call) (reply : Option (ℕ × List β))
  /-- A call of `mmal_vc_send_message` returns. -/
  | sent (number : ℕ) (ok : Bool)
  /-- `vcos_assert(waiter->inuse)` fails. -/
  | notInuse
  /-- `vcos_assert(0)`: the bulk transfer failed after its message was queued. -/
  | bulkFailed (number : ℕ)

inductive Event (β : Type*) where
  /-- A thread calls `mmal_vc_sendwait_message`. -/
  | sendwait (t : ℕ) (destlen : ℕ) (sendDummyBulk : Bool)
  /-- A thread calls `mmal_vc_send_message`, with data or without. -/
  | send (t : ℕ) (bulk : Bool)
  /-- A thread goes on; `ok` is what VCHIQ says to it. -/
  | go (t : ℕ) (ok : Bool)
  /-- `mmal_vc_use` and `mmal_vc_release`, called from elsewhere. -/
  | vcUse (ok : Bool)
  | vcRelease (ok : Bool)
  /-- VideoCore reads the next of what it was sent. -/
  | reads
  /-- VideoCore answers a message that it has read. -/
  | answers (r : Request) (payload : List β)
  /-- VCHIQ calls back with the next answer. -/
  | callback

inductive Fault where
  /-- The event is none that can happen now. -/
  | blocked
  /-- A null waiter is written to, as `vcos_verify(i != MAX_WAITERS)` failed, or one that is none. -/
  | noWaiter
  deriving DecidableEq

end RcControl.Mmal.Client

namespace RcControl.Mmal

open Client

/-- `MMAL_CLIENT_T`, with its threads and what is on its way. -/
structure Client (β : Type*) where
  threads : List Thread
  waiters : List Waiter
  /-- The semaphore of the pool of waiters. -/
  sem : ℕ
  lock : Bool
  bulkLock : Bool
  usecount : ℤ
  /-- VCHIQ has the service in use. -/
  used : Bool
  /-- The calls of `mmal_vc_use` that have not been undone. -/
  users : ℕ
  /-- What VideoCore has not read yet. -/
  wire : List Item
  /-- What VideoCore has not answered yet. -/
  asked : List Request
  /-- The answers that VCHIQ has not called back with yet. -/
  replies : List (Request × List β)
  /-- The answers that VideoCore has given. -/
  answered : List (ℕ × List β)
  /-- What is in the buffers of the calls. -/
  memory : ℕ → List β
  /-- The number of the next call. -/
  next : ℕ

namespace Client

variable {β : Type*}

/-- After `mmal_vc_init`. -/
def create (n : ℕ) : Client β where
  threads := List.replicate n .idle
  waiters := List.replicate maxWaiters ⟨0, false, 0, 0⟩
  sem := maxWaiters
  lock := false
  bulkLock := false
  usecount := 0
  used := false
  users := 0
  wire := []
  asked := []
  replies := []
  answered := []
  memory _ := []
  next := 0

/-- A thread goes to another place. -/
def place (s : Client β) (t : ℕ) (p : Thread) : Client β := { s with threads := s.threads.set t p }

/-- What one does who takes the mutex of the client and gives it up again. -/
def locked (s : Client β) (os : List (Note β)) (s' : Client β) : Except Fault (List (Note β) × Client β) :=
  if s.lock then .error .blocked else .ok (os, s')

/-- `mmal_vc_use_internal`: `ok` is what VCHIQ says to the first who uses the service. -/
def useInternal (s : Client β) (ok : Bool) : Client β :=
  { s with
    usecount := if s.usecount = 0 ∧ ok = false then s.usecount else s.usecount + 1
    used := if s.usecount = 0 ∧ ok = true then true else s.used }

/-- `mmal_vc_release_internal`: `ok` is what VCHIQ says to the last. -/
def releaseInternal (s : Client β) (ok : Bool) : Client β :=
  { s with
    usecount := if s.usecount - 1 = 0 ∧ ok = false then s.usecount else s.usecount - 1
    used := if s.usecount - 1 = 0 ∧ ok = true then false else s.used }

/-- `get_waiter` at a waiter, and what is written to the waiter that it finds. -/
def scan (s : Client β) (t : ℕ) (c : Call) (i : ℕ) : Except Fault (List (Note β) × Client β) :=
  match s.waiters[i]? with
  | none => .error .noWaiter
  | some w =>
    if w.inuse then .ok ([], s.place t (.scan c (i + 1)))
    else
      .ok ([], { s.place t (.use c i) with
        lock := false
        waiters := s.waiters.set i { w with inuse := true, dest := c.number, destlen := c.destlen } })

/-- `vchiq_queue_message` in `mmal_vc_sendwait_message`. -/
def queue (s : Client β) (t : ℕ) (c : Call) (i : ℕ) (ok : Bool) : List (Note β) × Client β :=
  if ok then
    let x := .request ⟨i, c.number⟩ c.sendDummyBulk
    ([.queues x], { s.place t (if c.sendDummyBulk then .bulk c i else .wait c i) with wire := s.wire ++ [x] })
  else
    ([], { s.place t (.release c i false) with bulkLock := s.bulkLock && !c.sendDummyBulk })

/-- The wait for the reply. -/
def wait (s : Client β) (t : ℕ) (c : Call) (i : ℕ) : Except Fault (List (Note β) × Client β) :=
  match s.waiters[i]? with
  | some ⟨n + 1, inuse, dest, destlen⟩ =>
    .ok ([], { s.place t (.release c i true) with waiters := s.waiters.set i ⟨n, inuse, dest, destlen⟩ })
  | _ => .error .blocked

/-- `*destlen = waiter->destlen`, and `release_waiter` up to its post. -/
def free (s : Client β) (t : ℕ) (c : Call) (i : ℕ) (ok : Bool) : Except Fault (List (Note β) × Client β) :=
  match s.waiters[i]? with
  | some w =>
    .ok (if w.inuse then [] else [.notInuse], { s.place t (.post c (if ok then some w.destlen else none)) with
      waiters := s.waiters.set i { w with inuse := false } })
  | none => .error .noWaiter

/-- `vchiq_queue_message` in `mmal_vc_send_message`. -/
def sendQueue (s : Client β) (t : ℕ) (number : ℕ) (bulk ok : Bool) : List (Note β) × Client β :=
  if ok then
    let x := .message number bulk
    if bulk then ([.queues x], { s.place t (.sendBulk number) with wire := s.wire ++ [x] })
    else ([.queues x, .sent number true], { s.place t .idle with wire := s.wire ++ [x] })
  else ([.sent number false], { s.place t .idle with bulkLock := s.bulkLock && !bulk })

def go (s : Client β) (t : ℕ) (ok : Bool) : Except Fault (List (Note β) × Client β) :=
  match s.threads[t]? with
  | some (.bulkLock c) =>
    if s.bulkLock then .error .blocked else .ok ([], { s.place t (.sem c) with bulkLock := true })
  | some (.sem c) =>
    match s.sem with
    | n + 1 => .ok ([], { s.place t (.lock c) with sem := n })
    | 0 => .error .blocked
  | some (.lock c) => s.locked [] { s.place t (.scan c 0) with lock := true }
  | some (.scan c i) => s.scan t c i
  | some (.use c i) => s.locked [] ((s.useInternal ok).place t (.queue c i))
  | some (.queue c i) => .ok (s.queue t c i ok)
  | some (.bulk c i) =>
    if ok then
      .ok ([.queues (.bulk c.number)],
        { s.place t (.wait c i) with wire := s.wire ++ [.bulk c.number], bulkLock := false })
    else .ok ([.bulkFailed c.number], { s.place t (.release c i false) with bulkLock := false })
  | some (.wait c i) => s.wait t c i
  | some (.release c i reply) => s.locked [] ((s.releaseInternal ok).place t (.free c i reply))
  | some (.free c i reply) => s.free t c i reply
  | some (.post c reply) =>
    .ok ([.returns c (reply.map fun len => (len, s.memory c.number))],
      { s.place t .idle with sem := s.sem + 1 })
  | some (.sendLock number) =>
    if s.bulkLock then .error .blocked
    else .ok ([], { s.place t (.sendQueue number true) with bulkLock := true })
  | some (.sendQueue number bulk) => .ok (s.sendQueue t number bulk ok)
  | some (.sendBulk number) =>
    if ok then
      .ok ([.queues (.bulk number), .sent number true],
        { s.place t .idle with wire := s.wire ++ [.bulk number], bulkLock := false })
    else .ok ([.bulkFailed number, .sent number false], { s.place t .idle with bulkLock := false })
  | some .idle | none => .error .blocked

/-- A call comes to a thread that is idle. -/
def enter (s : Client β) (t : ℕ) (p : Thread) : Except Fault (List (Note β) × Client β) :=
  match s.threads[t]? with
  | some .idle => .ok ([.calls s.next], { s.place t p with next := s.next + 1 })
  | _ => .error .blocked

def reads (s : Client β) : Except Fault (List (Note β) × Client β) :=
  match s.wire with
  | .request r _ :: wire => .ok ([], { s with wire := wire, asked := s.asked ++ [r] })
  | _ :: wire => .ok ([], { s with wire := wire })
  | [] => .error .blocked

/-- `mmal_vc_vchiq_callback`, with an answer to a message. -/
def callback (s : Client β) : Except Fault (List (Note β) × Client β) :=
  match s.replies with
  | (r, payload) :: replies =>
    match s.waiters[r.waiter]? with
    | some w =>
      let len := min w.destlen payload.length
      .ok (if w.inuse then [] else [.notInuse], { s with
        replies := replies
        waiters := s.waiters.set r.waiter { w with sem := w.sem + 1, destlen := len }
        memory := Function.update s.memory w.dest (payload.take len) })
    | none => .error .noWaiter
  | [] => .error .blocked

def step (s : Client β) : Event β → Except Fault (List (Note β) × Client β)
  | .sendwait t destlen bulk =>
    let c := ⟨s.next, destlen, bulk⟩
    s.enter t (if bulk then .bulkLock c else .sem c)
  | .send t bulk => s.enter t (if bulk then .sendLock s.next else .sendQueue s.next false)
  | .go t ok => s.go t ok
  | .vcUse ok =>
    s.locked [] { s.useInternal ok with users := s.users + if s.usecount = 0 ∧ ok = false then 0 else 1 }
  | .vcRelease ok =>
    match s.users with
    | n + 1 => s.locked [] { s.releaseInternal ok with users := n }
    | 0 => .error .blocked
  | .reads => s.reads
  | .answers r payload =>
    if r ∈ s.asked then
      .ok ([], { s with
        asked := s.asked.erase r
        replies := s.replies ++ [(r, payload)]
        answered := s.answered ++ [(r.call, payload)] })
    else .error .blocked
  | .callback => s.callback

/-! ### What a step does -/

variable {s s' : Client β} {e : Event β} {o : List (Note β)}

inductive Does (s : Client β) : Event β → List (Note β) → Client β → Prop
  | sendwait (t destlen : ℕ) (bulk : Bool) (ht : s.threads[t]? = some .idle) :
      Does s (.sendwait t destlen bulk) [.calls s.next]
        { s.place t (if bulk then .bulkLock ⟨s.next, destlen, bulk⟩ else .sem ⟨s.next, destlen, bulk⟩) with
          next := s.next + 1 }
  | send (t : ℕ) (bulk : Bool) (ht : s.threads[t]? = some .idle) :
      Does s (.send t bulk) [.calls s.next]
        { s.place t (if bulk then .sendLock s.next else .sendQueue s.next false) with next := s.next + 1 }
  | locksBulk (t : ℕ) (ok : Bool) (c : Call) (ht : s.threads[t]? = some (.bulkLock c))
      (hfree : s.bulkLock = false) :
      Does s (.go t ok) [] { s.place t (.sem c) with bulkLock := true }
  | takesSem (t : ℕ) (ok : Bool) (c : Call) (n : ℕ) (ht : s.threads[t]? = some (.sem c))
      (hn : s.sem = n + 1) :
      Does s (.go t ok) [] { s.place t (.lock c) with sem := n }
  | locks (t : ℕ) (ok : Bool) (c : Call) (ht : s.threads[t]? = some (.lock c)) (hfree : s.lock = false) :
      Does s (.go t ok) [] { s.place t (.scan c 0) with lock := true }
  | passes (t : ℕ) (ok : Bool) (c : Call) (i : ℕ) (w : Waiter) (ht : s.threads[t]? = some (.scan c i))
      (hw : s.waiters[i]? = some w) (hin : w.inuse = true) :
      Does s (.go t ok) [] (s.place t (.scan c (i + 1)))
  | takes (t : ℕ) (ok : Bool) (c : Call) (i : ℕ) (w : Waiter) (ht : s.threads[t]? = some (.scan c i))
      (hw : s.waiters[i]? = some w) (hin : w.inuse = false) :
      Does s (.go t ok) [] { s.place t (.use c i) with
        lock := false
        waiters := s.waiters.set i { w with inuse := true, dest := c.number, destlen := c.destlen } }
  | uses (t : ℕ) (ok : Bool) (c : Call) (i : ℕ) (ht : s.threads[t]? = some (.use c i))
      (hfree : s.lock = false) :
      Does s (.go t ok) [] ((s.useInternal ok).place t (.queue c i))
  | queues (t : ℕ) (c : Call) (i : ℕ) (ht : s.threads[t]? = some (.queue c i)) :
      Does s (.go t true) [.queues (.request ⟨i, c.number⟩ c.sendDummyBulk)]
        { s.place t (if c.sendDummyBulk then .bulk c i else .wait c i) with
          wire := s.wire ++ [.request ⟨i, c.number⟩ c.sendDummyBulk] }
  | fails (t : ℕ) (c : Call) (i : ℕ) (ht : s.threads[t]? = some (.queue c i)) :
      Does s (.go t false) []
        { s.place t (.release c i false) with bulkLock := s.bulkLock && !c.sendDummyBulk }
  | bulks (t : ℕ) (c : Call) (i : ℕ) (ht : s.threads[t]? = some (.bulk c i)) :
      Does s (.go t true) [.queues (.bulk c.number)]
        { s.place t (.wait c i) with wire := s.wire ++ [.bulk c.number], bulkLock := false }
  | bulkFails (t : ℕ) (c : Call) (i : ℕ) (ht : s.threads[t]? = some (.bulk c i)) :
      Does s (.go t false) [.bulkFailed c.number] { s.place t (.release c i false) with bulkLock := false }
  | wakes (t : ℕ) (ok : Bool) (c : Call) (i : ℕ) (w : Waiter) (n : ℕ)
      (ht : s.threads[t]? = some (.wait c i)) (hw : s.waiters[i]? = some w) (hn : w.sem = n + 1) :
      Does s (.go t ok) []
        { s.place t (.release c i true) with waiters := s.waiters.set i { w with sem := n } }
  | releases (t : ℕ) (ok : Bool) (c : Call) (i : ℕ) (reply : Bool)
      (ht : s.threads[t]? = some (.release c i reply)) (hfree : s.lock = false) :
      Does s (.go t ok) [] ((s.releaseInternal ok).place t (.free c i reply))
  | frees (t : ℕ) (ok : Bool) (c : Call) (i : ℕ) (reply : Bool) (w : Waiter)
      (ht : s.threads[t]? = some (.free c i reply)) (hw : s.waiters[i]? = some w) :
      Does s (.go t ok) (if w.inuse then [] else [.notInuse])
        { s.place t (.post c (if reply then some w.destlen else none)) with
          waiters := s.waiters.set i { w with inuse := false } }
  | posts (t : ℕ) (ok : Bool) (c : Call) (reply : Option ℕ) (ht : s.threads[t]? = some (.post c reply)) :
      Does s (.go t ok) [.returns c (reply.map fun len => (len, s.memory c.number))]
        { s.place t .idle with sem := s.sem + 1 }
  | sendLocks (t : ℕ) (ok : Bool) (number : ℕ) (ht : s.threads[t]? = some (.sendLock number))
      (hfree : s.bulkLock = false) :
      Does s (.go t ok) [] { s.place t (.sendQueue number true) with bulkLock := true }
  | sendQueues (t : ℕ) (number : ℕ) (ht : s.threads[t]? = some (.sendQueue number true)) :
      Does s (.go t true) [.queues (.message number true)]
        { s.place t (.sendBulk number) with wire := s.wire ++ [.message number true] }
  | sends (t : ℕ) (number : ℕ) (ht : s.threads[t]? = some (.sendQueue number false)) :
      Does s (.go t true) [.queues (.message number false), .sent number true]
        { s.place t .idle with wire := s.wire ++ [.message number false] }
  | sendFails (t : ℕ) (number : ℕ) (bulk : Bool) (ht : s.threads[t]? = some (.sendQueue number bulk)) :
      Does s (.go t false) [.sent number false]
        { s.place t .idle with bulkLock := s.bulkLock && !bulk }
  | sendBulks (t : ℕ) (number : ℕ) (ht : s.threads[t]? = some (.sendBulk number)) :
      Does s (.go t true) [.queues (.bulk number), .sent number true]
        { s.place t .idle with wire := s.wire ++ [.bulk number], bulkLock := false }
  | sendBulkFails (t : ℕ) (number : ℕ) (ht : s.threads[t]? = some (.sendBulk number)) :
      Does s (.go t false) [.bulkFailed number, .sent number false] { s.place t .idle with bulkLock := false }
  | vcUses (ok : Bool) (hfree : s.lock = false) :
      Does s (.vcUse ok) []
        { s.useInternal ok with users := s.users + if s.usecount = 0 ∧ ok = false then 0 else 1 }
  | vcReleases (ok : Bool) (n : ℕ) (hn : s.users = n + 1) (hfree : s.lock = false) :
      Does s (.vcRelease ok) [] { s.releaseInternal ok with users := n }
  | readsRequest (r : Request) (bulk : Bool) (wire : List Item) (hwire : s.wire = .request r bulk :: wire) :
      Does s .reads [] { s with wire := wire, asked := s.asked ++ [r] }
  | reads (x : Item) (wire : List Item) (hwire : s.wire = x :: wire) (hx : ∀ r bulk, x ≠ .request r bulk) :
      Does s .reads [] { s with wire := wire }
  | answers (r : Request) (payload : List β) (hr : r ∈ s.asked) :
      Does s (.answers r payload) [] { s with
        asked := s.asked.erase r
        replies := s.replies ++ [(r, payload)]
        answered := s.answered ++ [(r.call, payload)] }
  | calledBack (r : Request) (payload : List β) (replies : List (Request × List β)) (w : Waiter)
      (hreplies : s.replies = (r, payload) :: replies) (hw : s.waiters[r.waiter]? = some w) :
      Does s .callback (if w.inuse then [] else [.notInuse]) { s with
        replies := replies
        waiters := s.waiters.set r.waiter
          { w with sem := w.sem + 1, destlen := min w.destlen payload.length }
        memory := Function.update s.memory w.dest (payload.take (min w.destlen payload.length)) }

lemma locked_eq_ok {os : List (Note β)} {x : Client β} :
    s.locked os x = .ok (o, s') ↔ s.lock = false ∧ os = o ∧ x = s' := by
  unfold locked
  split <;> simp_all

lemma enter_eq_ok {t : ℕ} {p : Thread} : s.enter t p = .ok (o, s') ↔
    s.threads[t]? = some .idle ∧ [.calls s.next] = o ∧ { s.place t p with next := s.next + 1 } = s' := by
  unfold enter
  split
  · simp_all
  · simp_all

lemma does_of_go {t : ℕ} {ok : Bool} (h : s.go t ok = .ok (o, s')) : Does s (.go t ok) o s' := by
  unfold go at h
  split at h
  case h_1 c ht =>
    split at h
    · cases h
    · obtain ⟨rfl, rfl⟩ := Prod.mk.inj (Except.ok.inj h)
      exact .locksBulk t ok c ht (Bool.eq_false_iff.2 ‹¬_›)
  case h_2 c ht =>
    split at h
    · obtain ⟨rfl, rfl⟩ := Prod.mk.inj (Except.ok.inj h)
      exact .takesSem t ok c _ ht ‹_›
    · cases h
  case h_3 c ht =>
    obtain ⟨hfree, rfl, rfl⟩ := locked_eq_ok.1 h
    exact .locks t ok c ht hfree
  case h_4 c i ht =>
    unfold scan at h
    split at h
    · cases h
    · rename_i w hw
      split at h <;> obtain ⟨rfl, rfl⟩ := Prod.mk.inj (Except.ok.inj h)
      · exact .passes t ok c i w ht hw ‹_›
      · exact .takes t ok c i w ht hw (Bool.eq_false_iff.2 ‹¬_›)
  case h_5 c i ht =>
    obtain ⟨hfree, rfl, rfl⟩ := locked_eq_ok.1 h
    exact .uses t ok c i ht hfree
  case h_6 c i ht =>
    cases ok <;> obtain ⟨rfl, rfl⟩ := Prod.mk.inj (Except.ok.inj h)
    · exact .fails t c i ht
    · exact .queues t c i ht
  case h_7 c i ht =>
    cases ok <;> obtain ⟨rfl, rfl⟩ := Prod.mk.inj (Except.ok.inj h)
    · exact .bulkFails t c i ht
    · exact .bulks t c i ht
  case h_8 c i ht =>
    unfold wait at h
    split at h
    · obtain ⟨rfl, rfl⟩ := Prod.mk.inj (Except.ok.inj h)
      exact .wakes t ok c i _ _ ht ‹_› rfl
    · cases h
  case h_9 c i reply ht =>
    obtain ⟨hfree, rfl, rfl⟩ := locked_eq_ok.1 h
    exact .releases t ok c i reply ht hfree
  case h_10 c i reply ht =>
    unfold free at h
    split at h
    · obtain ⟨rfl, rfl⟩ := Prod.mk.inj (Except.ok.inj h)
      exact .frees t ok c i reply _ ht ‹_›
    · cases h
  case h_11 c reply ht =>
    obtain ⟨rfl, rfl⟩ := Prod.mk.inj (Except.ok.inj h)
    exact .posts t ok c reply ht
  case h_12 number ht =>
    split at h
    · cases h
    · obtain ⟨rfl, rfl⟩ := Prod.mk.inj (Except.ok.inj h)
      exact .sendLocks t ok number ht (Bool.eq_false_iff.2 ‹¬_›)
  case h_13 number bulk ht =>
    cases ok
    · obtain ⟨rfl, rfl⟩ := Prod.mk.inj (Except.ok.inj h)
      exact .sendFails t number bulk ht
    · cases bulk <;> obtain ⟨rfl, rfl⟩ := Prod.mk.inj (Except.ok.inj h)
      · exact .sends t number ht
      · exact .sendQueues t number ht
  case h_14 number ht =>
    cases ok <;> obtain ⟨rfl, rfl⟩ := Prod.mk.inj (Except.ok.inj h)
    · exact .sendBulkFails t number ht
    · exact .sendBulks t number ht
  all_goals cases h

theorem does_of_step (h : s.step e = .ok (o, s')) : Does s e o s' := by
  cases e with
  | sendwait t destlen bulk =>
    obtain ⟨ht, rfl, rfl⟩ := enter_eq_ok.1 h
    exact .sendwait t destlen bulk ht
  | send t bulk =>
    obtain ⟨ht, rfl, rfl⟩ := enter_eq_ok.1 h
    exact .send t bulk ht
  | go t ok => exact does_of_go h
  | vcUse ok =>
    obtain ⟨hfree, rfl, rfl⟩ := locked_eq_ok.1 h
    exact .vcUses ok hfree
  | vcRelease ok =>
    simp only [step] at h
    split at h
    · obtain ⟨hfree, rfl, rfl⟩ := locked_eq_ok.1 h
      exact .vcReleases ok _ ‹_› hfree
    · cases h
  | reads =>
    simp only [step, Client.reads] at h
    split at h
    · obtain ⟨rfl, rfl⟩ := Prod.mk.inj (Except.ok.inj h)
      exact .readsRequest _ _ _ ‹_›
    · rename_i x wire hno hwire
      obtain ⟨rfl, rfl⟩ := Prod.mk.inj (Except.ok.inj h)
      refine .reads x wire hwire ?_
      rintro r bulk rfl
      exact hno r bulk rfl
    · cases h
  | answers r payload =>
    simp only [step] at h
    split at h
    · obtain ⟨rfl, rfl⟩ := Prod.mk.inj (Except.ok.inj h)
      exact .answers r payload ‹_›
    · cases h
  | callback =>
    simp only [step, callback] at h
    split at h
    · rename_i r payload replies hreplies
      split at h
      · obtain ⟨rfl, rfl⟩ := Prod.mk.inj (Except.ok.inj h)
        exact .calledBack r payload replies _ hreplies ‹_›
      · cases h
    · cases h

end Client

end RcControl.Mmal
