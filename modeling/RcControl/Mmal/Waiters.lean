import RcControl.Mmal.Client
import Mathlib.Data.List.Nodup

/-!
# The sixteen waiters

A thread that the semaphore of the pool lets through finds a waiter, and has it alone until it gives it
back; and when it waits, the answer is there or still to come. This is so whatever VCHIQ refuses (`Held`).

As long as it does not refuse the bulk transfer of a message that it has taken, for which the call would give
up a waiter that VideoCore has been told of, more is so (`Sound`): while a message is on the way the semaphore
of its waiter is down, and when it is up the answer is in the buffer of the call. The next to take the waiter
is then not woken by what was meant for the last.
-/

namespace RcControl.Mmal.Client

open Lib Lib.Run Lib.Crew

variable {β : Type*}

/-- The waiter that a thread has. -/
def Thread.owned : Thread → List ℕ
  | use _ i | queue _ i | bulk _ i | wait _ i | release _ i _ | free _ i _ => [i]
  | _ => []

/-- The message that a thread waits to be answered. -/
def Thread.pending : Thread → List Request
  | bulk c i | wait c i => [⟨i, c.number⟩]
  | _ => []

/-- The call that a thread is in. -/
def Thread.number : Thread → List ℕ
  | idle => []
  | bulkLock c | sem c | lock c | scan c _ | use c _ | queue c _ | bulk c _ | wait c _ | release c _ _
  | free c _ _ | post c _ => [c.number]
  | sendLock number | sendQueue number _ | sendBulk number => [number]

def Thread.scanning : Thread → Bool
  | scan .. => true
  | _ => false

/-- It has been let through by the semaphore of the pool, or has yet to let one through, and has no
waiter. -/
def Thread.token : Thread → Bool
  | lock _ | scan .. | post .. => true
  | _ => false

def isFree (w : Waiter) : Bool := !w.inuse

/-- The messages whose answers are to come. -/
def flight (s : Client β) : List Request :=
  (s.wire.filterMap fun
    | .request r _ => some r
    | _ => none) ++ s.asked ++ s.replies.map Prod.fst

/-! ### Each call returns once -/

def startedIn (notes : List (Note β)) : List ℕ :=
  notes.filterMap fun
    | .calls number => some number
    | _ => none

def endedIn (notes : List (Note β)) : List ℕ :=
  notes.filterMap fun
    | .returns c _ => some c.number
    | .sent number _ => some number
    | _ => none

/-- The calls that the threads are in. -/
def numbers (s : Client β) : List ℕ := s.threads.flatMap Thread.number

section Step

variable {s s' : Client β} {e : Event β} {o : List (Note β)}

/-- A call begins, ends, or goes on. -/
theorem number_step (hd : Does s e o s') :
    (s.numbers ++ startedIn o).Perm (endedIn o ++ s'.numbers) ∧
    (startedIn o = [] ∧ s'.next = s.next ∨ startedIn o = [s.next] ∧ s'.next = s.next + 1) := by
  have hstay : (s.numbers ++ []).Perm ([] ++ s.numbers) := by
    rw [List.append_nil]
    exact List.Perm.refl _
  cases hd with
  | sendwait t destlen bulk ht =>
    refine ⟨flow_set ht ?_, .inr ⟨rfl, rfl⟩⟩
    cases bulk <;> exact List.Perm.refl _
  | send t bulk ht =>
    refine ⟨flow_set ht ?_, .inr ⟨rfl, rfl⟩⟩
    cases bulk <;> exact List.Perm.refl _
  | queues t c i ht =>
    refine ⟨flow_set ht ?_, .inl ⟨rfl, rfl⟩⟩
    cases c.sendDummyBulk <;> exact List.Perm.refl _
  | frees t ok c i reply w ht =>
    cases w.inuse <;> exact ⟨flow_set ht (List.Perm.refl _), .inl ⟨rfl, rfl⟩⟩
  | locksBulk _ _ _ ht | takesSem _ _ _ _ ht | locks _ _ _ ht | passes _ _ _ _ _ ht | takes _ _ _ _ _ ht
  | uses _ _ _ _ ht | fails _ _ _ ht | bulks _ _ _ ht | wakes _ _ _ _ _ _ ht | releases _ _ _ _ _ ht
  | posts _ _ _ _ ht | sendLocks _ _ _ ht | sendQueues _ _ ht | sends _ _ ht
  | sendFails _ _ _ ht | sendBulks _ _ ht | bulkFails _ _ _ ht | sendBulkFails _ _ ht =>
    exact ⟨flow_set ht (List.Perm.refl _), .inl ⟨rfl, rfl⟩⟩
  | calledBack r payload replies w hreplies hw =>
    cases w.inuse <;> exact ⟨hstay, .inl ⟨rfl, rfl⟩⟩
  | _ => exact ⟨hstay, .inl ⟨rfl, rfl⟩⟩

/-- The calls are numbered. -/
structure Numbered (s : Client β) : Prop where
  nodup : s.numbers.Nodup
  lt_next : ∀ k ∈ s.numbers, k < s.next

theorem numbered_step (h : Numbered s) (hd : Does s e o s') : Numbered s' := by
  obtain ⟨hperm, hnext⟩ := number_step hd
  have hall : (s.numbers ++ startedIn o).Nodup ∧ ∀ k ∈ s.numbers ++ startedIn o, k < s'.next := by
    rcases hnext with ⟨ho, hn⟩ | ⟨ho, hn⟩
    · rw [ho, List.append_nil, hn]
      exact ⟨h.nodup, h.lt_next⟩
    · rw [ho, hn]
      refine ⟨h.nodup.append (List.nodup_singleton _) fun k hk hk' => ?_, fun k hk => ?_⟩
      · exact Nat.lt_irrefl _ (List.mem_singleton.1 hk' ▸ h.lt_next k hk)
      · rcases List.mem_append.1 hk with hk | hk
        · exact Nat.lt_succ_of_lt (h.lt_next k hk)
        · exact List.mem_singleton.1 hk ▸ Nat.lt_succ_self _
  refine ⟨(hperm.nodup_iff.1 hall.1).of_append_right, fun k hk => hall.2 k ?_⟩
  exact hperm.mem_iff.2 (List.mem_append_right _ hk)

end Step

/-! ### Who has which waiter -/

/-- How often a waiter is in use: once, or not at all. -/
def inUse (ws : List Waiter) (i : ℕ) : ℕ := (ws[i]?.elim 0 fun w => w.inuse.toNat)

/-- The books on the threads and the waiters. -/
structure Books (s : Client β) : Prop where
  sixteen : s.waiters.length = maxWaiters
  /-- A waiter is in use as long as one thread has it. -/
  owned : ∀ i, (s.threads.flatMap Thread.owned).count i = inUse s.waiters i
  /-- The free waiters are there for those that have been let through, or may be. -/
  pool : s.sem + s.threads.countP Thread.token = s.waiters.countP isFree
  lock : s.threads.countP Thread.scanning = s.lock.toNat

section Step

variable {s s' : Client β} {e : Event β} {o : List (Note β)} {t : ℕ} {p q : Thread}

lemma inUse_eq {ws : List Waiter} {i : ℕ} {w : Waiter} (h : ws[i]? = some w) :
    inUse ws i = w.inuse.toNat := by
  rw [inUse, h]
  rfl

lemma inUse_set {ws : List Waiter} {i : ℕ} {w : Waiter} (h : ws[i]? = some w) (w' : Waiter) (j : ℕ) :
    inUse (ws.set i w') j = if i = j then w'.inuse.toNat else inUse ws j := by
  unfold inUse
  rw [getElem?_set h]
  split <;> rfl

/-- A thread moves, and the books are balanced. -/
lemma Books.move (h : Books s) (ht : s.threads[t]? = some p) (hthreads : s'.threads = s.threads.set t q)
    (hlength : s'.waiters.length = s.waiters.length)
    (howned : ∀ i, inUse s'.waiters i + p.owned.count i = inUse s.waiters i + q.owned.count i)
    (hpool : s'.sem + q.token.toNat + s.waiters.countP isFree =
      s.sem + p.token.toNat + s'.waiters.countP isFree)
    (hlock : s'.lock.toNat + p.scanning.toNat = s.lock.toNat + q.scanning.toNat) : Books s' where
  sixteen := hlength.trans h.sixteen
  owned i := by
    have hset := (flatMap_set ht q Thread.owned).count_eq i
    rw [List.count_append, List.count_append, h.owned i, ← hthreads] at hset
    have := howned i
    omega
  pool := by
    have hset := countP_set_toNat ht q Thread.token
    have hbooks := h.pool
    rw [← hthreads] at hset
    omega
  lock := by
    have hset := countP_set_toNat ht q Thread.scanning
    have hbooks := h.lock
    rw [← hthreads] at hset
    omega

/-- The waiters stay as they are. -/
lemma Books.goes (h : Books s) (ht : s.threads[t]? = some p) (hthreads : s'.threads = s.threads.set t q)
    (hwaiters : s'.waiters = s.waiters) (howned : q.owned = p.owned)
    (hpool : s'.sem + q.token.toNat = s.sem + p.token.toNat)
    (hlock : s'.lock.toNat + p.scanning.toNat = s.lock.toNat + q.scanning.toNat) : Books s' :=
  h.move ht hthreads (by rw [hwaiters]) (fun i => by rw [hwaiters, howned]) (by rw [hwaiters]; omega) hlock

/-- The threads stay where they are. -/
lemma Books.stay (h : Books s) (hthreads : s'.threads = s.threads)
    (hlength : s'.waiters.length = s.waiters.length) (hwaiters : ∀ i, inUse s'.waiters i = inUse s.waiters i)
    (hpool : s'.waiters.countP isFree = s.waiters.countP isFree) (hsem : s'.sem = s.sem)
    (hlock : s'.lock = s.lock) : Books s' where
  sixteen := hlength.trans h.sixteen
  owned i := by rw [hthreads, hwaiters, h.owned]
  pool := by rw [hthreads, hsem, hpool, h.pool]
  lock := by rw [hthreads, hlock, h.lock]

lemma Books.scanning (h : Books s) (ht : s.threads[t]? = some p) (hp : p.scanning = true) :
    s.lock = true := by
  have hpos := List.countP_pos_iff.2 ⟨p, List.mem_of_getElem? ht, hp⟩
  rw [h.lock] at hpos
  cases hl : s.lock with
  | true => rfl
  | false =>
    rw [hl] at hpos
    cases hpos

/-- Who has a waiter finds it in use. -/
lemma Books.inuse (h : Books s) (hp : p ∈ s.threads) {i : ℕ} (hi : i ∈ p.owned) :
    ∃ w, s.waiters[i]? = some w ∧ w.inuse = true := by
  have hpos := List.count_pos_iff.2 (List.mem_flatMap.2 ⟨p, hp, hi⟩)
  rw [h.owned, inUse] at hpos
  cases hw : s.waiters[i]? with
  | none =>
    rw [hw] at hpos
    cases hpos
  | some w =>
    rw [hw] at hpos
    cases hin : w.inuse with
    | true => exact ⟨w, rfl, hin⟩
    | false =>
      rw [Option.elim, hin] at hpos
      cases hpos

theorem books_step (h : Books s) (hd : Does s e o s') : Books s' := by
  cases hd with
  | sendwait t destlen bulk ht => cases bulk <;> exact h.goes ht rfl rfl rfl rfl rfl
  | send t bulk ht => cases bulk <;> exact h.goes ht rfl rfl rfl rfl rfl
  | queues t c i ht => exact h.goes ht rfl rfl (by split <;> rfl) (by split <;> rfl) (by split <;> rfl)
  | takesSem t ok c n ht hn => exact h.goes ht rfl rfl rfl (by rw [hn]; rfl) rfl
  | locks t ok c ht hfree => exact h.goes ht rfl rfl rfl rfl (by rw [hfree]; rfl)
  | posts t ok c reply ht => exact h.goes ht rfl rfl rfl rfl rfl
  | takes t ok c i w ht hw hin =>
    have hset := countP_set_toNat hw { w with inuse := true, dest := c.number, destlen := c.destlen } isFree
    refine h.move ht rfl (List.length_set ..) (fun j => ?_) ?_ ?_
    · rw [inUse_set hw]
      split
      · subst j
        simp [inUse_eq hw, hin, Thread.owned]
      · simp [Thread.owned, ‹i ≠ j›]
    · simp only [isFree, hin, Bool.not_true, Bool.not_false, Bool.toNat_true, Bool.toNat_false] at hset
      simp only [place, Thread.token, Bool.toNat_true, Bool.toNat_false]
      omega
    · simp only [Thread.scanning, h.scanning ht rfl, Bool.toNat_true, Bool.toNat_false]
  | wakes t ok c i w n ht hw hn =>
    have hset := countP_set_toNat hw { w with sem := n } isFree
    refine h.move ht rfl (List.length_set ..) (fun j => ?_) ?_ rfl
    · rw [inUse_set hw]
      split
      · subst j
        rw [inUse_eq hw]
        rfl
      · rfl
    · simp only [isFree] at hset
      simp only [place, Thread.token, Bool.toNat_false]
      omega
  | frees t ok c i reply w ht hw =>
    obtain ⟨x, hx, hin⟩ := h.inuse (List.mem_of_getElem? ht) (List.mem_singleton.2 rfl)
    obtain rfl : w = x := Option.some.inj (hw.symm.trans hx)
    have hset := countP_set_toNat hw { w with inuse := false } isFree
    refine h.move ht rfl (List.length_set ..) (fun j => ?_) ?_ rfl
    · rw [inUse_set hw]
      split
      · subst j
        simp [inUse_eq hw, hin, Thread.owned]
      · simp [Thread.owned, ‹i ≠ j›]
    · simp only [isFree, hin, Bool.not_true, Bool.not_false, Bool.toNat_true, Bool.toNat_false] at hset
      simp only [place, Thread.token, Bool.toNat_true, Bool.toNat_false]
      omega
  | locksBulk _ _ _ ht | passes _ _ _ _ _ ht | uses _ _ _ _ ht | fails _ _ _ ht | bulks _ _ _ ht
  | releases _ _ _ _ _ ht | sendLocks _ _ _ ht | sendQueues _ _ ht | sends _ _ ht | sendFails _ _ _ ht
  | sendBulks _ _ ht | bulkFails _ _ _ ht | sendBulkFails _ _ ht =>
    exact h.goes ht rfl rfl rfl rfl rfl
  | calledBack r payload replies w hreplies hw =>
    refine h.stay rfl (List.length_set ..) (fun j => ?_) ?_ rfl rfl
    · rw [inUse_set hw]
      split
      · subst j
        rw [inUse_eq hw]
      · rfl
    · have hset := countP_set_toNat hw
        { w with sem := w.sem + 1, destlen := min w.destlen payload.length } isFree
      simp only [isFree] at hset
      dsimp only
      omega
  | _ => exact h.stay rfl rfl (fun _ => rfl) rfl rfl rfl

lemma Books.nodup (h : Books s) : (s.threads.flatMap Thread.owned).Nodup := by
  refine List.nodup_iff_count_le_one.2 fun i => ?_
  rw [h.owned, inUse]
  cases s.waiters[i]? with
  | none => exact Nat.zero_le 1
  | some w => exact Bool.toNat_le _

/-- Only one thread looks for a waiter at a time. -/
lemma Books.alone (h : Books s) {t' : ℕ} {p' : Thread} (ht : s.threads[t]? = some p)
    (ht' : s.threads[t']? = some p') (hne : t' ≠ t) (hp : p.scanning = true) : p'.scanning = false := by
  by_contra hp'
  have hset := countP_set_toNat ht .idle Thread.scanning
  have hmem : p' ∈ s.threads.set t .idle :=
    List.mem_of_getElem? ((getElem?_set ht .idle t').trans ((if_neg (Ne.symm hne)).trans ht'))
  have hpos := List.countP_pos_iff.2 ⟨p', hmem, by simpa using hp'⟩
  rw [h.lock, h.scanning ht hp, hp] at hset
  simp only [Thread.scanning, Bool.toNat_true, Bool.toNat_false] at hset
  omega

/-- There is a waiter for whom the semaphore of the pool lets through. -/
lemma Books.exists_free (h : Books s) (hp : p ∈ s.threads) (htoken : p.token = true) :
    ∃ (j : ℕ) (w : Waiter), s.waiters[j]? = some w ∧ w.inuse = false := by
  have hpos := List.countP_pos_iff.2 ⟨p, hp, htoken⟩
  have hpool := h.pool
  obtain ⟨w, hw, hfree⟩ := List.countP_pos_iff.1 (show 0 < s.waiters.countP isFree by omega)
  obtain ⟨j, hj⟩ := List.mem_iff_getElem?.1 hw
  exact ⟨j, w, hj, by simpa [isFree] using hfree⟩

variable {i : ℕ} {w w' : Waiter}

lemma Books.notMem_of_free (h : Books s) (hp : p ∈ s.threads) (hi : s.waiters[i]? = some w)
    (hfree : w.inuse = false) : i ∉ p.owned := by
  intro hmem
  have hcount := h.owned i
  rw [inUse_eq hi, hfree, Bool.toNat_false, List.count_eq_zero] at hcount
  exact hcount (List.mem_flatMap.2 ⟨p, hp, hmem⟩)

/-- Who has a waiter has it alone. -/
lemma Books.others (h : Books s) (ht : s.threads[t]? = some p) (hi : i ∈ p.owned) {t' : ℕ} {p' : Thread}
    (hne : t' ≠ t) (ht' : s.threads[t']? = some p') : i ∉ p'.owned :=
  fun hi' => disjoint_of_ne h.nodup ht ht' (Ne.symm hne) hi hi'

/-- Nobody else looks for a waiter, or has the one that is found. -/
lemma Books.others_of_scan (h : Books s) {c : Call} (ht : s.threads[t]? = some (.scan c i))
    (hw : s.waiters[i]? = some w) (hin : w.inuse = false) {t' : ℕ} {p' : Thread} (hne : t' ≠ t)
    (ht' : s.threads[t']? = some p') :
    i ∉ p'.owned ∧ (p'.scanning = true → w.inuse = false → w'.inuse = false) := by
  refine ⟨h.notMem_of_free (List.mem_of_getElem? ht') hw hin, fun hp' => ?_⟩
  rw [h.alone ht ht' hne rfl] at hp'
  cases hp'

/-- Who waits for an answer has its waiter. -/
lemma notMem_pending (hi : i ∉ p.owned) (k : ℕ) : (⟨i, k⟩ : Request) ∉ p.pending := by
  intro hmem
  cases p with
  | bulk c j | wait c j =>
    exact hi (List.mem_singleton.2 (congrArg Request.waiter (List.mem_singleton.1 hmem)))
  | _ => exact List.not_mem_nil hmem

lemma flight_request (s : Client β) (r : Request) (bulk : Bool) :
    (flight { s with wire := s.wire ++ [.request r bulk] }).Perm (r :: s.flight) := by
  simp only [flight, List.filterMap_append, List.append_assoc]
  exact List.perm_middle

lemma flight_other (s : Client β) {x : Item} (hx : ∀ r bulk, x ≠ .request r bulk) :
    flight { s with wire := s.wire ++ [x] } = s.flight := by
  cases x with
  | request r bulk => exact absurd rfl (hx r bulk)
  | _ => simp [flight]

lemma flight_reads {r : Request} {bulk : Bool} {wire : List Item} (hwire : s.wire = .request r bulk :: wire) :
    (flight { s with wire := wire, asked := s.asked ++ [r] }).Perm s.flight := by
  simp only [flight, hwire, List.filterMap_cons]
  rw [← List.append_assoc, List.append_assoc _ [r]]
  exact List.perm_middle

lemma flight_reads_other {x : Item} {wire : List Item} (hwire : s.wire = x :: wire)
    (hx : ∀ r bulk, x ≠ .request r bulk) : (flight { s with wire := wire }).Perm s.flight := by
  cases x with
  | request r bulk => exact absurd rfl (hx r bulk)
  | _ =>
    refine List.Perm.of_eq ?_
    simp [flight, hwire]

lemma flight_answers {r : Request} (hr : r ∈ s.asked) (payload : List β) :
    (flight { s with
      asked := s.asked.erase r
      replies := s.replies ++ [(r, payload)]
      answered := s.answered ++ [(r.call, payload)] }).Perm s.flight := by
  simp only [flight, List.map_append, List.map_cons, List.map_nil]
  rw [← List.append_assoc _ _ [r]]
  refine (List.perm_append_singleton r _).trans ?_
  refine List.Perm.trans ?_ (((List.perm_cons_erase hr).symm.append_left _).append_right _)
  exact (List.perm_middle.append_right _).symm

end Step

/-! ### Whatever VCHIQ refuses -/

/-- What the place of a thread says of what it looks for or waits for. -/
def Stands (s : Client β) : Thread → Prop
  | .scan _ i => ∃ j w, i ≤ j ∧ s.waiters[j]? = some w ∧ w.inuse = false
  | .bulk c i | .wait c i => ⟨i, c.number⟩ ∈ s.flight ∨ ∃ w, s.waiters[i]? = some w ∧ 0 < w.sem
  | _ => True

structure Held (s : Client β) : Prop where
  numbered : Numbered s
  books : Books s
  stands : ∀ p ∈ s.threads, Stands s p
  known : ∀ r ∈ s.flight, r.waiter < maxWaiters

section Step

variable {s s' : Client β} {e : Event β} {o : List (Note β)} {t : ℕ} {p q : Thread} {i : ℕ} {w w' : Waiter}

lemma Stands.frame (h : Stands s p)
    (hscan : p.scanning = true → ∀ (j : ℕ) (w : Waiter), s.waiters[j]? = some w → w.inuse = false →
      ∃ w', s'.waiters[j]? = some w' ∧ w'.inuse = false)
    (hsem : ∀ i ∈ p.owned, ∀ w, s.waiters[i]? = some w → 0 < w.sem → ∃ w', s'.waiters[i]? = some w' ∧ 0 < w'.sem)
    (hf : ∀ r ∈ p.pending, r ∈ s.flight → r ∈ s'.flight ∨ ∃ w', s'.waiters[r.waiter]? = some w' ∧ 0 < w'.sem) :
    Stands s' p := by
  cases p with
  | scan c i =>
    obtain ⟨j, w, hij, hj, hfree⟩ := h
    obtain ⟨w', hj', hfree'⟩ := hscan rfl j w hj hfree
    exact ⟨j, w', hij, hj', hfree'⟩
  | bulk c i | wait c i =>
    rcases h with hmem | ⟨w, hw, hpos⟩
    · exact hf ⟨i, c.number⟩ (List.mem_singleton.2 rfl) hmem
    · exact .inr (hsem i (List.mem_singleton.2 rfl) w hw hpos)
  | _ => trivial

/-- The waiters stay as they are. -/
lemma Stands.same (h : Stands s p) (hw : s'.waiters = s.waiters) (hf : ∀ r ∈ s.flight, r ∈ s'.flight) :
    Stands s' p :=
  h.frame (fun _ j w hj hfree => ⟨w, by rw [hw, hj], hfree⟩) (fun j _ w hj hpos => ⟨w, by rw [hw, hj], hpos⟩)
    fun r _ hr => .inl (hf r hr)

/-- A thread goes on, and touches no waiter. -/
lemma Held.goes (h : Held s) (hd : Does s e o s')
    (hthreads : s'.threads = s.threads.set t q) (hw : s'.waiters = s.waiters) (hf : s'.flight = s.flight)
    (hq : Stands s q) : Held s' where
  numbered := numbered_step h.numbered hd
  books := books_step h.books hd
  stands p' hp' := by
    rw [hthreads] at hp'
    rcases mem_set_cases hp' with rfl | ⟨t', -, ht'⟩
    · exact hq.same hw fun r hr => hf ▸ hr
    · exact (h.stands p' (List.mem_of_getElem? ht')).same hw fun r hr => hf ▸ hr
  known r hr := h.known r (hf ▸ hr)

/-- The threads and the waiters stay as they are. -/
lemma Held.keeps (h : Held s) (hd : Does s e o s') (hthreads : s'.threads = s.threads)
    (hw : s'.waiters = s.waiters) (hf : s'.flight.Perm s.flight) : Held s' where
  numbered := numbered_step h.numbered hd
  books := books_step h.books hd
  stands p hp := (h.stands p (hthreads ▸ hp)).same hw fun _ hr => hf.mem_iff.2 hr
  known r hr := h.known r (hf.mem_iff.1 hr)

/-- A thread goes on, and writes to one waiter, which no other thread has. -/
lemma Held.writes (h : Held s) (hd : Does s e o s')
    (hthreads : s'.threads = s.threads.set t q) (hi : s.waiters[i]? = some w)
    (hset : s'.waiters = s.waiters.set i w') (hf : s'.flight = s.flight)
    (hothers : ∀ t' p', t' ≠ t → s.threads[t']? = some p' →
      i ∉ p'.owned ∧ (p'.scanning = true → w.inuse = false → w'.inuse = false))
    (hq : Stands s' q) : Held s' where
  numbered := numbered_step h.numbered hd
  books := books_step h.books hd
  stands p' hp' := by
    rw [hthreads] at hp'
    rcases mem_set_cases hp' with rfl | ⟨t', hne, ht'⟩
    · exact hq
    · obtain ⟨hown, hscan⟩ := hothers t' p' hne ht'
      refine (h.stands p' (List.mem_of_getElem? ht')).frame (fun hp j x hj hfree => ?_) (fun j hj x hx hpos => ?_)
        fun r _ hr => .inl (hf ▸ hr)
      · rw [hset, getElem?_set hi]
        split
        · subst j
          obtain rfl : w = x := Option.some.inj (hi.symm.trans hj)
          exact ⟨w', rfl, hscan hp hfree⟩
        · exact ⟨x, hj, hfree⟩
      · rw [hset, getElem?_set hi, if_neg (fun hij : i = j => hown (hij ▸ hj))]
        exact ⟨x, hx, hpos⟩
  known r hr := h.known r (hf ▸ hr)

lemma held_queues (h : Held s) {c : Call} (ht : s.threads[t]? = some (.queue c i)) :
    Held { s.place t (if c.sendDummyBulk then .bulk c i else .wait c i) with
      wire := s.wire ++ [.request ⟨i, c.number⟩ c.sendDummyBulk] } := by
  have hflight := flight_request s ⟨i, c.number⟩ c.sendDummyBulk
  obtain ⟨w, hw, -⟩ := h.books.inuse (List.mem_of_getElem? ht) (List.mem_singleton.2 rfl)
  have hlt : i < maxWaiters := h.books.sixteen ▸ (List.getElem?_eq_some_iff.1 hw).1
  refine ⟨numbered_step h.numbered (.queues t c i ht), books_step h.books (.queues t c i ht), fun p' hp' => ?_,
    fun r hr => ?_⟩
  · rcases mem_set_cases hp' with rfl | ⟨t', -, ht'⟩
    · have hmem := hflight.mem_iff.2 (List.mem_cons_self (a := (⟨i, c.number⟩ : Request)) (l := s.flight))
      generalize c.sendDummyBulk = bulk at hmem ⊢
      cases bulk <;> exact .inl hmem
    · exact (h.stands p' (List.mem_of_getElem? ht')).same rfl fun _ hr =>
        hflight.mem_iff.2 (List.mem_cons_of_mem _ hr)
  · rcases List.mem_cons.1 (hflight.mem_iff.1 hr) with rfl | hr
    · exact hlt
    · exact h.known r hr

lemma flight_replies {r : Request} {payload : List β} {replies : List (Request × List β)}
    (hreplies : s.replies = (r, payload) :: replies) :
    s.flight.Perm (r :: flight { s with replies := replies }) := by
  simp only [flight, hreplies, List.map_cons]
  exact List.perm_middle

lemma held_calledBack (h : Held s) {r : Request} {payload : List β} {replies : List (Request × List β)}
    (hreplies : s.replies = (r, payload) :: replies) (hw : s.waiters[r.waiter]? = some w) :
    Held { s with
      replies := replies
      waiters := s.waiters.set r.waiter
        { w with sem := w.sem + 1, destlen := min w.destlen payload.length }
      memory := Function.update s.memory w.dest (payload.take (min w.destlen payload.length)) } := by
  have hd : Does s .callback _ _ := .calledBack r payload replies w hreplies hw
  have hflight := flight_replies hreplies
  refine ⟨numbered_step h.numbered hd, books_step h.books hd, fun p' hp' => ?_,
    fun r' hr' => h.known r' (hflight.mem_iff.2 (List.mem_cons_of_mem _ hr'))⟩
  have hset := getElem?_set hw { w with sem := w.sem + 1, destlen := min w.destlen payload.length }
  refine (h.stands p' hp').frame (fun _ j x hj hfree => ?_) (fun j _ x hx hpos => ?_) fun r' _ hr' => ?_
  · dsimp only
    rw [hset]
    split
    · subst j
      obtain rfl : w = x := Option.some.inj (hw.symm.trans hj)
      exact ⟨_, rfl, hfree⟩
    · exact ⟨x, hj, hfree⟩
  · dsimp only
    rw [hset]
    split
    · exact ⟨_, rfl, Nat.succ_pos _⟩
    · exact ⟨x, hx, hpos⟩
  · rcases List.mem_cons.1 (hflight.mem_iff.1 hr') with rfl | hr'
    · exact .inr ⟨_, (hset _).trans (if_pos rfl), Nat.succ_pos _⟩
    · exact .inl hr'

theorem held_step (h : Held s) (hd : Does s e o s') : Held s' := by
  have hstands : ∀ {t : ℕ} {p : Thread}, s.threads[t]? = some p → Stands s p := fun ht =>
    h.stands _ (List.mem_of_getElem? ht)
  have hd' := hd
  cases hd with
  | sendwait t destlen bulk => cases bulk <;> exact h.goes hd' rfl rfl rfl trivial
  | send t bulk => cases bulk <;> exact h.goes hd' rfl rfl rfl trivial
  | locks t ok c ht =>
    obtain ⟨j, w, hj, hfree⟩ := h.books.exists_free (List.mem_of_getElem? ht) rfl
    exact h.goes hd' rfl rfl rfl ⟨j, w, Nat.zero_le j, hj, hfree⟩
  | passes t ok c i w ht hw hin =>
    obtain ⟨j, x, hij, hj, hfree⟩ := hstands ht
    refine h.goes hd' rfl rfl rfl ⟨j, x, ?_, hj, hfree⟩
    refine Nat.lt_of_le_of_ne hij ?_
    rintro rfl
    rw [Option.some.inj (hw.symm.trans hj), hfree] at hin
    cases hin
  | takes t ok c i w ht hw hin =>
    exact h.writes hd' rfl hw rfl rfl (fun _ _ hne ht' => h.books.others_of_scan ht hw hin hne ht') trivial
  | queues t c i ht => exact held_queues h ht
  | bulks t c i ht =>
    have hq := hstands ht
    exact h.goes hd' rfl rfl (flight_other s fun _ _ hx => nomatch hx) hq
  | wakes t ok c i w n ht hw hn =>
    refine h.writes hd' rfl hw rfl rfl (fun t' p' hne ht' => ⟨?_, fun _ hfree => hfree⟩) trivial
    exact h.books.others ht (List.mem_singleton.2 rfl) hne ht'
  | frees t ok c i reply w ht hw =>
    refine h.writes hd' rfl hw rfl rfl (fun t' p' hne ht' => ⟨?_, fun _ _ => rfl⟩) trivial
    exact h.books.others ht (List.mem_singleton.2 rfl) hne ht'
  | sendQueues | sends | sendBulks =>
    exact h.goes hd' rfl rfl (flight_other s fun _ _ hx => nomatch hx) trivial
  | locksBulk | takesSem | uses | fails | bulkFails | releases | posts | sendLocks | sendFails | sendBulkFails =>
    exact h.goes hd' rfl rfl rfl trivial
  | vcUses ok => exact h.keeps hd' rfl rfl (List.Perm.refl _)
  | vcReleases ok n hn => exact h.keeps hd' rfl rfl (List.Perm.refl _)
  | readsRequest r bulk wire hwire => exact h.keeps hd' rfl rfl (flight_reads hwire)
  | reads x wire hwire hx => exact h.keeps hd' rfl rfl (flight_reads_other hwire hx)
  | answers r payload hr => exact h.keeps hd' rfl rfl (flight_answers hr payload)
  | calledBack r payload replies w hreplies hw => exact held_calledBack h hreplies hw

end Step

/-! ### What is in a waiter -/

/-- The answer to the call is in its buffer, as far as it fits. -/
def Got (s : Client β) (c : Call) (len : ℕ) : Prop :=
  ∃ payload, (c.number, payload) ∈ s.answered ∧ len = min c.destlen payload.length ∧
    s.memory c.number = payload.take len

/-- What the place of a thread says of its waiter. -/
def Fits (s : Client β) : Thread → Prop
  | .use c i | .queue c i | .release c i false | .free c i false =>
    ∃ w, s.waiters[i]? = some w ∧ w.sem = 0 ∧ w.dest = c.number ∧ w.destlen = c.destlen
  | .bulk c i | .wait c i => ∃ w, s.waiters[i]? = some w ∧ w.dest = c.number ∧
      (w.sem = 0 ∧ w.destlen = c.destlen ∧ ⟨i, c.number⟩ ∈ s.flight ∨
        w.sem = 1 ∧ ⟨i, c.number⟩ ∉ s.flight ∧ Got s c w.destlen)
  | .release c i true | .free c i true =>
    ∃ w, s.waiters[i]? = some w ∧ w.sem = 0 ∧ Got s c w.destlen
  | .post c (some len) => Got s c len
  | _ => True

/-- VCHIQ refuses the bulk transfer of a call whose message it has taken: the call gives its waiter back,
though VideoCore has been told of it. -/
def Abandons (s : Client β) : Event β → Prop
  | .go t ok => ok = false ∧ ∃ c i, s.threads[t]? = some (.bulk c i)
  | _ => False

/-- The invariant, as long as no call does so. -/
structure Sound (s : Client β) : Prop extends Held s where
  fits : ∀ p ∈ s.threads, Fits s p
  unused : ∀ (i : ℕ) (w : Waiter), s.waiters[i]? = some w → w.inuse = false → w.sem = 0
  flight : s.flight.Nodup
  /-- The messages on the way are those whose answers somebody waits for. -/
  pending : ∀ r ∈ s.flight, ∃ p ∈ s.threads, r ∈ p.pending
  answers : ∀ x ∈ s.replies, (x.1.call, x.2) ∈ s.answered

section Step

variable {s s' : Client β} {e : Event β} {o : List (Note β)} {t : ℕ} {p q : Thread}

lemma Got.frame {c : Call} {len : ℕ} (h : Got s c len) (hm : s'.memory c.number = s.memory c.number)
    (ha : ∀ x ∈ s.answered, x ∈ s'.answered) : Got s' c len := by
  obtain ⟨payload, hmem, hlen, hpayload⟩ := h
  exact ⟨payload, ha _ hmem, hlen, hm.trans hpayload⟩

/-- What others do to other waiters and other buffers does not matter to a thread. -/
lemma Fits.frame (h : Fits s p) (hw : ∀ i ∈ p.owned, s'.waiters[i]? = s.waiters[i]?)
    (hf : ∀ r ∈ p.pending, r ∈ s'.flight ↔ r ∈ s.flight)
    (hm : ∀ k ∈ p.number, s'.memory k = s.memory k) (ha : ∀ x ∈ s.answered, x ∈ s'.answered) :
    Fits s' p := by
  cases p with
  | use c i | queue c i =>
    obtain ⟨w, hi, hrest⟩ := h
    exact ⟨w, (hw i (List.mem_singleton.2 rfl)).trans hi, hrest⟩
  | bulk c i | wait c i =>
    obtain ⟨w, hi, hdest, hrest⟩ := h
    have hflight := hf ⟨i, c.number⟩ (List.mem_singleton.2 rfl)
    refine ⟨w, (hw i (List.mem_singleton.2 rfl)).trans hi, hdest, ?_⟩
    rcases hrest with ⟨hsem, hlen, hin⟩ | ⟨hsem, hout, hgot⟩
    · exact .inl ⟨hsem, hlen, hflight.2 hin⟩
    · exact .inr ⟨hsem, mt hflight.1 hout, hgot.frame (hm _ (List.mem_singleton.2 rfl)) ha⟩
  | release c i reply | free c i reply =>
    cases reply with
    | false =>
      obtain ⟨w, hi, hrest⟩ := h
      exact ⟨w, (hw i (List.mem_singleton.2 rfl)).trans hi, hrest⟩
    | true =>
      obtain ⟨w, hi, hsem, hgot⟩ := h
      exact ⟨w, (hw i (List.mem_singleton.2 rfl)).trans hi, hsem,
        hgot.frame (hm _ (List.mem_singleton.2 rfl)) ha⟩
  | post c reply =>
    cases reply with
    | none => trivial
    | some len => exact Got.frame h (hm _ (List.mem_singleton.2 rfl)) ha
  | _ => trivial

/-- The waiters, the messages and the answers stay as they are. -/
lemma Fits.congr (h : Fits s p) (hw : s'.waiters = s.waiters) (hf : s'.flight = s.flight)
    (hm : s'.memory = s.memory) (ha : s'.answered = s.answered) : Fits s' p :=
  h.frame (fun i _ => by rw [hw]) (fun r _ => by rw [hf]) (fun k _ => by rw [hm]) fun x hx => ha ▸ hx

/-- Who waits for the answer still does, if it is not the one who moves. -/
lemma pending_set (ht : s.threads[t]? = some p) {r : Request} (hr : ∃ p' ∈ s.threads, r ∈ p'.pending)
    (hq : r ∈ p.pending → r ∈ q.pending) : ∃ p' ∈ s.threads.set t q, r ∈ p'.pending := by
  obtain ⟨p', hp', hr⟩ := hr
  obtain ⟨t', ht'⟩ := List.mem_iff_getElem?.1 hp'
  by_cases hne : t = t'
  · subst hne
    obtain rfl : p = p' := Option.some.inj (ht.symm.trans ht')
    exact ⟨q, List.mem_of_getElem? ((getElem?_set ht q t).trans (if_pos rfl)), hq hr⟩
  · exact ⟨p', List.mem_of_getElem? ((getElem?_set ht q t').trans ((if_neg hne).trans ht')), hr⟩

/-- A thread goes on, and touches no waiter. -/
lemma Sound.goes (h : Sound s) (hd : Does s e o s') (ht : s.threads[t]? = some p)
    (hthreads : s'.threads = s.threads.set t q) (hw : s'.waiters = s.waiters) (hf : s'.flight = s.flight)
    (hm : s'.memory = s.memory) (ha : s'.answered = s.answered) (hr : s'.replies = s.replies)
    (hq : Fits s q) (hpending : q.pending = p.pending) : Sound s' where
  toHeld := held_step h.toHeld hd
  fits p' hp' := by
    rw [hthreads] at hp'
    rcases mem_set_cases hp' with rfl | ⟨t', -, ht'⟩
    · exact hq.congr hw hf hm ha
    · exact (h.fits p' (List.mem_of_getElem? ht')).congr hw hf hm ha
  unused i w hi := h.unused i w (hw ▸ hi)
  flight := hf ▸ h.flight
  pending r hr' := by
    rw [hthreads]
    exact pending_set ht (h.pending r (hf ▸ hr')) fun hp => hpending ▸ hp
  answers x hx := ha ▸ h.answers x (hr ▸ hx)

/-- The threads and the waiters stay as they are. -/
lemma Sound.keeps (h : Sound s) (hd : Does s e o s') (hthreads : s'.threads = s.threads)
    (hw : s'.waiters = s.waiters) (hf : s'.flight.Perm s.flight) (hm : s'.memory = s.memory)
    (ha : ∀ x ∈ s.answered, x ∈ s'.answered) (hr : ∀ x ∈ s'.replies, (x.1.call, x.2) ∈ s'.answered) :
    Sound s' where
  toHeld := held_step h.toHeld hd
  fits p hp :=
    (h.fits p (hthreads ▸ hp)).frame (fun i _ => by rw [hw]) (fun r _ => hf.mem_iff) (fun k _ => by rw [hm]) ha
  unused i w hi := h.unused i w (hw ▸ hi)
  flight := hf.nodup_iff.2 h.flight
  pending r hr' := hthreads ▸ h.pending r (hf.mem_iff.1 hr')
  answers := hr

variable {i : ℕ} {w w' : Waiter}

/-- Another's waiter is written to. -/
lemma Fits.other (h : Fits s p) (hi : s.waiters[i]? = some w) (hset : s'.waiters = s.waiters.set i w')
    (hown : i ∉ p.owned) (hf : ∀ r ∈ p.pending, r ∈ s'.flight ↔ r ∈ s.flight)
    (hm : ∀ k ∈ p.number, s'.memory k = s.memory k) (ha : ∀ x ∈ s.answered, x ∈ s'.answered) : Fits s' p := by
  refine h.frame (fun j hj => ?_) hf hm ha
  rw [hset, getElem?_set hi, if_neg (fun hij : i = j => hown (hij ▸ hj))]

/-- A thread goes on, and writes to one waiter, which no other thread has. -/
lemma Sound.writes (h : Sound s) (hd : Does s e o s') (ht : s.threads[t]? = some p)
    (hthreads : s'.threads = s.threads.set t q) (hi : s.waiters[i]? = some w)
    (hset : s'.waiters = s.waiters.set i w') (hf : s'.flight = s.flight) (hm : s'.memory = s.memory)
    (ha : s'.answered = s.answered) (hr : s'.replies = s.replies)
    (hothers : ∀ t' p', t' ≠ t → s.threads[t']? = some p' → i ∉ p'.owned)
    (hq : Fits s' q) (hunused : w'.inuse = false → w'.sem = 0)
    (hpending : ∀ r ∈ s.flight, r ∈ p.pending → r ∈ q.pending) : Sound s' where
  toHeld := held_step h.toHeld hd
  fits p' hp' := by
    rw [hthreads] at hp'
    rcases mem_set_cases hp' with rfl | ⟨t', hne, ht'⟩
    · exact hq
    · exact (h.fits p' (List.mem_of_getElem? ht')).other hi hset (hothers t' p' hne ht')
        (fun r _ => by rw [hf]) (fun k _ => by rw [hm]) fun x hx => ha ▸ hx
  unused j x hj := by
    rw [hset, getElem?_set hi] at hj
    split at hj
    · exact Option.some.inj hj ▸ hunused
    · exact h.unused j x hj
  flight := hf ▸ h.flight
  pending r hr' := by
    rw [hthreads]
    exact pending_set ht (h.pending r (hf ▸ hr')) (hpending r (hf ▸ hr'))
  answers x hx := ha ▸ h.answers x (hr ▸ hx)

lemma sound_takes (h : Sound s) (ok : Bool) {c : Call} (ht : s.threads[t]? = some (.scan c i))
    (hw : s.waiters[i]? = some w) (hin : w.inuse = false) :
    Sound { s.place t (.use c i) with
      lock := false
      waiters := s.waiters.set i { w with inuse := true, dest := c.number, destlen := c.destlen } } := by
  refine h.writes (.takes t ok c i w ht hw hin) ht rfl hw rfl rfl rfl rfl rfl (fun t' p' hne ht' => ?_) ?_ ?_ ?_
  · exact h.books.notMem_of_free (List.mem_of_getElem? ht') hw hin
  · exact ⟨_, (getElem?_set hw _ i).trans (if_pos rfl), h.unused i w hw hin, rfl, rfl⟩
  · exact fun hfalse => nomatch hfalse
  · exact fun r _ hr => hr

lemma sound_wakes (h : Sound s) (ok : Bool) {c : Call} {n : ℕ} (ht : s.threads[t]? = some (.wait c i))
    (hw : s.waiters[i]? = some w) (hn : w.sem = n + 1) :
    Sound { s.place t (.release c i true) with waiters := s.waiters.set i { w with sem := n } } := by
  obtain ⟨x, hx, -, hrest⟩ := h.fits _ (List.mem_of_getElem? ht)
  obtain rfl : w = x := Option.some.inj (hw.symm.trans hx)
  obtain ⟨hsem, hout, hgot⟩ : w.sem = 1 ∧ ⟨i, c.number⟩ ∉ s.flight ∧ Got s c w.destlen := by
    rcases hrest with ⟨hsem, -⟩ | hrest
    · omega
    · exact hrest
  obtain rfl : n = 0 := by omega
  refine h.writes (.wakes t ok c i w 0 ht hw hn) ht rfl hw rfl rfl rfl rfl rfl (fun t' p' hne ht' => ?_) ?_ ?_ ?_
  · exact h.books.others ht (List.mem_singleton.2 rfl) hne ht'
  · exact ⟨_, (getElem?_set hw _ i).trans (if_pos rfl), rfl, hgot⟩
  · exact fun _ => rfl
  · intro r hr hp
    exact absurd (List.mem_singleton.1 hp ▸ hr) hout

lemma sound_frees (h : Sound s) (ok : Bool) {reply : Bool} {c : Call}
    (ht : s.threads[t]? = some (.free c i reply)) (hw : s.waiters[i]? = some w) :
    Sound { s.place t (.post c (if reply then some w.destlen else none)) with
      waiters := s.waiters.set i { w with inuse := false } } := by
  have hfits := h.fits _ (List.mem_of_getElem? ht)
  have hsem : w.sem = 0 := by
    cases reply with
    | false =>
      obtain ⟨x, hx, hsem, -⟩ := hfits
      exact Option.some.inj (hw.symm.trans hx) ▸ hsem
    | true =>
      obtain ⟨x, hx, hsem, -⟩ := hfits
      exact Option.some.inj (hw.symm.trans hx) ▸ hsem
  refine h.writes (.frees t ok c i reply w ht hw) ht rfl hw rfl rfl rfl rfl rfl (fun t' p' hne ht' => ?_)
    ?_ (fun _ => hsem) fun r _ hr => hr
  · exact h.books.others ht (List.mem_singleton.2 rfl) hne ht'
  · cases reply with
    | false => trivial
    | true =>
      obtain ⟨x, hx, -, hgot⟩ := hfits
      exact Option.some.inj (hw.symm.trans hx) ▸ hgot

lemma sound_queues (h : Sound s) {c : Call} (ht : s.threads[t]? = some (.queue c i)) :
    Sound { s.place t (if c.sendDummyBulk then .bulk c i else .wait c i) with
      wire := s.wire ++ [.request ⟨i, c.number⟩ c.sendDummyBulk] } := by
  have hflight := flight_request s ⟨i, c.number⟩ c.sendDummyBulk
  have hown : ∀ t' p', t' ≠ t → s.threads[t']? = some p' → i ∉ p'.owned := fun t' p' hne ht' =>
    h.books.others ht (List.mem_singleton.2 rfl) hne ht'
  have hnew : (⟨i, c.number⟩ : Request) ∉ s.flight := by
    intro hmem
    obtain ⟨p', hp', hr⟩ := h.pending _ hmem
    obtain ⟨t', ht'⟩ := List.mem_iff_getElem?.1 hp'
    by_cases hne : t' = t
    · subst hne
      obtain rfl : .queue c i = p' := Option.some.inj (ht.symm.trans ht')
      exact List.not_mem_nil hr
    · exact notMem_pending (hown t' p' hne ht') _ hr
  obtain ⟨w, hw, hsem, hdest, hlen⟩ := h.fits _ (List.mem_of_getElem? ht)
  have hin : (⟨i, c.number⟩ : Request) ∈ (if c.sendDummyBulk then Thread.bulk c i else .wait c i).pending := by
    cases c.sendDummyBulk <;> exact List.mem_singleton.2 rfl
  refine ⟨held_queues h.toHeld ht, fun p' hp' => ?_,
    h.unused, hflight.nodup_iff.2 (List.nodup_cons.2 ⟨hnew, h.flight⟩), fun r hr => ?_, h.answers⟩
  · rcases mem_set_cases hp' with rfl | ⟨t', hne, ht'⟩
    · have hmem := hflight.mem_iff.2 (List.mem_cons_self (a := (⟨i, c.number⟩ : Request)) (l := s.flight))
      generalize c.sendDummyBulk = bulk at hmem ⊢
      cases bulk <;> exact ⟨w, hw, hdest, .inl ⟨hsem, hlen, hmem⟩⟩
    · refine (h.fits p' (List.mem_of_getElem? ht')).frame (fun _ _ => rfl) (fun r hr => ?_) (fun _ _ => rfl)
        fun _ hx => hx
      refine hflight.mem_iff.trans (List.mem_cons.trans (or_iff_right fun heq => ?_))
      exact notMem_pending (hown t' p' hne ht') _ (heq ▸ hr)
  · rcases List.mem_cons.1 (hflight.mem_iff.1 hr) with rfl | hr
    · exact ⟨_, List.mem_of_getElem? ((getElem?_set ht _ t).trans (if_pos rfl)), hin⟩
    · exact pending_set ht (h.pending r hr) fun hp => nomatch hp

lemma sound_calledBack (h : Sound s) {r : Request} {payload : List β} {replies : List (Request × List β)}
    (hreplies : s.replies = (r, payload) :: replies) (hw : s.waiters[r.waiter]? = some w)
    (hin : w.inuse = true) :
    Sound { s with
      replies := replies
      waiters := s.waiters.set r.waiter
        { w with sem := w.sem + 1, destlen := min w.destlen payload.length }
      memory := Function.update s.memory w.dest (payload.take (min w.destlen payload.length)) } := by
  have hflight := flight_replies hreplies
  obtain ⟨hout, hnodup⟩ := List.nodup_cons.1 (hflight.nodup_iff.1 h.flight)
  obtain ⟨p, hp, hr⟩ := h.pending r (hflight.mem_iff.2 List.mem_cons_self)
  obtain ⟨t, ht⟩ := List.mem_iff_getElem?.1 hp
  have hanswer : (r.call, payload) ∈ s.answered := h.answers (r, payload) (hreplies ▸ List.mem_cons_self)
  obtain ⟨c, i, rfl, hplace⟩ : ∃ c i, r = ⟨i, c.number⟩ ∧ (p = .bulk c i ∨ p = .wait c i) := by
    cases p with
    | bulk c i => exact ⟨c, i, List.mem_singleton.1 hr, .inl rfl⟩
    | wait c i => exact ⟨c, i, List.mem_singleton.1 hr, .inr rfl⟩
    | _ => exact absurd hr List.not_mem_nil
  have howned : p.owned = [i] ∧ p.number = [c.number] ∧ p.pending = [⟨i, c.number⟩] := by
    rcases hplace with rfl | rfl <;> exact ⟨rfl, rfl, rfl⟩
  obtain ⟨x, hx, hdest, hrest⟩ : ∃ x, s.waiters[i]? = some x ∧ x.dest = c.number ∧
      (x.sem = 0 ∧ x.destlen = c.destlen ∧ ⟨i, c.number⟩ ∈ s.flight ∨
        x.sem = 1 ∧ ⟨i, c.number⟩ ∉ s.flight ∧ Got s c x.destlen) := by
    rcases hplace with rfl | rfl <;> exact h.fits _ hp
  obtain rfl : w = x := Option.some.inj (hw.symm.trans hx)
  obtain ⟨hsem, hlen, -⟩ := hrest.resolve_right fun hno => hno.2.1 (hflight.mem_iff.2 List.mem_cons_self)
  refine ⟨held_calledBack h.toHeld hreplies hw, fun p' hp' => ?_, fun j y hj hy => ?_, hnodup, fun r' hr' => ?_,
    fun y hy => h.answers y (hreplies ▸ List.mem_cons_of_mem _ hy)⟩
  · obtain ⟨t', ht'⟩ := List.mem_iff_getElem?.1 hp'
    by_cases hne : t' = t
    · subst hne
      obtain rfl : p = p' := Option.some.inj (ht.symm.trans ht')
      have hgot : Got { s with
          replies := replies
          waiters := s.waiters.set i { w with sem := w.sem + 1, destlen := min w.destlen payload.length }
          memory := Function.update s.memory w.dest (payload.take (min w.destlen payload.length)) } c
          (min w.destlen payload.length) :=
        ⟨payload, hanswer, by rw [hlen], by rw [hdest]; exact Function.update_self ..⟩
      rcases hplace with rfl | rfl
      all_goals
        exact ⟨_, (getElem?_set hw _ i).trans (if_pos rfl), hdest, .inr ⟨congrArg (· + 1) hsem, hout, hgot⟩⟩
    · have hown : i ∉ p'.owned := h.books.others ht (howned.1 ▸ List.mem_singleton.2 rfl) hne ht'
      have hnumber : ∀ k ∈ p'.number, k ≠ c.number := fun k hk hkc =>
        disjoint_of_ne h.numbered.nodup ht ht' (Ne.symm hne) (howned.2.1 ▸ List.mem_singleton.2 rfl) (hkc ▸ hk)
      refine (h.fits p' hp').other hw rfl hown (fun r' hr' => ?_) (fun k hk => ?_) fun _ hx => hx
      · refine Iff.trans ?_ hflight.mem_iff.symm
        refine (List.mem_cons.trans (or_iff_right ?_)).symm
        rintro rfl
        exact notMem_pending hown _ hr'
      · exact Function.update_of_ne (hdest ▸ hnumber k hk) ..
  · rw [getElem?_set hw] at hj
    split at hj
    · obtain rfl := Option.some.inj hj
      rw [hin] at hy
      cases hy
    · exact h.unused j y hj hy
  · exact h.pending r' (hflight.mem_iff.2 (List.mem_cons_of_mem _ hr'))

/-- An answer finds its waiter in use. -/
lemma Sound.inuse (h : Sound s) {r : Request} (hr : r ∈ s.flight) (hw : s.waiters[r.waiter]? = some w) :
    w.inuse = true := by
  obtain ⟨p, hp, hpending⟩ := h.pending r hr
  have hown : r.waiter ∈ p.owned := by
    by_contra hno
    exact notMem_pending hno r.call hpending
  obtain ⟨x, hx, hin⟩ := h.books.inuse hp hown
  exact Option.some.inj (hw.symm.trans hx) ▸ hin

theorem sound_step (h : Sound s) (hd : Does s e o s') (hno : ¬ Abandons s e) : Sound s' := by
  have hfits : ∀ {t : ℕ} {p : Thread}, s.threads[t]? = some p → Fits s p := fun ht =>
    h.fits _ (List.mem_of_getElem? ht)
  have hd' := hd
  cases hd with
  | sendwait t destlen bulk ht => cases bulk <;> exact h.goes hd' ht rfl rfl rfl rfl rfl rfl trivial rfl
  | send t bulk ht => cases bulk <;> exact h.goes hd' ht rfl rfl rfl rfl rfl rfl trivial rfl
  | locksBulk t ok c ht => exact h.goes hd' ht rfl rfl rfl rfl rfl rfl trivial rfl
  | takesSem t ok c n ht => exact h.goes hd' ht rfl rfl rfl rfl rfl rfl trivial rfl
  | locks t ok c ht => exact h.goes hd' ht rfl rfl rfl rfl rfl rfl trivial rfl
  | passes t ok c i w ht hw hin => exact h.goes hd' ht rfl rfl rfl rfl rfl rfl trivial rfl
  | takes t ok c i w ht hw hin => exact sound_takes h ok ht hw hin
  | uses t ok c i ht =>
    have hq := hfits ht
    exact h.goes hd' ht rfl rfl rfl rfl rfl rfl hq rfl
  | queues t c i ht => exact sound_queues h ht
  | fails t c i ht =>
    have hq := hfits ht
    exact h.goes hd' ht rfl rfl rfl rfl rfl rfl hq rfl
  | bulks t c i ht =>
    have hq := hfits ht
    exact h.goes hd' ht rfl rfl (flight_other s fun _ _ hx => nomatch hx) rfl rfl rfl hq rfl
  | wakes t ok c i w n ht hw hn => exact sound_wakes h ok ht hw hn
  | releases t ok c i reply ht =>
    have hp := hfits ht
    have hq : Fits s (.free c i reply) := by cases reply <;> exact hp
    exact h.goes hd' ht rfl rfl rfl rfl rfl rfl hq rfl
  | frees t ok c i reply w ht hw => exact sound_frees h ok ht hw
  | bulkFails t c i ht => exact absurd ⟨rfl, c, i, ht⟩ hno
  | sendBulkFails t number ht => exact h.goes hd' ht rfl rfl rfl rfl rfl rfl trivial rfl
  | posts t ok c reply ht => exact h.goes hd' ht rfl rfl rfl rfl rfl rfl trivial rfl
  | sendLocks t ok number ht => exact h.goes hd' ht rfl rfl rfl rfl rfl rfl trivial rfl
  | sendFails t number bulk ht => exact h.goes hd' ht rfl rfl rfl rfl rfl rfl trivial rfl
  | sendQueues t number ht | sends t number ht | sendBulks t number ht =>
    exact h.goes hd' ht rfl rfl (flight_other s fun _ _ hx => nomatch hx) rfl rfl rfl trivial rfl
  | vcUses ok => exact h.keeps hd' rfl rfl (List.Perm.refl _) rfl (fun _ hx => hx) h.answers
  | vcReleases ok n hn => exact h.keeps hd' rfl rfl (List.Perm.refl _) rfl (fun _ hx => hx) h.answers
  | readsRequest r bulk wire hwire =>
    exact h.keeps hd' rfl rfl (flight_reads hwire) rfl (fun _ hx => hx) h.answers
  | reads x wire hwire hx =>
    exact h.keeps hd' rfl rfl (flight_reads_other hwire hx) rfl (fun _ hx => hx) h.answers
  | answers r payload hr =>
    refine h.keeps hd' rfl rfl (flight_answers hr payload) rfl (fun _ hx => List.mem_append_left _ hx)
      fun x hx => ?_
    rcases List.mem_append.1 hx with hx | hx
    · exact List.mem_append_left _ (h.answers x hx)
    · obtain rfl := List.mem_singleton.1 hx
      exact List.mem_append_right _ (List.mem_singleton.2 rfl)
  | calledBack r payload replies w hreplies hw =>
    exact sound_calledBack h hreplies hw (h.inuse (by simp [flight, hreplies]) hw)

end Step

theorem sound_create (n : ℕ) : Sound (create n : Client β) := by
  have hthreads : ∀ p ∈ (create n : Client β).threads, p = .idle := fun p hp => List.eq_of_mem_replicate hp
  have hnil : ∀ {γ : Type} (f : Thread → List γ), f .idle = [] → (create n : Client β).threads.flatMap f = [] :=
    fun f hf => List.flatMap_eq_nil_iff.2 fun p hp => hthreads p hp ▸ hf
  have hcount : ∀ f : Thread → Bool, f .idle = false → (create n : Client β).threads.countP f = 0 :=
    fun f hf => List.countP_eq_zero.2 fun p hp => by rw [hthreads p hp, hf]; exact Bool.false_ne_true
  have hwaiters : ∀ (i : ℕ) (w : Waiter), (create n : Client β).waiters[i]? = some w → w = ⟨0, false, 0, 0⟩ :=
    fun i w hw => List.eq_of_mem_replicate (List.mem_of_getElem? hw)
  refine ⟨⟨⟨?_, ?_⟩, ⟨List.length_replicate, fun i => ?_, ?_, ?_⟩, fun p hp => ?_, fun _ hr => (nomatch hr)⟩,
    fun p hp => ?_, fun i w hw _ => ?_, List.nodup_nil, fun _ hr => (nomatch hr), fun _ hx => (nomatch hx)⟩
  · rw [numbers, hnil _ rfl]
    exact List.nodup_nil
  · rw [numbers, hnil _ rfl]
    exact fun _ hk => nomatch hk
  · rw [hnil _ rfl, List.count_nil, inUse]
    rcases hw : (create n : Client β).waiters[i]? with _ | w
    · rfl
    · rw [hwaiters i w hw]
      rfl
  · rw [hcount _ rfl]
    rfl
  · rw [hcount _ rfl]
    rfl
  · rw [hthreads p hp]
    trivial
  · rw [hthreads p hp]
    trivial
  · rw [hwaiters i w hw]

section Run

variable {n : ℕ} {es : List (Event β)} {os : List (List (Note β))} {s : Client β}

theorem held_run (h : run step (create n) es = .ok (os, s)) : Held s :=
  inv_run (fun _ _ _ _ hI hs => held_step hI (does_of_step hs)) (sound_create n).toHeld h

theorem sound_run (h : run step (create n) es = .ok (os, s))
    (hno : Along step (fun s e => ¬ Abandons s e) (create n) es) : Sound s :=
  inv_run_along (fun _ _ _ _ hI hP hs => sound_step hI (does_of_step hs) hP) (sound_create n) hno h

end Run

end RcControl.Mmal.Client
