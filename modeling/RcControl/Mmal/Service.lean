import RcControl.Mmal.Replies

/-!
# What VCHIQ is given

A message with a bulk transfer is followed by this transfer before the next message with a bulk transfer, as
long as VCHIQ refuses no transfer whose message it has taken (`bulk_paired`); the service is in use while
messages go out, as long as VCHIQ does not refuse it (`service_used`); and every call returns that VideoCore
lets return, whatever VCHIQ refuses (`calls_return`).
-/

namespace RcControl.Mmal.Client

open Lib Lib.Run Lib.Crew

variable {β : Type*}

/-! ### Bulk transfers -/

/-- The thread has the mutex of the bulk transfers. -/
def Thread.hasBulk : Thread → Bool
  | sem c | lock c | scan c _ | use c _ | queue c _ => c.sendDummyBulk
  | bulk _ _ | sendBulk _ => true
  | sendQueue _ b => b
  | _ => false

/-- The call whose message is queued and whose bulk transfer is to come. -/
def Thread.halfSent : Thread → List ℕ
  | bulk c _ => [c.number]
  | sendBulk number => [number]
  | _ => []

/-- The call of a message that a bulk transfer follows. -/
def Item.begins : Item → Option ℕ
  | request r true => some r.call
  | message number true => some number
  | _ => none

/-- The messages and the bulk transfers that VCHIQ has been given, and the calls whose message is given and
whose bulk transfer is not. -/
inductive Transfers : List Item → List ℕ → Prop
  | nil : Transfers [] []
  | plain {xs : List Item} {l : List ℕ} {x : Item} (h : Transfers xs l) (hx : x.begins = none)
      (hbulk : ∀ k, x ≠ .bulk k) : Transfers (xs ++ [x]) l
  | begins {xs : List Item} {x : Item} {k : ℕ} (h : Transfers xs []) (hx : x.begins = some k) :
      Transfers (xs ++ [x]) [k]
  | ends {xs : List Item} {k : ℕ} (h : Transfers xs [k]) : Transfers (xs ++ [.bulk k]) []

/-- The call whose bulk transfer is to come, after one more item. -/
def Item.awaits (l : List ℕ) : Item → List ℕ
  | request r true => [r.call]
  | message number true => [number]
  | bulk _ => []
  | _ => l

lemma awaits_of_transfers {xs : List Item} {l : List ℕ} (h : Transfers xs l) : xs.foldl Item.awaits [] = l := by
  induction h with
  | nil => rfl
  | @plain xs l x h hx hbulk ih =>
    rw [List.foldl_append, ih]
    rcases x with ⟨r, _ | _⟩ | ⟨number, _ | _⟩ | k
    case bulk => exact absurd rfl (hbulk k)
    all_goals first | rfl | cases hx
  | @begins xs x k h hx ih =>
    rw [List.foldl_append, ih]
    rcases x with ⟨r, _ | _⟩ | ⟨number, _ | _⟩ | k
    all_goals
      cases hx
      try rfl
  | ends h ih => rw [List.foldl_append]; rfl

def queuedIn (notes : List (Note β)) : List Item :=
  notes.filterMap fun
    | .queues x => some x
    | _ => none

def halfSent (s : Client β) : List ℕ := s.threads.flatMap Thread.halfSent

/-- Who wants the mutex of the bulk transfers has one to make. -/
def Thread.wantsBulk : Thread → Bool
  | bulkLock c => c.sendDummyBulk
  | _ => true

/-- The mutex of the bulk transfers is taken as long as one thread has it. -/
structure Guarded (s : Client β) : Prop where
  locked : s.threads.countP Thread.hasBulk = s.bulkLock.toNat
  wanted : ∀ p ∈ s.threads, p.wantsBulk = true

/-- VCHIQ refuses a bulk transfer whose message it has taken. -/
def Breaks (s : Client β) : Event β → Prop
  | .go t ok => ok = false ∧ ∃ p, s.threads[t]? = some p ∧ p.halfSent ≠ []
  | _ => False

section Step

variable {s s' : Client β} {e : Event β} {o : List (Note β)} {t : ℕ} {p q : Thread}

lemma Guarded.move (h : Guarded s) (ht : s.threads[t]? = some p) (hthreads : s'.threads = s.threads.set t q)
    (hlock : s'.bulkLock.toNat + p.hasBulk.toNat = s.bulkLock.toNat + q.hasBulk.toNat)
    (hq : q.wantsBulk = true) : Guarded s' where
  locked := by
    have hset := countP_set_toNat ht q Thread.hasBulk
    have hlocked := h.locked
    rw [hthreads]
    omega
  wanted p' hp' := by
    rw [hthreads] at hp'
    rcases mem_set_cases hp' with rfl | ⟨t', -, ht'⟩
    · exact hq
    · exact h.wanted p' (List.mem_of_getElem? ht')

lemma Guarded.of_hasBulk (h : Guarded s) (hp : p ∈ s.threads) (hbulk : p.hasBulk = true) :
    s.bulkLock = true := by
  have hpos := List.countP_pos_iff.2 ⟨p, hp, hbulk⟩
  rw [h.locked] at hpos
  cases hl : s.bulkLock with
  | true => rfl
  | false =>
    rw [hl] at hpos
    cases hpos

lemma Guarded.gives (h : Guarded s) (hp : p ∈ s.threads) :
    (s.bulkLock && !p.hasBulk).toNat + p.hasBulk.toNat = s.bulkLock.toNat + false.toNat := by
  cases hbulk : p.hasBulk with
  | true => rw [h.of_hasBulk hp hbulk]; rfl
  | false => cases s.bulkLock <;> rfl

theorem guarded_step (h : Guarded s) (hd : Does s e o s') : Guarded s' := by
  cases hd with
  | sendwait t destlen bulk ht =>
    cases bulk <;> exact h.move ht rfl rfl rfl
  | send t bulk ht => cases bulk <;> exact h.move ht rfl rfl rfl
  | locksBulk t ok c ht hfree =>
    have hbulk : c.sendDummyBulk = true := h.wanted _ (List.mem_of_getElem? ht)
    exact h.move ht rfl (by simp [Thread.hasBulk, hbulk, hfree]) rfl
  | queues t c i ht =>
    refine h.move ht rfl ?_ ?_
    · cases hbulk : c.sendDummyBulk <;> simp [Thread.hasBulk, hbulk, place]
    · split <;> rfl
  | fails t c i ht => exact h.move ht rfl (h.gives (List.mem_of_getElem? ht)) rfl
  | bulks t c i ht | bulkFails t c i ht | sendBulks t number ht | sendBulkFails t number ht =>
    have hlocked := h.of_hasBulk (List.mem_of_getElem? ht) rfl
    exact h.move ht rfl (by simp [Thread.hasBulk, hlocked]) rfl
  | sendLocks t ok number ht hfree =>
    exact h.move ht rfl (by simp [Thread.hasBulk, hfree]) rfl
  | sendFails t number bulk ht => exact h.move ht rfl (h.gives (List.mem_of_getElem? ht)) rfl
  | takesSem _ _ _ _ ht | locks _ _ _ ht | passes _ _ _ _ _ ht | takes _ _ _ _ _ ht | uses _ _ _ _ ht
  | wakes _ _ _ _ _ _ ht | releases _ _ _ _ _ ht | frees _ _ _ _ _ _ ht | posts _ _ _ _ ht | sendQueues _ _ ht
  | sends _ _ ht =>
    exact h.move ht rfl rfl rfl
  | _ => exact ⟨h.locked, h.wanted⟩

lemma length_halfSent_le (l : List Thread) : (l.flatMap Thread.halfSent).length ≤ l.countP Thread.hasBulk := by
  induction l with
  | nil => exact Nat.le_refl 0
  | cons p l ih =>
    have hone : p.halfSent.length ≤ if p.hasBulk then 1 else 0 := by
      cases p <;> first | exact Nat.le_refl _ | exact Nat.zero_le _
    rw [List.flatMap_cons, List.length_append, List.countP_cons, Nat.add_comm]
    exact Nat.add_le_add ih hone

/-- Who has the mutex has it alone. -/
lemma Guarded.others (h : Guarded s) (ht : s.threads[t]? = some p) (hp : p.hasBulk = true)
    (hq : q.hasBulk = false) : (s.threads.set t q).flatMap Thread.halfSent = [] := by
  have hset := countP_set_toNat ht q Thread.hasBulk
  have hle := length_halfSent_le (s.threads.set t q)
  rw [h.locked, h.of_hasBulk (List.mem_of_getElem? ht) hp, hp, hq] at hset
  simp only [Bool.toNat_true, Bool.toNat_false] at hset
  exact List.eq_nil_of_length_eq_zero (by omega)

/-- A message is queued that a bulk transfer follows. -/
lemma Guarded.begins (h : Guarded s) (ht : s.threads[t]? = some p) (hp : p.hasBulk = true)
    (hhalf : p.halfSent = []) {k : ℕ} (hq : q.halfSent = [k]) :
    s.halfSent = [] ∧ (s.threads.set t q).flatMap Thread.halfSent = [k] := by
  have hnone : s.halfSent = [] := by
    rw [← h.others ht hp (q := .idle) rfl]
    exact (flatMap_set_of_eq ht hhalf.symm).symm
  have hset := flatMap_set ht q Thread.halfSent
  rw [hhalf, hq, ← halfSent, hnone, List.nil_append, List.append_nil] at hset
  exact ⟨hnone, List.perm_singleton.1 hset⟩

/-- The bulk transfer is made. -/
lemma Guarded.ends (h : Guarded s) (ht : s.threads[t]? = some p) (hp : p.hasBulk = true) {k : ℕ}
    (hhalf : p.halfSent = [k]) (hq : q.hasBulk = false) (hnone : q.halfSent = []) :
    s.halfSent = [k] ∧ (s.threads.set t q).flatMap Thread.halfSent = [] := by
  have hrest := h.others ht hp hq
  have hset := flatMap_set ht q Thread.halfSent
  rw [hrest, hhalf, hnone, List.nil_append, List.append_nil] at hset
  exact ⟨List.perm_singleton.1 hset.symm, hrest⟩

/-- Nothing is queued by a thread that goes on. -/
lemma transfers_goes {xs : List Item} (hx : Transfers xs s.halfSent) (ht : s.threads[t]? = some p)
    (hhalf : q.halfSent = p.halfSent) : Transfers (xs ++ []) ((s.threads.set t q).flatMap Thread.halfSent) := by
  rw [List.append_nil, flatMap_set_of_eq ht hhalf]
  exact hx

/-- A message is queued that no bulk transfer follows. -/
lemma transfers_plain {xs : List Item} (hx : Transfers xs s.halfSent) (ht : s.threads[t]? = some p)
    (hhalf : q.halfSent = p.halfSent) {x : Item} (hplain : x.begins = none) (hbulk : ∀ k, x ≠ .bulk k) :
    Transfers (xs ++ [x]) ((s.threads.set t q).flatMap Thread.halfSent) := by
  rw [flatMap_set_of_eq ht hhalf]
  exact .plain hx hplain hbulk

theorem transfers_step (h : Guarded s) (hd : Does s e o s') (hno : ¬ Breaks s e) {xs : List Item}
    (hx : Transfers xs s.halfSent) : Transfers (xs ++ queuedIn o) s'.halfSent := by
  cases hd with
  | sendwait t destlen bulk ht => exact transfers_goes hx ht (by cases bulk <;> rfl)
  | send t bulk ht => exact transfers_goes hx ht (by cases bulk <;> rfl)
  | queues t c i ht =>
    cases hbulk : c.sendDummyBulk with
    | true =>
      obtain ⟨hnone, hone⟩ := h.begins ht hbulk rfl (q := .bulk c i) rfl
      rw [hnone] at hx
      have hbegins := hx.begins (x := .request ⟨i, c.number⟩ true) rfl
      rw [← hone] at hbegins
      exact hbegins
    | false => exact transfers_plain hx ht (q := .wait c i) rfl rfl fun _ hbulk => nomatch hbulk
  | bulks t c i ht =>
    obtain ⟨hone, hnone⟩ := h.ends ht rfl rfl (q := .wait c i) rfl rfl
    rw [hone] at hx
    have hends := hx.ends
    rw [← hnone] at hends
    exact hends
  | sendQueues t number ht =>
    obtain ⟨hnone, hone⟩ := h.begins ht rfl rfl (q := .sendBulk number) rfl
    rw [hnone] at hx
    have hbegins := hx.begins (x := .message number true) rfl
    rw [← hone] at hbegins
    exact hbegins
  | sends t number ht => exact transfers_plain hx ht (q := .idle) rfl rfl fun _ hbulk => nomatch hbulk
  | sendBulks t number ht =>
    obtain ⟨hone, hnone⟩ := h.ends ht rfl rfl (q := .idle) rfl rfl
    rw [hone] at hx
    have hends := hx.ends
    rw [← hnone] at hends
    exact hends
  | bulkFails t c i ht => exact absurd ⟨rfl, _, ht, List.cons_ne_nil _ _⟩ hno
  | sendBulkFails t number ht => exact absurd ⟨rfl, _, ht, List.cons_ne_nil _ _⟩ hno
  | frees t ok c i reply w ht => cases w.inuse <;> exact transfers_goes hx ht rfl
  | calledBack r payload replies w => cases w.inuse <;> exact (List.append_nil xs).symm ▸ hx
  | locksBulk _ _ _ ht | takesSem _ _ _ _ ht | locks _ _ _ ht | passes _ _ _ _ _ ht | takes _ _ _ _ _ ht
  | uses _ _ _ _ ht | fails _ _ _ ht | wakes _ _ _ _ _ _ ht | releases _ _ _ _ _ ht | posts _ _ _ _ ht
  | sendLocks _ _ _ ht | sendFails _ _ _ ht =>
    exact transfers_goes hx ht rfl
  | _ => exact (List.append_nil xs).symm ▸ hx

/-- The thread whose transfer is refused goes on. -/
lemma Breaks.eq_ok (hbreaks : Breaks s e) : ∃ t p q k o s', step s e = .ok (o, s') ∧ s.threads[t]? = some p ∧
    p.hasBulk = true ∧ p.halfSent = [k] ∧ q.hasBulk = false ∧ q.halfSent = [] ∧
    s'.halfSent = (s.threads.set t q).flatMap Thread.halfSent ∧ queuedIn o = [] := by
  cases e with
  | go t ok =>
    obtain ⟨rfl, p, ht, hhalf⟩ := hbreaks
    cases p with
    | bulk c i =>
      refine ⟨t, .bulk c i, .release c i false, c.number, [.bulkFailed c.number],
        { s.place t (.release c i false) with bulkLock := false }, ?_, ht, rfl, rfl, rfl, rfl, rfl, rfl⟩
      simp only [step, go, ht, Bool.false_eq_true, if_false]
    | sendBulk number =>
      refine ⟨t, .sendBulk number, .idle, number, [.bulkFailed number, .sent number false],
        { s.place t .idle with bulkLock := false }, ?_, ht, rfl, rfl, rfl, rfl, rfl, rfl⟩
      simp only [step, go, ht, Bool.false_eq_true, if_false]
    | _ => exact absurd rfl hhalf
  | _ => exact hbreaks.elim

/-- After a transfer that is refused its message is without one. -/
theorem Breaks.not_transfers (hbreaks : Breaks s e) (h : Guarded s) (hs : step s e = .ok (o, s'))
    {xs : List Item} (hx : Transfers xs s.halfSent) : ¬ Transfers (xs ++ queuedIn o) s'.halfSent := by
  intro hx'
  obtain ⟨t, p, q, k, o', u, hs', ht, hbulk, hhalf, hq, hnone, hu, ho⟩ := hbreaks.eq_ok
  obtain ⟨rfl, rfl⟩ := Prod.mk.inj (Except.ok.inj (hs.symm.trans hs'))
  obtain ⟨hone, hrest⟩ := h.ends ht hbulk hhalf hq hnone
  rw [ho, List.append_nil, hu, hrest] at hx'
  rw [hone] at hx
  cases (awaits_of_transfers hx).symm.trans (awaits_of_transfers hx')

end Step

/-! ### The use of the service -/

/-- The thread has called `mmal_vc_use_internal` and not `mmal_vc_release_internal`. -/
def Thread.using : Thread → Bool
  | queue .. | bulk .. | wait .. | release .. => true
  | _ => false

/-- Whoever sends a message and waits for the answer has the service in use all the while. -/
def InUse (s : Client β) : Prop := ∀ p ∈ s.threads, p.using = true → s.used = true

/-- VCHIQ refuses the service to a thread that goes on all the same. -/
def Refuses (s : Client β) : Event β → Prop
  | .go t ok => ok = false ∧ s.usecount = 0 ∧ s.lock = false ∧ ∃ c i, s.threads[t]? = some (.use c i)
  | _ => False

/-- The service is in use as long as somebody counts, and nobody who uses it is not counted. -/
structure Counted (s : Client β) : Prop where
  used : s.used = decide (0 < s.usecount)
  counted : (s.users : ℤ) + s.threads.countP Thread.using ≤ s.usecount

section Step

variable {s s' : Client β} {e : Event β} {o : List (Note β)} {t : ℕ} {p q : Thread}

lemma Counted.inUse (h : Counted s) : InUse s := by
  intro p hp husing
  have hpos := List.countP_pos_iff.2 ⟨p, hp, husing⟩
  have hcounted := h.counted
  rw [h.used, decide_eq_true_eq]
  omega

lemma countP_using (ht : s.threads[t]? = some p) (q : Thread) :
    ((s.threads.set t q).countP Thread.using : ℤ) + p.using.toNat =
      s.threads.countP Thread.using + q.using.toNat := by
  exact_mod_cast countP_set_toNat ht q Thread.using

lemma Counted.goes (h : Counted s) (ht : s.threads[t]? = some p) (hthreads : s'.threads = s.threads.set t q)
    (hcount : s'.usecount = s.usecount) (hused : s'.used = s.used) (husers : s'.users = s.users)
    (husing : q.using = p.using) : Counted s' where
  used := by rw [hused, hcount, h.used]
  counted := by
    have hset := countP_using ht q
    have hcounted := h.counted
    rw [hthreads, hcount, husers]
    rw [husing] at hset
    omega

/-- What is in use stays so for one more. -/
lemma Counted.useInternal (h : Counted s) (ok : Bool) (hno : s.usecount = 0 → ok = true) :
    (s.useInternal ok).usecount = s.usecount + 1 ∧ (s.useInternal ok).used = true := by
  have hcounted := h.counted
  have hused := h.used
  rcases eq_or_ne s.usecount 0 with hzero | hzero
  · obtain rfl := hno hzero
    simp [Client.useInternal, hzero]
  · have hpos : 0 < s.usecount := by omega
    rw [decide_eq_true hpos] at hused
    simp [Client.useInternal, hzero, hused]

/-- Who releases it is counted no more, or the last is. -/
lemma Counted.releaseInternal (h : Counted s) (hpos : 0 < s.usecount) (ok : Bool) :
    (s.releaseInternal ok).used = decide (0 < (s.releaseInternal ok).usecount) ∧
    s.usecount - 1 ≤ (s.releaseInternal ok).usecount := by
  have hused := h.used
  rw [decide_eq_true hpos] at hused
  rcases eq_or_ne (s.usecount - 1) 0 with hlast | hlast
  · have hone : s.usecount = 1 := by omega
    cases ok <;> simp [Client.releaseInternal, hone, hused]
  · have hmore : 1 < s.usecount := by omega
    simp [Client.releaseInternal, hlast, hused, hmore]

/-- Who is refused goes on without the service. -/
lemma Counted.refused (h : Counted s) (href : Refuses s e) (hs : step s e = .ok (o, s')) : ¬ InUse s' := by
  cases e with
  | go t ok =>
    obtain ⟨rfl, hzero, hfree, c, i, ht⟩ := href
    have hused := h.used
    rw [hzero, decide_eq_false (Int.lt_irrefl 0)] at hused
    simp only [step, go, ht, locked, hfree, Bool.false_eq_true, if_false, Except.ok.injEq,
      Prod.mk.injEq] at hs
    intro hin
    have htrue := hin (.queue c i) ?_ rfl
    · rw [← hs.2] at htrue
      simp only [place, Client.useInternal, hused, hzero, Bool.false_eq_true, and_false, if_false] at htrue
    · rw [← hs.2]
      exact List.mem_of_getElem? ((getElem?_set ht _ t).trans (if_pos rfl))
  | _ => exact href.elim

end Step

/-! ### Where the threads come to rest -/

/-- How many steps a thread can do before its call returns. -/
def Thread.rank : Thread → ℕ
  | idle => 0
  | post .. | sendBulk _ => 1
  | free .. | sendQueue .. => 2
  | release .. | sendLock _ => 3
  | wait .. => 4
  | bulk .. => 5
  | queue .. => 6
  | use .. => 7
  | scan _ i => 8 + (maxWaiters - i)
  | lock _ => 9 + maxWaiters
  | sem _ => 10 + maxWaiters
  | bulkLock _ => 11 + maxWaiters

def ranks (s : Client β) : ℕ := (s.threads.map Thread.rank).sum

def Event.isCall : Event β → Bool
  | sendwait .. | send .. => true
  | _ => false

def Event.isGo : Event β → Bool
  | go .. => true
  | _ => false

/-- The threads can do nothing, and what was sent to VideoCore or came back from it has been read. -/
structure Rests (s : Client β) : Prop where
  blocked : ∀ t, s.go t true = .error .blocked
  wire : s.wire = []
  replies : s.replies = []

section Step

variable {s s' : Client β} {e : Event β} {o : List (Note β)} {t : ℕ} {p q : Thread}

lemma ranks_set (ht : s.threads[t]? = some p) (hthreads : s'.threads = s.threads.set t q) :
    ranks s' + p.rank = ranks s + q.rank := by
  rw [ranks, hthreads]
  exact sum_set ht q Thread.rank

/-- A thread gets on. -/
lemma ranks_goes (ht : s.threads[t]? = some p) (hthreads : s'.threads = s.threads.set t q)
    (hrank : q.rank < p.rank) : ranks s' + 1 ≤ ranks s + 0 := by
  have hset := ranks_set ht hthreads
  omega

/-- A call comes to a thread. -/
lemma ranks_enters (ht : s.threads[t]? = some .idle) (hthreads : s'.threads = s.threads.set t q)
    (hrank : q.rank ≤ 11 + maxWaiters) : ranks s' + 0 ≤ ranks s + (11 + maxWaiters) := by
  have hset := ranks_set ht hthreads
  rw [show Thread.idle.rank = 0 from rfl] at hset
  omega

theorem ranks_step (h : Held s) (hd : Does s e o s') :
    ranks s' + (if e.isGo then 1 else 0) ≤ ranks s + if e.isCall then 11 + maxWaiters else 0 := by
  cases hd with
  | sendwait t destlen bulk ht =>
    refine ranks_enters ht rfl ?_
    split <;> simp only [Thread.rank] <;> omega
  | send t bulk ht =>
    refine ranks_enters ht rfl ?_
    split <;> simp only [Thread.rank] <;> omega
  | passes t ok c i w ht hw hin =>
    have hlt : i < maxWaiters := h.books.sixteen ▸ (List.getElem?_eq_some_iff.1 hw).1
    exact ranks_goes ht rfl (by simp only [Thread.rank]; omega)
  | takes t ok c i w ht hw hin => exact ranks_goes ht rfl (by simp only [Thread.rank]; omega)
  | queues t c i ht =>
    refine ranks_goes ht rfl ?_
    split <;> simp only [Thread.rank] <;> omega
  | locksBulk _ _ _ ht | takesSem _ _ _ _ ht | locks _ _ _ ht | uses _ _ _ _ ht | fails _ _ _ ht
  | bulks _ _ _ ht | bulkFails _ _ _ ht | wakes _ _ _ _ _ _ ht | releases _ _ _ _ _ ht | frees _ _ _ _ _ _ ht
  | posts _ _ _ _ ht | sendLocks _ _ _ ht | sendQueues _ _ ht | sends _ _ ht | sendFails _ _ _ ht
  | sendBulks _ _ ht | sendBulkFails _ _ ht =>
    exact ranks_goes ht rfl (by simp only [Thread.rank]; omega)
  | _ => exact Nat.le_refl _

/-- At rest nobody looks for a waiter, so the mutex is free. -/
lemma Rests.free (hr : Rests s) (h : Held s) : s.lock = false := by
  by_contra hlock
  have hbooks := h.books.lock
  rw [Bool.of_not_eq_false hlock] at hbooks
  obtain ⟨p, hp, hscan⟩ := List.countP_pos_iff.1 (Nat.lt_of_lt_of_eq Nat.one_pos hbooks.symm)
  obtain ⟨t, ht⟩ := List.mem_iff_getElem?.1 hp
  have hblocked := hr.blocked t
  cases p with
  | scan c i =>
    obtain ⟨w, hw⟩ := h.scan_lt hp
    simp only [go, ht, scan, hw] at hblocked
    split at hblocked <;> cases hblocked
  | _ => cases hscan

/-- A thread at rest is idle, or at a semaphore or the mutex of the bulk transfers. -/
def Thread.halts : Thread → Bool
  | idle | bulkLock _ | sem _ | wait .. | sendLock _ => true
  | _ => false

lemma token_of_halts (h : p.halts = true) : p.token = false := by
  cases p <;> first | rfl | cases h

lemma Rests.halts (hr : Rests s) (h : Held s) (hp : p ∈ s.threads) : p.halts = true := by
  obtain ⟨t, ht⟩ := List.mem_iff_getElem?.1 hp
  have hblocked := hr.blocked t
  have hfree := hr.free h
  cases p with
  | lock c | use c i | release c i reply => simp [go, ht, locked, hfree] at hblocked
  | scan c i =>
    obtain ⟨w, hw⟩ := h.scan_lt hp
    simp only [go, ht, scan, hw] at hblocked
    split at hblocked <;> cases hblocked
  | free c i reply =>
    obtain ⟨w, hw, hin⟩ := h.books.inuse hp (List.mem_singleton.2 rfl)
    simp [go, ht, Client.free, hw, hin] at hblocked
  | queue c i | bulk c i | post c reply | sendQueue number bulk | sendBulk number => simp [go, ht] at hblocked
  | _ => rfl

/-- Who waits at rest waits for VideoCore. -/
lemma Rests.asked (hr : Rests s) (h : Held s) {c : Call} {i : ℕ} (hp : .wait c i ∈ s.threads) :
    ⟨i, c.number⟩ ∈ s.asked := by
  obtain ⟨t, ht⟩ := List.mem_iff_getElem?.1 hp
  have hblocked := hr.blocked t
  rcases h.stands _ hp with hmem | ⟨⟨sem, inuse, dest, destlen⟩, hw, hpos⟩
  · simpa [flight, hr.wire, hr.replies] using hmem
  · obtain ⟨n, rfl⟩ := Nat.exists_eq_add_of_lt hpos
    simp [go, ht, wait, hw] at hblocked

/-- Who waits at rest for a waiter waits for one of sixteen messages to be answered. -/
lemma Rests.sixteen (hr : Rests s) (h : Held s) {c : Call} (hp : .sem c ∈ s.threads) :
    maxWaiters ≤ s.asked.length := by
  obtain ⟨t, ht⟩ := List.mem_iff_getElem?.1 hp
  have hblocked := hr.blocked t
  have hsem : s.sem = 0 := by
    cases hn : s.sem with
    | zero => rfl
    | succ n => simp [go, ht, hn] at hblocked
  have htoken : s.threads.countP Thread.token = 0 := by
    refine List.countP_eq_zero.2 fun p hp => ?_
    rw [token_of_halts (hr.halts h hp)]
    exact Bool.false_ne_true
  have hpool := h.books.pool
  rw [hsem, htoken] at hpool
  have hwaits : ∀ i ∈ List.range maxWaiters, i ∈ s.asked.map Request.waiter := by
    intro i hi
    have hlt : i < s.waiters.length := h.books.sixteen.symm ▸ List.mem_range.1 hi
    have hin : s.waiters[i].inuse = true := by
      have hno := List.countP_eq_zero.1 hpool.symm _ (List.getElem_mem hlt)
      simpa [isFree] using hno
    have hcount := h.books.owned i
    rw [inUse_eq (List.getElem?_eq_getElem hlt), hin] at hcount
    obtain ⟨p, hp, hown⟩ := List.mem_flatMap.1 (List.count_pos_iff.1 (Nat.lt_of_lt_of_eq Nat.one_pos hcount.symm))
    have hhalts := hr.halts h hp
    cases p with
    | wait c j =>
      obtain rfl := List.mem_singleton.1 hown
      exact List.mem_map.2 ⟨_, hr.asked h hp, rfl⟩
    | idle | bulkLock c | sem c | lock c | scan c j | post c reply | sendLock number | sendQueue number bulk
    | sendBulk number => exact absurd hown List.not_mem_nil
    | _ => cases hhalts
  have hlen := (List.subperm_of_subset List.nodup_range hwaits).length_le
  rwa [List.length_range, List.length_map] at hlen

/-- The mutex of the bulk transfers is held up by nothing else. -/
lemma Rests.bulk (hr : Rests s) (h : Held s) (hg : Guarded s) (hlock : s.bulkLock = true) :
    maxWaiters ≤ s.asked.length := by
  have hlocked := hg.locked
  rw [hlock] at hlocked
  obtain ⟨p, hp, hbulk⟩ := List.countP_pos_iff.1 (Nat.lt_of_lt_of_eq Nat.one_pos hlocked.symm)
  have hhalts := hr.halts h hp
  cases p with
  | sem c => exact hr.sixteen h hp
  | idle | bulkLock c | wait c i | sendLock number => cases hbulk
  | _ => cases hhalts

theorem Rests.waits (hr : Rests s) (h : Held s) (hg : Guarded s) (hp : p ∈ s.threads) :
    p = .idle ∨ (∃ c i, p = .wait c i ∧ ⟨i, c.number⟩ ∈ s.asked) ∨ maxWaiters ≤ s.asked.length := by
  obtain ⟨t, ht⟩ := List.mem_iff_getElem?.1 hp
  have hblocked := hr.blocked t
  have hhalts := hr.halts h hp
  cases p with
  | idle => exact .inl rfl
  | wait c i => exact .inr (.inl ⟨c, i, rfl, hr.asked h hp⟩)
  | sem c => exact .inr (.inr (hr.sixteen h hp))
  | bulkLock c | sendLock number =>
    refine .inr (.inr (hr.bulk h hg ?_))
    by_contra hfree
    simp [go, ht, hfree] at hblocked
  | _ => cases hhalts

end Step

section Run

variable {n : ℕ} {es : List (Event β)} {os : List (List (Note β))} {s : Client β}

lemma countP_create (n : ℕ) {f : Thread → Bool} (hf : f .idle = false) :
    (create n : Client β).threads.countP f = 0 := by
  refine List.countP_eq_zero.2 fun p hp => ?_
  rw [List.eq_of_mem_replicate hp, hf]
  exact Bool.false_ne_true

lemma guarded_create (n : ℕ) : Guarded (create n : Client β) :=
  ⟨countP_create n rfl, fun _ hp => List.eq_of_mem_replicate hp ▸ rfl⟩

lemma guarded_run (h : run step (create n) es = .ok (os, s)) : Guarded s :=
  inv_run (fun _ _ _ _ hI hs => guarded_step hI (does_of_step hs)) (guarded_create n) h

/-- **The bulk transfers.** Whatever the threads send, and whatever else VCHIQ refuses of it, after each part
of a run every message with a bulk transfer is followed by its own transfer, but for the last one, and only
messages without one come between the two, exactly if VCHIQ refuses no transfer whose message it has taken. -/
theorem bulk_paired (n : ℕ) (es : List (Event β)) :
    (∀ fs, fs <+: es → ∀ os s, run step (create n) fs = .ok (os, s) →
      Transfers (os.flatMap queuedIn) s.halfSent) ↔
      Along step (fun s e => ¬ Breaks s e) (create n) es := by
  refine @along_iff_prefixes _ _ _ _ step _ es
    (fun os s => Guarded s ∧ Transfers (os.flatMap queuedIn) s.halfSent)
    (fun os s => Transfers (os.flatMap queuedIn) s.halfSent) _ (fun _ _ hJ => hJ.2)
    (fun os s e o s' hJ hs hP => ?_) (fun os s e o s' hJ hs hQ hbreaks => ?_)
    (fun os s e f _ hs hbreaks => ?_) [] ⟨guarded_create n, ?_⟩
  · have hd := does_of_step hs
    rw [List.flatMap_append, List.flatMap_singleton]
    exact ⟨guarded_step hJ.1 hd, transfers_step hJ.1 hd hP hJ.2⟩
  · rw [List.flatMap_append, List.flatMap_singleton] at hQ
    exact hbreaks.not_transfers hJ.1 hs hJ.2 hQ
  · obtain ⟨t, p, q, k, o, s', hs', -⟩ := hbreaks.eq_ok
    cases hs.symm.trans hs'
  · have hnil : (create n : Client β).halfSent = [] :=
      List.flatMap_eq_nil_iff.2 fun p hp => List.eq_of_mem_replicate hp ▸ rfl
    rw [hnil]
    exact .nil

/-- A message comes between another and its transfer, and a third that wants a transfer waits. -/
example : ∃ os s, run step (create 3 : Client ℕ) [.sendwait 0 8 true, .go 0 true, .go 0 true, .go 0 true,
    .go 0 true, .go 0 true, .go 0 true, .send 1 false, .go 1 true, .send 2 true, .go 0 true, .go 2 true,
    .go 2 true] = .ok (os, s) ∧
    os.flatMap queuedIn = [.request ⟨0, 0⟩ true, .message 1 false, .bulk 0, .message 2 true] ∧
    s.halfSent = [2] :=
  ⟨_, _, rfl, rfl, rfl⟩

/-- **The calls return.** Whatever VCHIQ refuses, the threads do at most twenty-seven steps for each call; and
when they can do no more, VideoCore has read all it was sent, and its answers have arrived, a call that has not
returned waits for its own message to be answered, unless sixteen are waiting for that. -/
theorem calls_return (h : run step (create n) es = .ok (os, s)) :
    es.countP Event.isGo ≤ 27 * es.countP Event.isCall ∧
    (Rests s → ∀ p ∈ s.threads, p = .idle ∨ (∃ c i, p = .wait c i ∧ ⟨i, c.number⟩ ∈ s.asked) ∨
      maxWaiters ≤ s.asked.length) := by
  refine ⟨?_, fun hr p hp => hr.waits (held_run h) (guarded_run h) hp⟩
  have hbudget : ranks s + es.countP Event.isGo ≤ ranks (create n : Client β) +
      (es.map fun e => if e.isCall then 11 + maxWaiters else 0).sum :=
    budget_run (fun _ _ _ _ hI hs => held_step hI (does_of_step hs))
      (fun _ _ _ _ hI hs => ranks_step hI (does_of_step hs)) (sound_create n).toHeld h
  have hzero : ranks (create n : Client β) = 0 := by
    simp [ranks, create, Thread.rank]
  have hgain : (es.map fun e : Event β => if e.isCall then 11 + maxWaiters else 0).sum =
      27 * es.countP Event.isCall := by
    clear h hbudget
    induction es with
    | nil => rfl
    | cons e es ih =>
      rw [List.map_cons, List.sum_cons, List.countP_cons, ih]
      split
      · rw [show maxWaiters = 16 from rfl]
        omega
      · omega
  rw [hzero, hgain] at hbudget
  omega

/-- A message is sent and answered, and its call returns; another waits for its answer. -/
theorem calls_return_twice : ∃ os s,
    run step (create 2 : Client ℕ) [.sendwait 0 8 false, .go 0 true, .go 0 true, .go 0 true, .go 0 true,
      .go 0 true, .reads, .answers ⟨0, 0⟩ [1, 2, 3], .callback, .go 0 true, .go 0 true, .go 0 true,
      .go 0 true, .sendwait 1 2 false, .go 1 true, .go 1 true, .go 1 true, .go 1 true, .go 1 true,
      .reads] = .ok (os, s) ∧
    14 ≤ 27 * 2 ∧ Rests s ∧ ∀ p ∈ s.threads, p = .idle ∨ (∃ c i, p = .wait c i ∧ ⟨i, c.number⟩ ∈ s.asked) ∨
      maxWaiters ≤ s.asked.length := by
  obtain ⟨os, s, h, hrests⟩ : ∃ os s,
      run step (create 2 : Client ℕ) [.sendwait 0 8 false, .go 0 true, .go 0 true, .go 0 true, .go 0 true,
        .go 0 true, .reads, .answers ⟨0, 0⟩ [1, 2, 3], .callback, .go 0 true, .go 0 true, .go 0 true,
        .go 0 true, .sendwait 1 2 false, .go 1 true, .go 1 true, .go 1 true, .go 1 true, .go 1 true,
        .reads] = .ok (os, s) ∧ Rests s := by
    refine ⟨_, _, rfl, fun t => ?_, rfl, rfl⟩
    rcases t with _ | _ | t <;> rfl
  exact ⟨os, s, h, (calls_return h).1, hrests, (calls_return h).2 hrests⟩

end Run

end RcControl.Mmal.Client
