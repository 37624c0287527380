import RcControl.Dispatch.Order
import Mathlib.Order.Basic

/-!
# No lost wake-up, and the end of the work

`Sound` is what every step keeps: who has the mutex, that nobody leaves before `quit`, and that while a
thread sleeps there are notices and threads on their way for all that is queued. So no wake-up is lost
(`no_lost_wakeUp`). The threads do not turn in vain either: what they do is paid by what is pushed, but for
the first turn of each and what comes of spurious wake-ups, and when they can do no more, all that was
dispatched has been run (`work_done`) or the queue has quit and they have left (`shutdown`).
-/

namespace RcControl.Dispatch

open Lib Lib.Run

variable {α : Type*}

/-- The thread is on its way to the queue. -/
def Thread.coming : Thread α → Bool
  | .locking | .testing => true
  | _ => false

/-- What every step keeps, of a queue with `n` threads. -/
structure Sound (n : ℕ) (d : DispatchQueue α) : Prop where
  length : d.threads.length = n
  owner : ∀ i, d.threads[i]? = some .testing ↔ d.lockMutex = some i
  stays : d.quit = false → .left ∉ d.threads
  joins : d.joining = true → d.quit = true ∧ .sleeping ∉ d.threads
  /-- As long as a thread sleeps, what is queued has been noticed or will be. -/
  noticed : d.quit = false → .sleeping ∈ d.threads →
    d.queue.length ≤ d.notices + d.threads.countP Thread.coming

section Step

variable {n i j : ℕ} {d d' : DispatchQueue α} {e : Event α} {o : List (Did α)} {a b : Thread α}

lemma sound_create (n : ℕ) : Sound n (DispatchQueue.create n : DispatchQueue α) where
  length := List.length_replicate
  owner i := by simp [DispatchQueue.create, List.getElem?_replicate]
  stays _ h := by cases List.eq_of_mem_replicate h
  joins h := by cases h
  noticed _ _ := Nat.zero_le _

lemma mem_place (h : a ∈ (d.place i b).threads) : a = b ∨ a ∈ d.threads :=
  (List.mem_or_eq_of_mem_set h).symm

lemma coming_place (hi : d.threads[i]? = some a) (b : Thread α) :
    (d.place i b).threads.countP Thread.coming + (if a.coming then 1 else 0) =
      d.threads.countP Thread.coming + if b.coming then 1 else 0 :=
  Crew.countP_set hi b Thread.coming

/-- A thread that neither takes the mutex nor gives it up. -/
lemma owner_place (h : Sound n d) (hi : d.threads[i]? = some a) (ha : a ≠ .testing) (hb : b ≠ .testing) :
    (d.place i b).threads[j]? = some .testing ↔ d.lockMutex = some j := by
  rw [DispatchQueue.place, Crew.getElem?_set hi, ← h.owner j]
  split
  · subst_vars
    simp [hi, ha, hb]
  · rfl

/-- The thread that has the mutex gives it up. -/
lemma owner_test (h : Sound n d) (hi : d.threads[i]? = some .testing) (hb : b ≠ .testing) :
    (d.place i b).threads[j]? ≠ some .testing := by
  rw [DispatchQueue.place, Crew.getElem?_set hi]
  split
  · simpa using hb
  · rename_i hne
    intro hj
    have hlock := (h.owner i).1 hi
    rw [(h.owner j).1 hj] at hlock
    exact hne (Option.some.inj hlock).symm

lemma sleeping_notMem_roused (l : List (Thread α)) : .sleeping ∉ l.map Thread.roused := by
  intro h
  obtain ⟨t, -, ht⟩ := List.mem_map.1 h
  cases t <;> cases ht

lemma testing_roused (l : List (Thread α)) :
    (l.map Thread.roused)[i]? = some .testing ↔ l[i]? = some .testing := by
  rw [List.getElem?_map]
  rcases l[i]? with _ | t
  · simp
  · cases t <;> simp [Thread.roused]

theorem owner_step (h : Sound n d) (hs : d.step e = .ok (o, d')) :
    d'.threads[i]? = some .testing ↔ d'.lockMutex = some i := by
  cases does_of_step hs with
  | locks j hfree hj =>
    simp only [DispatchQueue.place, Crew.getElem?_set hj, Option.some.injEq]
    split
    · exact iff_of_true rfl ‹_›
    · rename_i hne
      refine iff_of_false (fun hi => ?_) hne
      rw [(h.owner i).1 hi] at hfree
      cases hfree
  | leaves j hj hq => exact iff_of_false (owner_test h hj (by simp)) (by simp)
  | sleeps j hj hq hempty => exact iff_of_false (owner_test h hj (by simp)) (by simp)
  | starts j op ops hj hq hqueue => exact iff_of_false (owner_test h hj (by simp)) (by simp)
  | finishes j op hj => exact owner_place h hj (by simp) (by simp)
  | wakes j hj => exact owner_place h hj (by simp) (by simp)
  | notifies j m hm hj => exact owner_place h hj (by simp) (by simp)
  | rouses hq hj => exact (testing_roused d.threads).trans (h.owner i)
  | _ => exact h.owner i

theorem stays_step (h : Sound n d) (hs : d.step e = .ok (o, d')) (hq : d'.quit = false) :
    .left ∉ d'.threads := by
  cases does_of_step hs with
  | leaves i hi hq' => cases hq'.symm.trans hq
  | rouses hq' hj => cases hq'.symm.trans hq
  | quits hfree => cases hq
  | pushes op hfree => exact h.stays hq
  | notifiesNobody m hm hnone => exact h.stays hq
  | removes hfree => exact h.stays hq
  | _ =>
    intro hl
    rcases mem_place hl with hl | hl
    · cases hl
    · exact h.stays hq hl

theorem joins_step (h : Sound n d) (hs : d.step e = .ok (o, d')) (hj : d'.joining = true) :
    d'.quit = true ∧ .sleeping ∉ d'.threads := by
  cases does_of_step hs with
  | rouses hq _ => exact ⟨hq, sleeping_notMem_roused d.threads⟩
  | sleeps i hi hq hempty => cases hq.symm.trans (h.joins hj).1
  | quits hfree => exact ⟨rfl, (h.joins hj).2⟩
  | pushes op hfree => exact h.joins hj
  | notifiesNobody m hm hnone => exact h.joins hj
  | removes hfree => exact h.joins hj
  | _ =>
    obtain ⟨hq, hsl⟩ := h.joins hj
    refine ⟨hq, fun hmem => ?_⟩
    rcases mem_place hmem with hl | hl
    · cases hl
    · exact hsl hl

/-- A thread that goes from one place to another wakes nobody. -/
lemma sleeping_of_place (hb : b ≠ .sleeping) (h : .sleeping ∈ (d.place i b).threads) :
    .sleeping ∈ d.threads :=
  (mem_place h).resolve_left hb.symm

theorem noticed_step (h : Sound n d) (hs : d.step e = .ok (o, d')) (hq : d'.quit = false)
    (hsl : .sleeping ∈ d'.threads) :
    d'.queue.length ≤ d'.notices + d'.threads.countP Thread.coming := by
  cases does_of_step hs with
  | locks i hfree hi =>
    have hbefore := h.noticed hq (sleeping_of_place (by simp) hsl)
    have hcount := coming_place hi .testing
    simp only [Thread.coming, if_true] at hcount
    simp only [DispatchQueue.place] at hcount ⊢
    omega
  | leaves i hi hq' => cases hq'.symm.trans hq
  | sleeps i hi hq' hempty =>
    -- who goes to sleep has seen that there is nothing
    have hnone : (d.place i .sleeping).queue = [] := hempty
    simp [hnone]
  | starts i op ops hi hq' hqueue =>
    have hbefore := h.noticed hq' (sleeping_of_place (by simp) hsl)
    have hcount := coming_place hi (.running op)
    rw [hqueue, List.length_cons] at hbefore
    simp only [Thread.coming, if_true, Bool.false_eq_true, if_false] at hcount
    simp only [DispatchQueue.place] at hcount ⊢
    omega
  | finishes i op hi =>
    have hbefore := h.noticed hq (sleeping_of_place (by simp) hsl)
    have hcount := coming_place hi .locking
    simp only [Thread.coming, if_true, Bool.false_eq_true, if_false] at hcount
    simp only [DispatchQueue.place] at hcount ⊢
    omega
  | wakes i hi =>
    have hbefore := h.noticed hq (List.mem_of_getElem? hi)
    have hcount := coming_place hi .locking
    simp only [Thread.coming, if_true, Bool.false_eq_true, if_false] at hcount
    simp only [DispatchQueue.place] at hcount ⊢
    omega
  | pushes op hfree =>
    have hbefore := h.noticed hq hsl
    simp only [List.length_append, List.length_singleton]
    omega
  | notifies i m hm hi =>
    have hbefore := h.noticed hq (List.mem_of_getElem? hi)
    have hcount := coming_place hi .locking
    simp only [Thread.coming, if_true, Bool.false_eq_true, if_false] at hcount
    simp only [DispatchQueue.place] at hcount ⊢
    omega
  | notifiesNobody m hm hnone => exact absurd hsl hnone
  | removes hfree => exact Nat.zero_le _
  | quits hfree => cases hq
  | rouses hq' hj => exact absurd hsl (sleeping_notMem_roused d.threads)

theorem sound_step : Invariant DispatchQueue.step (Sound n (α := α)) :=
  fun _ _ _ _ h hs => ⟨(length_step hs).trans h.length, fun _ => owner_step h hs, stays_step h hs,
    joins_step h hs, noticed_step h hs⟩

end Step

section Wakeup

variable {n : ℕ} {d : DispatchQueue α} {es : List (Event α)} {os : List (List (Did α))}

lemma sound_run (h : run DispatchQueue.step (.create n) es = .ok (os, d)) : Sound n d :=
  inv_run sound_step (sound_create n) h

/-- **No lost wake-up.** While a thread sleeps there is, for each operation that is queued, a notice still
to come or another thread on its way; the threads that run something are not counted on. -/
theorem no_lost_wakeUp (h : run DispatchQueue.step (.create n) es = .ok (os, d)) (hq : d.quit = false)
    (hsl : .sleeping ∈ d.threads) :
    d.queue.length ≤ d.notices + d.threads.countP Thread.coming :=
  (sound_run h).noticed hq hsl

/-- One thread runs an operation, the other sleeps, and a second operation has been pushed. -/
theorem no_lost_wakeUp_pushed : ∃ os d, run DispatchQueue.step (.create 2)
      [.lock 0, .test 0, .push 1, .notifyOne (some 0), .lock 0, .test 0, .lock 1, .test 1, .push 2] =
        .ok (os, d) ∧ d.queue.length ≤ d.notices + d.threads.countP Thread.coming := by
  obtain ⟨os, d, h, hq, hsl⟩ : ∃ os d, run DispatchQueue.step (.create 2)
      [.lock 0, .test 0, .push 1, .notifyOne (some 0), .lock 0, .test 0, .lock 1, .test 1, .push 2] =
        .ok (os, d) ∧ d.quit = false ∧ .sleeping ∈ d.threads :=
    ⟨_, _, rfl, rfl, List.mem_of_getElem? (show _[1]? = some Thread.sleeping from rfl)⟩
  exact ⟨os, d, h, no_lost_wakeUp h hq hsl⟩

end Wakeup

/-! ### What the threads do -/

/-- A step of one of the threads. -/
def Event.ofThread : Event α → Bool
  | .lock _ | .test _ | .finish _ => true
  | _ => false

/-- A step of the thread `i`. -/
def Event.isOf (i : ℕ) : Event α → Bool
  | .lock j | .test j | .finish j => j == i
  | _ => false

/-- A step of one of the threads, or of a call of `dispatch` that has pushed. -/
def Event.inner : Event α → Bool
  | .notifyOne _ => true
  | e => e.ofThread

def Event.spurious : Event α → Bool
  | .wake _ => true
  | _ => false

/-- How many steps a thread can do before it sleeps or leaves, if there is nothing for it. -/
def Thread.rank : Thread α → ℕ
  | .running _ => 3
  | .locking => 2
  | .testing => 1
  | .sleeping | .left => 0

def ranks (d : DispatchQueue α) : ℕ := (d.threads.map Thread.rank).sum

/-- The same for the thread `i` alone. -/
def rankOf (d : DispatchQueue α) (i : ℕ) : ℕ := d.threads[i]?.elim 0 Thread.rank

/-- What `notify_all` gives `n` threads to do. -/
def notifyAllGives (n : ℕ) : Bool → ℕ
  | false => 2 * n
  | true => 0

/-- What the threads can still do if nothing comes but `notify_all`. -/
def work (n : ℕ) (d : DispatchQueue α) : ℕ :=
  3 * d.queue.length + 3 * d.notices + ranks d + notifyAllGives n d.joining

/-- What an event gives them to do. -/
def gives : Event α → ℕ
  | .push _ => 6
  | .wake _ => 2
  | _ => 0

section Budget

variable {n i : ℕ} {d d' : DispatchQueue α} {e : Event α} {o : List (Did α)} {a : Thread α}

lemma ranks_place (hi : d.threads[i]? = some a) (b : Thread α) :
    ranks (d.place i b) + a.rank = ranks d + b.rank :=
  Crew.sum_set hi b Thread.rank

lemma ranks_roused (l : List (Thread α)) :
    ((l.map Thread.roused).map Thread.rank).sum ≤ (l.map Thread.rank).sum + 2 * l.length := by
  induction l with
  | nil => exact Nat.le_refl 0
  | cons t l ih =>
    have hone : t.roused.rank ≤ t.rank + 2 := by cases t <;> simp [Thread.roused, Thread.rank]
    simp only [List.map_cons, List.sum_cons, List.length_cons]
    omega

lemma rankOf_le (d : DispatchQueue α) (i : ℕ) : rankOf d i ≤ 3 := by
  unfold rankOf
  rcases d.threads[i]? with _ | t
  · exact Nat.zero_le 3
  · cases t <;> simp [Thread.rank]

/-- A thread that goes on pays for it, and the others have what they had. -/
lemma rankOf_place (hj : d.threads[j]? = some a) (b : Thread α) (hlt : b.rank + 1 ≤ a.rank) (i : ℕ) :
    rankOf (d.place j b) i + (if (j == i) = true then 1 else 0) ≤ rankOf d i := by
  simp only [rankOf, DispatchQueue.place, Crew.getElem?_set hj, beq_iff_eq]
  by_cases hji : j = i
  · subst hji
    simpa [hj] using hlt
  · simp [hji]

/-- **What a step costs.** -/
theorem work_step (h : Sound n d) (hs : d.step e = .ok (o, d')) :
    work n d' + (if e.inner then 1 else 0) ≤ work n d + gives e := by
  cases does_of_step hs with
  | locks i hfree hi =>
    have hrank := ranks_place hi .testing
    simp only [Thread.rank, ranks, DispatchQueue.place] at hrank
    simp only [work, ranks, gives, Event.inner, Event.ofThread, DispatchQueue.place, if_true]
    omega
  | leaves i hi hq =>
    have hrank := ranks_place hi .left
    simp only [Thread.rank, ranks, DispatchQueue.place] at hrank
    simp only [work, ranks, gives, Event.inner, Event.ofThread, DispatchQueue.place, if_true]
    omega
  | sleeps i hi hq hempty =>
    have hrank := ranks_place hi .sleeping
    simp only [Thread.rank, ranks, DispatchQueue.place] at hrank
    simp only [work, ranks, gives, Event.inner, Event.ofThread, DispatchQueue.place, if_true]
    omega
  | starts i op ops hi hq hqueue =>
    have hrank := ranks_place hi (.running op)
    simp only [Thread.rank, ranks, DispatchQueue.place] at hrank
    simp only [work, ranks, gives, Event.inner, Event.ofThread, DispatchQueue.place, if_true, hqueue,
      List.length_cons]
    omega
  | finishes i op hi =>
    have hrank := ranks_place hi .locking
    simp only [Thread.rank, ranks, DispatchQueue.place] at hrank
    simp only [work, ranks, gives, Event.inner, Event.ofThread, DispatchQueue.place, if_true]
    omega
  | wakes i hi =>
    have hrank := ranks_place hi .locking
    simp only [Thread.rank, ranks, DispatchQueue.place] at hrank
    simp only [work, ranks, gives, Event.inner, Event.ofThread, DispatchQueue.place, Bool.false_eq_true,
      if_false]
    omega
  | pushes op hfree =>
    simp only [work, ranks, gives, Event.inner, Event.ofThread, Bool.false_eq_true, if_false,
      List.length_append, List.length_singleton]
    omega
  | notifies i m hm hi =>
    have hrank := ranks_place hi .locking
    simp only [Thread.rank, ranks, DispatchQueue.place] at hrank
    simp only [work, ranks, gives, Event.inner, DispatchQueue.place, if_true, hm]
    omega
  | notifiesNobody m hm hnone =>
    simp only [work, ranks, gives, Event.inner, if_true, hm]
    omega
  | removes hfree =>
    simp only [work, ranks, gives, Event.inner, Event.ofThread, Bool.false_eq_true, if_false, List.length_nil]
    omega
  | quits hfree => exact Nat.le_refl _
  | rouses hq hj =>
    have hrank := ranks_roused d.threads
    have hlen := h.length
    simp only [work, ranks, gives, Event.inner, Event.ofThread, Bool.false_eq_true, if_false, hj,
      notifyAllGives]
    omega

/-- After `notify_all` each thread has only its own way to go, whatever else happens. -/
theorem rankOf_step (h : Sound n d) (hj : d.joining = true) (hs : d.step e = .ok (o, d')) (i : ℕ) :
    rankOf d' i + (if e.isOf i then 1 else 0) ≤ rankOf d i := by
  obtain ⟨hq, hsl⟩ := h.joins hj
  cases does_of_step hs with
  | locks j hfree hthread => exact rankOf_place hthread .testing (Nat.le_refl 2) i
  | leaves j hthread hq => exact rankOf_place hthread .left (Nat.le_refl 1) i
  | sleeps j hthread hq' hempty => cases hq'.symm.trans hq
  | starts j op ops hthread hq' hqueue => cases hq'.symm.trans hq
  | finishes j op hthread => exact rankOf_place hthread .locking (Nat.le_refl 3) i
  | wakes j hthread => exact absurd (List.mem_of_getElem? hthread) hsl
  | notifies j m hm hthread => exact absurd (List.mem_of_getElem? hthread) hsl
  | rouses hq' hj' => cases hj'.symm.trans hj
  | _ => exact Nat.le_refl _

/-- `notify_all` is called once, and `quit` is not taken back. -/
lemma joining_step (hj : d.joining = true) (hs : d.step e = .ok (o, d')) : d'.joining = true := by
  cases does_of_step hs with
  | rouses hq hj' => cases hj'.symm.trans hj
  | _ => exact hj

/-- No thread starts anything once the queue has quit. -/
lemma started_step (hq : d.quit = true) (hs : d.step e = .ok (o, d')) : started o = [] := by
  cases does_of_step hs with
  | starts i op ops hi hq' hqueue => cases hq'.symm.trans hq
  | _ => rfl

end Budget

/-! ### When they can do no more -/

section Rest

variable {n i : ℕ} {d : DispatchQueue α}

/-- No thread can do a step, and no notice is to come. -/
def Rests (d : DispatchQueue α) : Prop := ∀ e : Event α, e.inner = true → d.step e = .error .blocked

/-- No thread can do a step. -/
def Stuck (d : DispatchQueue α) : Prop := ∀ e : Event α, e.ofThread = true → d.step e = .error .blocked

lemma Rests.stuck (h : Rests d) : Stuck d := by
  intro e he
  refine h e ?_
  cases e <;> first | exact he | cases he

/-- The thread that has the mutex can always go on. -/
lemma test_ok (hi : d.threads[i]? = some .testing) : d.step (.test i) ≠ .error .blocked := by
  simp only [DispatchQueue.step, DispatchQueue.test, hi]
  split
  · simp
  · split <;> simp

/-- **No deadlock.** Threads that can do nothing sleep or have left. -/
theorem sleeping_or_left (h : Sound n d) (hstuck : Stuck d) {t : Thread α} (ht : t ∈ d.threads) :
    t = .sleeping ∨ t = .left := by
  obtain ⟨i, hi⟩ := List.mem_iff_getElem?.1 ht
  cases t with
  | sleeping => exact .inl rfl
  | left => exact .inr rfl
  | testing => exact absurd (hstuck (.test i) rfl) (test_ok hi)
  | running op =>
    have hno := hstuck (.finish i) rfl
    simp [DispatchQueue.step, DispatchQueue.finish, hi] at hno
  | locking =>
    rcases hlock : d.lockMutex with _ | j
    · have hno := hstuck (.lock i) rfl
      simp [DispatchQueue.step, DispatchQueue.lock, hi, hlock] at hno
    · -- whoever has the mutex can go on
      exact absurd (hstuck (.test j) rfl) (test_ok ((h.owner j).2 hlock))

lemma notices_of_rests (h : Rests d) : d.notices = 0 := by
  rcases hn : d.notices with _ | m
  · rfl
  · by_cases hsl : .sleeping ∈ d.threads
    · obtain ⟨i, hi⟩ := List.mem_iff_getElem?.1 hsl
      have hno := h (.notifyOne (some i)) rfl
      simp [DispatchQueue.step, DispatchQueue.notifyOne, hn, hi] at hno
    · have hnone : d.threads.any DispatchQueue.isSleeping = false := by
        refine List.any_eq_false.2 fun t ht hsleeps => hsl ?_
        cases t <;> first | exact ht | cases hsleeps
      have hno := h (.notifyOne none) rfl
      simp [DispatchQueue.step, DispatchQueue.notifyOne, hn, hnone] at hno

/-- A queue at rest that has not quit is empty, and nothing runs. -/
theorem empty_of_rests (hn : 0 < n) (h : Sound n d) (hr : Rests d) (hq : d.quit = false) :
    d.queue = [] ∧ inHand d = [] := by
  have hall : ∀ t ∈ d.threads, t = .sleeping := fun t ht =>
    (sleeping_or_left h hr.stuck ht).resolve_right fun hl => h.stays hq (hl ▸ ht)
  constructor
  · have hne : d.threads ≠ [] := List.length_pos_iff.1 (h.length ▸ hn)
    obtain ⟨t, ht⟩ := List.exists_mem_of_ne_nil _ hne
    have hcount : d.threads.countP Thread.coming = 0 := by
      rw [List.countP_eq_zero]
      intro t ht
      rw [hall t ht]
      exact Bool.false_ne_true
    have hlen := h.noticed hq (hall t ht ▸ ht)
    rw [notices_of_rests hr, hcount] at hlen
    exact List.length_eq_zero_iff.1 (Nat.le_zero.1 hlen)
  · refine List.flatMap_eq_nil_iff.2 fun t ht => ?_
    rw [hall t ht]
    rfl

end Rest

section Run

variable {n : ℕ} {d d' : DispatchQueue α} {es fs : List (Event α)} {os os' : List (List (Did α))}

lemma sum_gives (es : List (Event α)) :
    (es.map gives).sum = 6 * (dispatched es).length + 2 * es.countP Event.spurious := by
  induction es with
  | nil => rfl
  | cons e es ih =>
    rw [List.map_cons, List.sum_cons, ih, List.countP_cons]
    cases e <;> simp [gives, dispatched, Event.spurious] <;> omega

lemma work_create (n : ℕ) : work n (DispatchQueue.create n : DispatchQueue α) = 4 * n := by
  simp only [work, ranks, DispatchQueue.create, notifyAllGives, List.map_replicate,
    List.sum_replicate_nat, Thread.rank, List.length_nil]
  omega

/-- **The work gets done.** In a run the threads and the calls of `dispatch` do a bounded number of steps,
so they come to rest if nothing else happens; and when they rest and the queue has not quit, whatever was
dispatched has been taken and whatever was started has finished. -/
theorem work_done (hn : 0 < n) (h : run DispatchQueue.step (.create n) es = .ok (os, d)) :
    es.countP Event.inner ≤ 4 * n + 6 * (dispatched es).length + 2 * es.countP Event.spurious ∧
    (Rests d → d.quit = false → dispatched es = os.flatMap taken ∧
      (os.flatMap started).Perm (os.flatMap finished)) := by
  constructor
  · have hbudget := budget_run sound_step (fun _ _ _ _ => work_step) (sound_create n) h
    rw [work_create, sum_gives] at hbudget
    omega
  · intro hr hq
    obtain ⟨hqueue, hhand⟩ := empty_of_rests hn (sound_run h) hr hq
    have htaken := queue_run h
    have hstarted := inHand_run h
    rw [hqueue, List.append_nil] at htaken
    rw [hhand, List.append_nil] at hstarted
    exact ⟨htaken, hstarted⟩

/-- One operation is dispatched and run, and the thread goes back to sleep. -/
theorem work_done_once : ∃ os d, run DispatchQueue.step (.create 1)
      [.lock 0, .test 0, .push 7, .notifyOne (some 0), .lock 0, .test 0, .finish 0, .lock 0, .test 0] =
        .ok (os, d) ∧
    8 ≤ 4 * 1 + 6 * 1 + 2 * 0 ∧
    (Rests d → d.quit = false → [7] = os.flatMap taken ∧
      (os.flatMap started).Perm (os.flatMap finished)) := by
  obtain ⟨os, d, h⟩ : ∃ os d, run DispatchQueue.step (.create 1)
      [.lock 0, .test 0, .push 7, .notifyOne (some 0), .lock 0, .test 0, .finish 0, .lock 0, .test 0] =
        .ok (os, d) := ⟨_, _, rfl⟩
  exact ⟨os, d, h, work_done Nat.one_pos h⟩

/-- **The destructor's `join`.** Once it has called `notify_all`, nothing is started any more, each thread
has at most three steps to go, whatever is still called, and when no thread can do a step all have left. -/
theorem shutdown (h : run DispatchQueue.step (.create n) es = .ok (os, d)) (hj : d.joining = true)
    (h' : run DispatchQueue.step d fs = .ok (os', d')) :
    os'.flatMap started = [] ∧ (∀ i, fs.countP (Event.isOf i) ≤ 3) ∧
      (Stuck d' → ∀ t ∈ d'.threads, t = .left) := by
  have hd : Sound n d ∧ d.joining = true := ⟨sound_run h, hj⟩
  have hI : Invariant DispatchQueue.step fun d : DispatchQueue α => Sound n d ∧ d.joining = true :=
    fun s e o s' hs hstep => ⟨sound_step s e o s' hs.1 hstep, joining_step hs.2 hstep⟩
  refine ⟨?_, fun i => ?_, fun hstuck t ht => ?_⟩
  · refine List.flatMap_eq_nil_iff.2 (out_run hI (fun s e o s' hs hstep => ?_) hd h')
    exact started_step (hs.1.joins hs.2).1 hstep
  · have hbudget : rankOf d' i + fs.countP (Event.isOf i) ≤ rankOf d i + (fs.map fun _ => 0).sum :=
      budget_run (μ := fun d => rankOf d i) hI (fun s e o s' hs hstep => rankOf_step hs.1 hs.2 hstep i) hd h'
    have hle := rankOf_le d i
    rw [List.map_const', List.sum_replicate_nat, Nat.mul_zero] at hbudget
    omega
  · obtain ⟨hsound, hj'⟩ := inv_run hI hd h'
    exact (sleeping_or_left hsound hstuck ht).resolve_left fun hsl => (hsound.joins hj').2 (hsl ▸ ht)

/-- The destructor comes while one thread runs an operation and the other sleeps. -/
theorem shutdown_whileRunning : ∃ os d os' d',
    run DispatchQueue.step (.create 2)
      [.lock 0, .test 0, .push 1, .lock 1, .test 1, .notifyOne (some 0), .push 2, .setQuit, .notifyAll] =
        .ok (os, d) ∧
    run DispatchQueue.step d [.lock 0, .test 0, .finish 1, .lock 1, .test 1] = .ok (os', d') ∧
    os'.flatMap started = [] ∧ (∀ i, [Event.lock 0, .test 0, .finish 1, .lock 1, .test 1].countP
      (Event.isOf (α := ℕ) i) ≤ 3) ∧ (Stuck d' → ∀ t ∈ d'.threads, t = .left) := by
  obtain ⟨os, d, os', d', h, hj, h'⟩ : ∃ os d os' d',
      run DispatchQueue.step (.create 2)
        [.lock 0, .test 0, .push 1, .lock 1, .test 1, .notifyOne (some 0), .push 2, .setQuit, .notifyAll] =
          .ok (os, d) ∧ d.joining = true ∧
      run DispatchQueue.step d [.lock 0, .test 0, .finish 1, .lock 1, .test 1] = .ok (os', d') :=
    ⟨_, _, _, _, rfl, rfl, rfl⟩
  exact ⟨os, d, os', d', h, h', shutdown h hj h'⟩

end Run

end RcControl.Dispatch
