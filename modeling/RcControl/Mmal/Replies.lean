import RcControl.Mmal.Waiters

/-!
# Who gets which answer

What a call returns is the answer to its own message, and never what was meant for another thread, though
the waiters go from hand to hand (`replied`), as long as no call gives up a waiter that VideoCore has been
told of.
-/

namespace RcControl.Mmal.Client

open Lib Lib.Run Lib.Crew

variable {β : Type*}

/-! ### Each message is answered once -/

/-- The call whose message is still to be sent. -/
def Thread.unsent : Thread → List ℕ
  | bulkLock c | sem c | lock c | scan c _ | use c _ | queue c _ => [c.number]
  | _ => []

/-- The calls that VideoCore has answered, and those it has been asked to. -/
def asks (s : Client β) : List ℕ :=
  s.answered.map Prod.fst ++ ((s.wire.filterMap fun
    | .request r _ => some r
    | _ => none) ++ s.asked).map Request.call

/-- VideoCore is asked once in each call. -/
structure Once (s : Client β) : Prop where
  nodup : s.asks.Nodup
  lt_next : ∀ k ∈ s.asks, k < s.next
  unsent : ∀ p ∈ s.threads, ∀ k ∈ p.unsent, k ∉ s.asks

section Step

variable {s s' : Client β} {e : Event β} {o : List (Note β)} {t : ℕ} {p q : Thread}

/-- VideoCore is asked nothing new. -/
lemma Once.keeps (h : Once s) (hasks : s'.asks.Perm s.asks) (hnext : s.next ≤ s'.next)
    (hthreads : ∀ p' ∈ s'.threads, ∀ k ∈ p'.unsent, (∃ p ∈ s.threads, k ∈ p.unsent) ∨ s.next ≤ k) :
    Once s' where
  nodup := hasks.nodup_iff.2 h.nodup
  lt_next k hk := Nat.lt_of_lt_of_le (h.lt_next k (hasks.mem_iff.1 hk)) hnext
  unsent p' hp' k hk hmem := by
    rcases hthreads p' hp' k hk with ⟨p, hp, hkp⟩ | hle
    · exact h.unsent p hp k hkp (hasks.mem_iff.1 hmem)
    · exact Nat.not_lt_of_le hle (h.lt_next k (hasks.mem_iff.1 hmem))

/-- A thread goes on. -/
lemma Once.goes (h : Once s) (ht : s.threads[t]? = some p) (hthreads : s'.threads = s.threads.set t q)
    (hasks : s'.asks = s.asks) (hnext : s.next ≤ s'.next) (hq : ∀ k ∈ q.unsent, k ∈ p.unsent ∨ s.next ≤ k) :
    Once s' := by
  refine h.keeps (List.Perm.of_eq hasks) hnext fun p' hp' k hk => ?_
  rw [hthreads] at hp'
  rcases mem_set_cases hp' with rfl | ⟨t', -, ht'⟩
  · exact (hq k hk).imp_left fun hkp => ⟨p, List.mem_of_getElem? ht, hkp⟩
  · exact .inl ⟨p', List.mem_of_getElem? ht', hk⟩

/-- Nothing changes for the threads. -/
lemma Once.stay (h : Once s) (hasks : s'.asks.Perm s.asks) (hthreads : s'.threads = s.threads)
    (hnext : s'.next = s.next) : Once s' :=
  h.keeps hasks (Nat.le_of_eq hnext.symm) fun p' hp' _ hk => .inl ⟨p', hthreads ▸ hp', hk⟩

lemma asks_other (s : Client β) {x : Item} (hx : ∀ r bulk, x ≠ .request r bulk) :
    asks { s with wire := s.wire ++ [x] } = s.asks := by
  cases x with
  | request r bulk => exact absurd rfl (hx r bulk)
  | _ => simp [asks]

lemma unsent_of_number {k : ℕ} (hk : k ∈ p.unsent) : k ∈ p.number := by
  cases p <;> first | exact hk | exact absurd hk List.not_mem_nil

lemma once_queues (h : Once s) (hn : Numbered s) {c : Call} {i : ℕ} (ht : s.threads[t]? = some (.queue c i)) :
    Once { s.place t (if c.sendDummyBulk then .bulk c i else .wait c i) with
      wire := s.wire ++ [.request ⟨i, c.number⟩ c.sendDummyBulk] } := by
  have hasks : (asks { s with wire := s.wire ++ [.request ⟨i, c.number⟩ c.sendDummyBulk] }).Perm
      (c.number :: s.asks) := by
    refine List.perm_iff_count.2 fun k => ?_
    simp only [asks, List.filterMap_append, List.filterMap_cons, List.filterMap_nil, List.map_append,
      List.map_cons, List.map_nil, List.count_append, List.count_cons, List.count_nil]
    omega
  have hmem : Thread.queue c i ∈ s.threads := List.mem_of_getElem? ht
  have hself : c.number ∈ Thread.number (.queue c i) := List.mem_singleton.2 rfl
  refine ⟨hasks.nodup_iff.2 (List.nodup_cons.2 ⟨h.unsent _ hmem _ hself, h.nodup⟩), fun k hk => ?_,
    fun p' hp' k hk hin => ?_⟩
  · rcases List.mem_cons.1 (hasks.mem_iff.1 hk) with rfl | hk
    · exact hn.lt_next _ (List.mem_flatMap.2 ⟨_, hmem, hself⟩)
    · exact h.lt_next k hk
  · rcases mem_set_cases hp' with rfl | ⟨t', hne, ht'⟩
    · split at hk <;> exact List.not_mem_nil hk
    · rcases List.mem_cons.1 (hasks.mem_iff.1 hin) with rfl | hin
      · exact disjoint_of_ne hn.nodup ht ht' (Ne.symm hne) hself (unsent_of_number hk)
      · exact h.unsent p' (List.mem_of_getElem? ht') k hk hin

theorem once_step (h : Once s) (hn : Numbered s) (hd : Does s e o s') : Once s' := by
  cases hd with
  | sendwait t destlen bulk ht =>
    refine h.goes ht rfl rfl (Nat.le_succ _) fun k hk => .inr (Nat.le_of_eq ?_)
    cases bulk <;> exact (List.mem_singleton.1 hk).symm
  | send t bulk ht =>
    refine h.goes ht rfl rfl (Nat.le_succ _) fun k hk => ?_
    cases bulk <;> exact absurd hk List.not_mem_nil
  | queues t c i ht => exact once_queues h hn ht
  | bulks t c i ht =>
    exact h.goes ht rfl (asks_other s fun _ _ hx => nomatch hx) (Nat.le_refl _) fun k hk => .inl hk
  | sendQueues t number ht | sends t number ht | sendBulks t number ht =>
    exact h.goes ht rfl (asks_other s fun _ _ hx => nomatch hx) (Nat.le_refl _) fun k hk => .inl hk
  | fails _ _ _ ht | bulkFails _ _ _ ht | wakes _ _ _ _ _ _ ht | releases _ _ _ _ _ ht | frees _ _ _ _ _ _ ht
  | posts _ _ _ _ ht | sendBulkFails _ _ ht =>
    exact h.goes ht rfl rfl (Nat.le_refl _) fun k hk => absurd hk List.not_mem_nil
  | locksBulk _ _ _ ht | takesSem _ _ _ _ ht | locks _ _ _ ht | passes _ _ _ _ _ ht | takes _ _ _ _ _ ht
  | uses _ _ _ _ ht | sendLocks _ _ _ ht | sendFails _ _ _ ht =>
    exact h.goes ht rfl rfl (Nat.le_refl _) fun k hk => .inl hk
  | readsRequest r bulk wire hwire =>
    refine h.stay (List.perm_iff_count.2 fun k => ?_) rfl rfl
    simp only [asks, hwire, List.filterMap_cons, List.map_append, List.map_cons, List.map_nil,
      List.count_append, List.count_cons, List.count_nil]
    omega
  | reads x wire hwire hx =>
    refine h.stay (List.Perm.of_eq ?_) rfl rfl
    cases x with
    | request r bulk => exact absurd rfl (hx r bulk)
    | _ => simp [asks, hwire]
  | answers r payload hr =>
    refine h.stay (List.perm_iff_count.2 fun k => ?_) rfl rfl
    have herase := ((List.perm_cons_erase hr).map Request.call).count_eq k
    simp only [List.map_cons, List.count_cons] at herase
    simp only [asks, List.map_append, List.map_cons, List.map_nil, List.count_append, List.count_cons,
      List.count_nil]
    omega
  | _ => exact h.stay (List.Perm.refl _) rfl rfl

lemma locked_error {os : List (Note β)} {x : Client β} {f : Fault} (h : s.locked os x = .error f) :
    f = .blocked := by
  unfold locked at h
  split at h
  · exact (Except.error.inj h).symm
  · cases h

/-- Whoever looks for a waiter is still at one of the sixteen. -/
lemma Held.scan_lt (h : Held s) {c : Call} {i : ℕ} (hp : .scan c i ∈ s.threads) :
    ∃ w, s.waiters[i]? = some w := by
  obtain ⟨j, w, hij, hj, -⟩ := h.stands _ hp
  exact ⟨_, List.getElem?_eq_getElem (Nat.lt_of_le_of_lt hij (List.getElem?_eq_some_iff.1 hj).1)⟩

lemma go_error (h : Held s) {ok : Bool} {f : Fault} (he : s.go t ok = .error f) : f = .blocked := by
  unfold go at he
  split at he
  case h_3 | h_5 | h_9 => exact locked_error he
  case h_4 c i ht =>
    obtain ⟨w, hw⟩ := h.scan_lt (List.mem_of_getElem? ht)
    rw [scan, hw] at he
    dsimp only at he
    split at he <;> cases he
  case h_8 c i ht =>
    unfold wait at he
    split at he
    · cases he
    · exact (Except.error.inj he).symm
  case h_10 c i reply ht =>
    obtain ⟨w, hw, -⟩ := h.books.inuse (List.mem_of_getElem? ht) (List.mem_singleton.2 rfl)
    rw [free, hw] at he
    cases he
  case h_7 | h_14 => cases ok <;> cases he
  case h_1 | h_2 | h_12 =>
    split at he <;> first | exact (Except.error.inj he).symm | cases he
  all_goals first | exact (Except.error.inj he).symm | cases he

/-- A waiter is found, and an answer finds its waiter. -/
theorem step_error (h : Held s) {f : Fault} (he : step s e = .error f) : f = .blocked := by
  cases e with
  | go t ok => exact go_error h he
  | callback =>
    simp only [step, callback] at he
    split at he
    · rename_i r payload replies hreplies
      have hlt : r.waiter < s.waiters.length := by
        rw [h.books.sixteen]
        exact h.known r (by simp [flight, hreplies])
      rw [List.getElem?_eq_getElem hlt] at he
      cases he
    · exact (Except.error.inj he).symm
  | sendwait t destlen bulk | send t bulk =>
    simp only [step, enter] at he
    split at he
    · cases he
    · exact (Except.error.inj he).symm
  | vcUse ok => exact locked_error he
  | vcRelease ok =>
    simp only [step] at he
    split at he
    · exact locked_error he
    · exact (Except.error.inj he).symm
  | reads =>
    simp only [step, Client.reads] at he
    split at he
    · cases he
    · cases he
    · exact (Except.error.inj he).symm
  | answers r payload =>
    simp only [step] at he
    split at he
    · cases he
    · exact (Except.error.inj he).symm

end Step

/-! ### The answers -/

/-- What a call returns that returns no error is the answer to it, as far as it fits. -/
def Answers (answered : List (ℕ × List β)) : Note β → Prop
  | .returns c (some (len, bytes)) => ∃ payload, (c.number, payload) ∈ answered ∧
      len = min c.destlen payload.length ∧ bytes = payload.take len
  | _ => True

section Run

variable {n : ℕ} {es : List (Event β)} {os : List (List (Note β))} {s s' : Client β} {e : Event β}
  {o : List (Note β)}

lemma once_run (h : run step (create n) es = .ok (os, s)) : Once s := by
  have hI : Invariant step fun s : Client β => Held s ∧ Once s := fun _ _ _ _ hI hs =>
    ⟨held_step hI.1 (does_of_step hs), once_step hI.2 hI.1.numbered (does_of_step hs)⟩
  have hnone : Once (create n : Client β) := by
    refine ⟨List.nodup_nil, fun _ hk => (nomatch hk), fun p hp k hk => ?_⟩
    obtain rfl : p = .idle := List.eq_of_mem_replicate hp
    exact absurd hk List.not_mem_nil
  exact (inv_run hI ⟨(sound_create n).toHeld, hnone⟩ h).2

lemma answered_step (hd : Does s e o s') : ∀ x ∈ s.answered, x ∈ s'.answered := by
  cases hd with
  | answers r payload hr => exact fun x hx => List.mem_append_left _ hx
  | _ => exact fun x hx => hx

/-- What is seen of a step from a sound state. -/
def Proper (answered : List (ℕ × List β)) (note : Note β) : Prop := note ≠ .notInuse ∧ Answers answered note

lemma proper_step (h : Sound s) (hd : Does s e o s') : ∀ note ∈ o, Proper s.answered note := by
  cases hd with
  | posts t ok c reply ht =>
    intro note hnote
    obtain rfl := List.mem_singleton.1 hnote
    refine ⟨by simp, ?_⟩
    cases reply with
    | none => trivial
    | some len =>
      obtain ⟨payload, hmem, hlen, hbytes⟩ := h.fits _ (List.mem_of_getElem? ht)
      exact ⟨payload, hmem, hlen, hbytes⟩
  | frees t ok c i reply w ht hw =>
    obtain ⟨x, hx, hin⟩ := h.books.inuse (List.mem_of_getElem? ht) (List.mem_singleton.2 rfl)
    rw [Option.some.inj (hw.symm.trans hx), if_pos hin]
    exact fun _ hnote => absurd hnote List.not_mem_nil
  | calledBack r payload replies w hreplies hw =>
    rw [if_pos (h.inuse (by simp [flight, hreplies]) hw)]
    exact fun _ hnote => absurd hnote List.not_mem_nil
  | sends t number ht | sendBulks t number ht | sendBulkFails t number ht =>
    intro note hnote
    rcases List.mem_cons.1 hnote with rfl | hnote
    · exact ⟨by simp, trivial⟩
    · obtain rfl := List.mem_singleton.1 hnote
      exact ⟨by simp, trivial⟩
  | sendwait | send | queues | bulks | bulkFails | sendQueues | sendFails =>
    intro note hnote
    obtain rfl := List.mem_singleton.1 hnote
    exact ⟨by simp, trivial⟩
  | _ => exact fun _ hnote => absurd hnote List.not_mem_nil

lemma Answers.mono {answered answered' : List (ℕ × List β)} (hsub : ∀ x ∈ answered, x ∈ answered')
    {note : Note β} (h : Answers answered note) : Answers answered' note := by
  unfold Answers at h ⊢
  split at h
  · obtain ⟨payload, hmem, hrest⟩ := h
    exact ⟨payload, hsub _ hmem, hrest⟩
  · trivial

/-- **The answers.** However the calls of the threads, VideoCore and its answers come between each other, no
call fails to find a waiter, each call returns once at most, and VideoCore answers each once at most. As long
as VCHIQ does not refuse the bulk transfer of a call whose message it has taken, no answer comes to a waiter
that is not in use, and what a call returns is the answer to this call, as far as its buffer holds it. -/
theorem replied (n : ℕ) (es : List (Event β)) :
    run step (create n) es ≠ .error .noWaiter ∧
    ∀ os s, run step (create n) es = .ok (os, s) →
      (os.flatMap endedIn ++ s.numbers).Perm (List.range s.next) ∧ (s.answered.map Prod.fst).Nodup ∧
      (Along step (fun s e => ¬ Abandons s e) (create n) es →
        .notInuse ∉ os.flatten ∧ ∀ note ∈ os.flatten, Answers s.answered note) := by
  constructor
  · intro h
    obtain ⟨es₁, e, es₂, os, s, -, hrun, hstep⟩ := run_eq_error h
    cases step_error (held_run hrun) hstep
  intro os s h
  refine ⟨?_, (once_run h).nodup.of_append_left, fun hno => ?_⟩
  · have hnext : os.flatMap startedIn = List.range s.next := by
      refine history_run (J := fun _ os s => os.flatMap startedIn = List.range s.next) rfl ?_ h
      intro es os s e o s' _ hJ hs
      rw [List.flatMap_append, List.flatMap_singleton, hJ]
      rcases (number_step (does_of_step hs)).2 with ⟨ho, hn⟩ | ⟨ho, hn⟩
      · rw [ho, hn, List.append_nil]
      · rw [ho, hn, List.range_succ]
    have hnumbers : (create n : Client β).numbers = [] :=
      List.flatMap_eq_nil_iff.2 fun p hp => List.eq_of_mem_replicate hp ▸ rfl
    have hperm := perm_run (fun _ _ _ _ hs => (number_step (does_of_step hs)).1) h
    rw [hnext, hnumbers, List.nil_append] at hperm
    exact hperm.symm
  · have hproper : ∀ note ∈ os.flatten, Proper s.answered note := by
      refine history_run (J := fun es os s => Along step (fun s e => ¬ Abandons s e) (create n) es →
        ∀ note ∈ os.flatten, Proper s.answered note) (fun _ _ hnote => absurd hnote List.not_mem_nil) ?_ h hno
      intro es os s e o s' hrun hJ hs halong note hnote
      obtain ⟨hbefore, -⟩ := (along_append_iff hrun).1 halong
      have hd := does_of_step hs
      rw [List.flatten_append, List.flatten_singleton] at hnote
      have hlast : Proper s.answered note := (List.mem_append.1 hnote).elim (hJ hbefore note)
        (proper_step (sound_run hrun hbefore) hd note)
      exact ⟨hlast.1, hlast.2.mono (answered_step hd)⟩
    exact ⟨fun hmem => (hproper _ hmem).1 rfl, fun note hnote => (hproper note hnote).2⟩

/-- The bulk transfer of a call is refused, and the next call has the answer to its message. -/
example : ∃ os s, run step (create 1 : Client ℕ) [.sendwait 0 8 true, .go 0 true, .go 0 true, .go 0 true,
    .go 0 true, .go 0 true, .go 0 true, .go 0 false, .go 0 true, .go 0 true, .go 0 true, .sendwait 0 8 false,
    .go 0 true, .go 0 true, .go 0 true, .go 0 true, .go 0 true, .reads, .answers ⟨0, 0⟩ [7], .callback,
    .go 0 true, .go 0 true, .go 0 true, .go 0 true] = .ok (os, s) ∧
    s.answered = [(0, [7])] ∧ os.getLast? = some [.returns ⟨1, 8, false⟩ (some (1, [7]))] :=
  ⟨_, _, rfl, rfl, rfl⟩

end Run

end RcControl.Mmal.Client
