import RcControl.Vcos.EventFlags
import Mathlib.Data.List.Nodup

/-!
# Waiting for event flags

Whoever sleeps in a `get` is in the chain and what it waits for is not there, or it has been posted, or
its timer is about to post it: no wake-up is lost (`no_sleeper_forgotten`), no matter how the threads, their
timers and those who set flags come in each other's way. Outside a `get` nothing of it is left: no post
on the semaphore, no timer, no waiter in the chain. So the routine of a timer finds the waiter it was
given on the stack of a thread that is still in its `get`.
-/

namespace RcControl.Vcos

open Lib Lib.Run

/-- What is answered is what was asked for, or nothing. -/
def Answer.Right (a : Answer) : Prop :=
  match a.status with
  | .success => a.op.Satisfied a.events a.requestedEvents
  | .eagain => a.events = 0

/-- The steps of one thread and of its timer. -/
def Event.Own {ι : Type} (t : ι) : Event ι → Prop
  | .timerExpires u | .timerUnlinks u | .timerPosts u | .wakes u | .cancels u => u = t
  | _ => False

/-- How long the thread of the timer may still hold its mutex. -/
def Timer.steps : Timer → ℕ
  | .idle | .set => 0
  | .unlinked _ => 1
  | .expired => 2

namespace EventFlags

variable {ι : Type}

/-- What a thread, its waiter, its semaphore and its timer are together. -/
inductive Fits (s : EventFlags ι) (t : ι) : Prop
  | outside (hthread : s.thread t = .outside) (hlisted : t ∉ s.waiters) (hsema : s.sema t = 0)
      (htimer : s.timer t = .idle)
  | waits (hthread : s.thread t = .asleep) (hlisted : t ∈ s.waiters) (hsema : s.sema t = 0)
      (htimed : (s.waiter t).timed = true → s.timer t = .set ∨ s.timer t = .expired)
      (huntimed : (s.waiter t).timed = false → s.timer t = .idle)
      (hstatus : (s.waiter t).returnStatus = .eagain) (hright : (s.waiter t).answer.Right)
      (hunsat : ¬ s.Ready t)
  /-- A `set` has told it. -/
  | told (hthread : s.thread t = .asleep) (hlisted : t ∉ s.waiters) (hsema : s.sema t = 1)
      (htimed : s.timer t ≠ .unlinked true)
      (huntimed : (s.waiter t).timed = false → s.timer t = .idle)
      (hright : (s.waiter t).answer.Right)
  /-- Its timer has unlinked it, and has not posted yet. -/
  | found (hthread : s.thread t = .asleep) (hlisted : t ∉ s.waiters) (hsema : s.sema t = 0)
      (htimed : (s.waiter t).timed = true) (htimer : s.timer t = .unlinked true)
      (hright : (s.waiter t).answer.Right)
  | cancelling (answer : Answer) (hthread : s.thread t = .cancelling answer) (hlisted : t ∉ s.waiters)
      (hsema : s.sema t = 0) (htimer : s.timer t ≠ .unlinked true) (hright : answer.Right)

structure Sound (s : EventFlags ι) : Prop where
  fits : ∀ t, Fits s t
  nodup : s.waiters.Nodup

section Fits

variable {s s' : EventFlags ι} {t : ι}

/-- A step that has nothing to do with a thread, and does not bring what it waits for. -/
lemma Fits.frame (h : Fits s t) (hthread : s'.thread t = s.thread t) (hwaiter : s'.waiter t = s.waiter t)
    (hsema : s'.sema t = s.sema t) (htimer : s'.timer t = s.timer t)
    (hlisted : t ∈ s'.waiters ↔ t ∈ s.waiters) (hunsat : t ∈ s.waiters → ¬ s.Ready t → ¬ s'.Ready t) :
    Fits s' t := by
  cases h with
  | outside ht hl hs hi =>
    exact .outside (hthread.trans ht) (mt hlisted.1 hl) (hsema.trans hs) (htimer.trans hi)
  | waits ht hl hs htimed huntimed hstatus hright hun =>
    refine .waits (hthread.trans ht) (hlisted.2 hl) (hsema.trans hs) ?_ ?_ ?_ ?_ (hunsat hl hun)
    · rwa [hwaiter, htimer]
    · rwa [hwaiter, htimer]
    · rwa [hwaiter]
    · rwa [hwaiter]
  | told ht hl hs htimed huntimed hright =>
    refine .told (hthread.trans ht) (mt hlisted.1 hl) (hsema.trans hs) ?_ ?_ ?_
    · rwa [htimer]
    · rwa [hwaiter, htimer]
    · rwa [hwaiter]
  | found ht hl hs htimed hi hright =>
    refine .found (hthread.trans ht) (mt hlisted.1 hl) (hsema.trans hs) ?_ (htimer.trans hi) ?_
    · rwa [hwaiter]
    · rwa [hwaiter]
  | cancelling answer ht hl hs hi hright =>
    exact .cancelling answer (hthread.trans ht) (mt hlisted.1 hl) (hsema.trans hs) (htimer ▸ hi) hright

lemma Fits.of_outside (h : Fits s t) (hout : s.thread t = .outside) :
    t ∉ s.waiters ∧ s.sema t = 0 ∧ s.timer t = .idle := by
  cases h with
  | outside _ hl hs hi => exact ⟨hl, hs, hi⟩
  | waits ht => cases hout.symm.trans ht
  | told ht => cases hout.symm.trans ht
  | found ht => cases hout.symm.trans ht
  | cancelling _ ht => cases hout.symm.trans ht

lemma Fits.of_mem (h : Fits s t) (hlisted : t ∈ s.waiters) :
    s.thread t = .asleep ∧ (s.waiter t).returnStatus = .eagain ∧ (s.waiter t).answer.Right := by
  cases h with
  | waits ht _ _ _ _ hstatus hright => exact ⟨ht, hstatus, hright⟩
  | outside _ hl => exact absurd hlisted hl
  | told _ hl => exact absurd hlisted hl
  | found _ hl => exact absurd hlisted hl
  | cancelling _ _ hl => exact absurd hlisted hl

/-- Who is posted has been told, and is posted once. -/
lemma Fits.of_posted {n : ℕ} (h : Fits s t) (hasleep : s.thread t = .asleep) (hn : s.sema t = n + 1) :
    n = 0 ∧ t ∉ s.waiters ∧ s.timer t ≠ .unlinked true ∧
      ((s.waiter t).timed = false → s.timer t = .idle) ∧ (s.waiter t).answer.Right := by
  cases h with
  | outside ht => cases hasleep.symm.trans ht
  | waits _ _ hs => cases hn.symm.trans hs
  | told _ hl hs htimed huntimed hright =>
    exact ⟨Nat.succ.inj (hn.symm.trans hs), hl, htimed, huntimed, hright⟩
  | found _ _ hs => cases hn.symm.trans hs
  | cancelling _ ht => cases hasleep.symm.trans ht

lemma Fits.of_cancelling {answer : Answer} (h : Fits s t) (hcancelling : s.thread t = .cancelling answer) :
    t ∉ s.waiters ∧ s.sema t = 0 ∧ answer.Right := by
  cases h with
  | outside ht => cases hcancelling.symm.trans ht
  | waits ht => cases hcancelling.symm.trans ht
  | told ht => cases hcancelling.symm.trans ht
  | found ht => cases hcancelling.symm.trans ht
  | cancelling answer' ht hl hs _ hright =>
    obtain rfl := Thread.cancelling.inj (hcancelling.symm.trans ht)
    exact ⟨hl, hs, hright⟩

/-- A step of one thread, or of its timer. -/
lemma Sound.change (h : s.Sound) (t : ι) (hfits : Fits s' t)
    (hother : ∀ u, u ≠ t → s'.thread u = s.thread u ∧ s'.waiter u = s.waiter u ∧ s'.sema u = s.sema u ∧
      s'.timer u = s.timer u ∧ (u ∈ s'.waiters ↔ u ∈ s.waiters))
    (hevents : s'.events = s.events) (hnodup : s'.waiters.Nodup) : s'.Sound := by
  refine ⟨fun u => ?_, hnodup⟩
  by_cases hu : u = t
  · exact hu ▸ hfits
  · obtain ⟨hthread, hwaiter, hsema, htimer, hlisted⟩ := hother u hu
    refine (h.fits u).frame hthread hwaiter hsema htimer hlisted fun _ hun hready => hun ?_
    rwa [Ready, hwaiter, hevents] at hready

end Fits

section Step

variable [DecidableEq ι] {s s' : EventFlags ι} {e : Event ι} {o : List (Did ι)}

/-- After a `set` each waiter has been told, or is still in the chain and not satisfied. -/
lemma sound_set (h : s.Sound) (bitmask : Flags) (op : SetOp) : (s.set bitmask op).2.Sound := by
  have hw := walk_walked (s.raise bitmask op) h.nodup 0
  have hkept : (s.set bitmask op).2.waiters = _ := hw.kept
  refine ⟨fun t => ?_, ?_⟩
  · have hlisted : t ∈ (s.set bitmask op).2.waiters ↔
        t ∈ s.waiters ∧ ¬ (s.raise bitmask op).Ready t := by simp [hkept]
    have hthread : (s.set bitmask op).2.thread = s.thread := hw.thread.trans (raise_thread ..)
    have htimer : (s.set bitmask op).2.timer = s.timer := hw.timer.trans (raise_timer ..)
    have hwaiter : (s.set bitmask op).2.waiter t = _ := hw.waiter t
    have hsema : (s.set bitmask op).2.sema t = _ := hw.sema t
    by_cases htold : t ∈ s.waiters ∧ (s.raise bitmask op).Ready t
    · rw [if_pos htold] at hwaiter hsema
      rcases h.fits t with ⟨-, hl, -⟩ | ⟨ht, -, hs, htimed, huntimed, -⟩ | ⟨-, hl, -⟩ | ⟨-, hl, -⟩ |
        ⟨-, -, hl, -⟩
      · exact absurd htold.1 hl
      · refine .told ((congrFun hthread t).trans ht) (fun hin => (hlisted.1 hin).2 htold.2)
          (hsema.trans (by rw [raise_sema, hs])) ?_ ?_ ?_
        · rw [htimer]
          rcases hw' : (s.waiter t).timed
          · simp [huntimed hw']
          · rcases htimed hw' with hi | hi <;> simp [hi]
        · rw [htimer, hwaiter, EventFlags.told, raise_waiter]
          exact huntimed
        · rw [hwaiter]
          exact htold.2
      · exact absurd htold.1 hl
      · exact absurd htold.1 hl
      · exact absurd htold.1 hl
    · rw [if_neg htold] at hwaiter hsema
      refine (h.fits t).frame (congrFun hthread t) (hwaiter.trans ?_) (hsema.trans ?_) (congrFun htimer t)
        ?_ ?_
      · rw [raise_waiter]
      · rw [raise_sema]
      · rw [hlisted]
        exact ⟨And.left, fun ht => ⟨ht, fun hr => htold ⟨ht, hr⟩⟩⟩
      · intro ht _ hready
        refine htold ⟨ht, ?_⟩
        unfold Ready at hready ⊢
        rw [hwaiter] at hready
        refine hready.mono fun i hi => ?_
        have hevents : (s.set bitmask op).2.events = _ &&& _ := congrArg (· &&& _) hw.events
        rw [hevents, BitVec.getLsbD_and, Bool.and_eq_true] at hi
        exact hi.1
  · rw [hkept]
    exact h.nodup.filter _

theorem sound_step (h : s.Sound) (hstep : s.step e = .ok (o, s')) : s'.Sound := by
  cases does_of_step hstep with
  | sets bitmask op => exact sound_set h bitmask op
  | finds t bitmask op suspend hout hsat =>
    refine ⟨fun u => (h.fits u).frame rfl rfl rfl rfl Iff.rfl fun _ hun hready => hun ?_, h.nodup⟩
    refine Op.Satisfied.mono (fun i hi => ?_) hready
    dsimp only at hi
    split at hi
    · rw [BitVec.getLsbD_and, Bool.and_eq_true] at hi
      exact hi.1
    · exact hi
  | refuses t bitmask op hout hunsat => exact h
  | sleeps t bitmask op suspend hout hunsat hsuspend =>
    obtain ⟨hlisted, hsema, -⟩ := (h.fits t).of_outside hout
    refine h.change t (.waits (Function.update_self ..) (by simp) hsema ?_ ?_ ?_ ?_ ?_) (fun u hu => ?_)
      rfl ?_
    · simp only [Function.update_self, decide_eq_true_eq]
      exact fun hms => .inl (if_pos hms)
    · simp only [Function.update_self, decide_eq_false_iff_not]
      exact fun hms => if_neg hms
    · dsimp only
      rw [Function.update_self]
    · dsimp only
      rw [Function.update_self]
      rfl
    · simpa only [Ready, Function.update_self] using hunsat
    · exact ⟨Function.update_of_ne hu .., Function.update_of_ne hu .., rfl, Function.update_of_ne hu ..,
        by simp [hu]⟩
    · rw [← List.concat_eq_append]
      exact List.Nodup.concat hlisted h.nodup
  | expires t ht =>
    refine h.change t ?_ (fun u hu => ⟨rfl, rfl, rfl, Function.update_of_ne hu .., Iff.rfl⟩) rfl h.nodup
    cases h.fits t with
    | outside _ _ _ hi => cases ht.symm.trans hi
    | waits hthread hl hs htimed huntimed hstatus hright hun =>
      refine .waits hthread hl hs (fun _ => .inr (Function.update_self ..)) (fun hno => ?_) hstatus hright hun
      cases ht.symm.trans (huntimed hno)
    | told hthread hl hs htimed huntimed hright =>
      refine .told hthread hl hs (by simp) (fun hno => ?_) hright
      cases ht.symm.trans (huntimed hno)
    | found _ _ _ _ hi => cases ht.symm.trans hi
    | cancelling answer hthread hl hs hi hright =>
      exact .cancelling answer hthread hl hs (by simp) hright
  | unlinks t ht hlisted =>
    refine h.change t ?_ (fun u hu => ⟨rfl, rfl, rfl, Function.update_of_ne hu .., ?_⟩) rfl
      (h.nodup.erase t)
    · cases h.fits t with
      | waits hthread hl hs htimed huntimed hstatus hright hun =>
        refine .found hthread (fun hin => (h.nodup.mem_erase_iff.1 hin).1 rfl) hs ?_
          (Function.update_self ..) hright
        by_contra hno
        cases ht.symm.trans (huntimed (by simpa using hno))
      | outside _ hl => exact absurd hlisted hl
      | told _ hl => exact absurd hlisted hl
      | found _ hl => exact absurd hlisted hl
      | cancelling _ _ hl => exact absurd hlisted hl
    · exact List.mem_erase_of_ne hu
  | misses t ht hlisted =>
    refine h.change t ?_ (fun u hu => ⟨rfl, rfl, rfl, Function.update_of_ne hu .., Iff.rfl⟩) rfl h.nodup
    cases h.fits t with
    | outside _ _ _ hi => cases ht.symm.trans hi
    | waits _ hl => exact absurd hl hlisted
    | told hthread hl hs htimed huntimed hright =>
      refine .told hthread hl hs (by simp) (fun hno => ?_) hright
      cases ht.symm.trans (huntimed hno)
    | found _ _ _ _ hi => cases ht.symm.trans hi
    | cancelling answer hthread hl hs hi hright =>
      exact .cancelling answer hthread hl hs (by simp) hright
  | posts t found ht =>
    refine h.change t ?_ (fun u hu => ⟨rfl, rfl, ?_, Function.update_of_ne hu .., Iff.rfl⟩) rfl h.nodup
    · cases h.fits t with
      | outside _ _ _ hi => cases ht.symm.trans hi
      | waits _ _ _ htimed huntimed =>
        rcases hw : (s.waiter t).timed
        · cases ht.symm.trans (huntimed hw)
        · rcases htimed hw with hi | hi <;> cases ht.symm.trans hi
      | told hthread hl hs htimed huntimed hright =>
        obtain rfl : found = false := by
          cases found
          · rfl
          · exact absurd ht htimed
        exact .told hthread hl hs (by simp) (fun _ => Function.update_self ..) hright
      | found hthread hl hs htimed hi hright =>
        obtain rfl : found = true := Timer.unlinked.inj (ht.symm.trans hi)
        refine .told hthread hl ?_ (by simp) (fun _ => Function.update_self ..) hright
        dsimp only
        rw [if_pos rfl, Function.update_self, hs]
      | cancelling answer hthread hl hs hi hright =>
        obtain rfl : found = false := by
          cases found
          · rfl
          · exact absurd ht hi
        exact .cancelling answer hthread hl hs (by simp) hright
    · dsimp only
      split
      · exact Function.update_of_ne hu ..
      · rfl
  | wakes t n hasleep hn htimed =>
    refine h.change t ?_ (fun u hu =>
      ⟨Function.update_of_ne hu .., rfl, Function.update_of_ne hu .., rfl, Iff.rfl⟩) rfl h.nodup
    obtain ⟨rfl, hl, hi, -, hright⟩ := (h.fits t).of_posted hasleep hn
    exact .cancelling _ (Function.update_self ..) hl (Function.update_self ..) hi hright
  | returns t n hasleep hn htimed =>
    refine h.change t ?_ (fun u hu =>
      ⟨Function.update_of_ne hu .., rfl, Function.update_of_ne hu .., rfl, Iff.rfl⟩) rfl h.nodup
    obtain ⟨rfl, hl, -, huntimed, -⟩ := (h.fits t).of_posted hasleep hn
    exact .outside (Function.update_self ..) hl (Function.update_self ..) (huntimed htimed)
  | cancels t answer hthread hfree =>
    refine h.change t ?_ (fun u hu =>
      ⟨Function.update_of_ne hu .., rfl, rfl, Function.update_of_ne hu .., Iff.rfl⟩) rfl h.nodup
    obtain ⟨hl, hs, -⟩ := (h.fits t).of_cancelling hthread
    exact .outside (Function.update_self ..) hl hs (Function.update_self ..)

omit [DecidableEq ι] in
lemma sound_create (waiter : ι → Waiter) : (create waiter).Sound :=
  ⟨fun _ => .outside rfl List.not_mem_nil rfl rfl, List.nodup_nil⟩

theorem sound_run {es : List (Event ι)} {os : List (List (Did ι))} {waiter : ι → Waiter}
    (h : run step (create waiter) es = .ok (os, s)) : s.Sound :=
  inv_run (fun _ _ _ _ => sound_step) (sound_create waiter) h

end Step

/-! ### Nobody sleeps on -/

section Wake

variable [DecidableEq ι] {s s' : EventFlags ι} {t : ι} {waiter : ι → Waiter} {es : List (Event ι)}
  {os : List (List (Did ι))}

/-- **No wake-up is lost.** After every run a thread that sleeps waits for what is not there, or it has
been posted once, or its timer is about to post it. A thread that is not in a `get` has left nothing
behind: it is not in the chain, its semaphore is at zero, and its timer is not set and in no routine. -/
theorem no_sleeper_forgotten (h : run step (create waiter) es = .ok (os, s)) (t : ι) :
    (s.thread t = .asleep → (t ∈ s.waiters ∧ ¬ s.Ready t ∧ s.sema t = 0) ∨
      (t ∉ s.waiters ∧ (s.sema t = 1 ∨ s.timer t = .unlinked true))) ∧
    (s.thread t = .outside → t ∉ s.waiters ∧ s.sema t = 0 ∧ s.timer t = .idle) := by
  have hfits := (sound_run h).fits t
  refine ⟨fun hasleep => ?_, hfits.of_outside⟩
  cases hfits with
  | outside ht => cases hasleep.symm.trans ht
  | waits _ hl hs _ _ _ _ hun => exact .inl ⟨hl, hun, hs⟩
  | told _ hl hs => exact .inr ⟨hl, .inl hs⟩
  | found _ hl _ _ hi => exact .inr ⟨hl, .inr hi⟩
  | cancelling _ ht => cases hasleep.symm.trans ht

/-- The flag is raised when the timer has expired, before its routine has the mutex. -/
theorem no_sleeper_forgotten_expired : ∃ os s,
    run step (create fun _ : Bool => ⟨0, .or, .success, 0, false⟩)
      [.get true 1 .orConsume .ms, .timerExpires true, .set 1 .or, .timerUnlinks true] = .ok (os, s) ∧
    s.thread true = .asleep ∧ true ∉ s.waiters ∧ (s.sema true = 1 ∨ s.timer true = .unlinked true) := by
  obtain ⟨os, s, h, hasleep, hsema⟩ : ∃ os s,
      run step (create fun _ : Bool => ⟨0, .or, .success, 0, false⟩)
        [.get true 1 .orConsume .ms, .timerExpires true, .set 1 .or, .timerUnlinks true] = .ok (os, s) ∧
      s.thread true = .asleep ∧ s.sema true ≠ 0 := ⟨_, _, rfl, rfl, by decide⟩
  rcases (no_sleeper_forgotten h true).1 hasleep with ⟨-, -, hs⟩ | hposted
  · exact absurd hs hsema
  · exact ⟨os, s, h, hasleep, hposted⟩

/-- The thread leaves its `get` by so many steps of its own. -/
def Within (n : ℕ) (s : EventFlags ι) (t : ι) : Prop :=
  ∃ es os s', es.length ≤ n ∧ (∀ e ∈ es, Event.Own t e) ∧ run step s es = .ok (os, s') ∧
    s'.thread t = .outside

lemma within_zero (hout : s.thread t = .outside) : Within 0 s t :=
  ⟨[], [], s, Nat.le_refl 0, fun _ he => (nomatch he), rfl, hout⟩

lemma Within.cons {n : ℕ} {e : Event ι} {o : List (Did ι)} (hs : s.step e = .ok (o, s'))
    (hown : Event.Own t e) (h : Within n s' t) : Within (n + 1) s t := by
  obtain ⟨es, os, s₂, hlength, hall, hrun, hout⟩ := h
  exact ⟨e :: es, o :: os, s₂, Nat.succ_le_succ hlength, List.forall_mem_cons.2 ⟨hown, hall⟩,
    run_cons_ok hs hrun, hout⟩

lemma Within.mono {m n : ℕ} (hmn : m ≤ n) (h : Within m s t) : Within n s t := by
  obtain ⟨es, os, s₂, hlength, hrest⟩ := h
  exact ⟨es, os, s₂, Nat.le_trans hlength hmn, hrest⟩

/-- The cancelling waits for the routine of the timer to be done. -/
lemma within_cancelling {answer : Answer} (h : s.Sound) (ht : s.thread t = .cancelling answer) :
    Within ((s.timer t).steps + 1) s t := by
  have hfree : ∀ {s : EventFlags ι}, s.thread t = .cancelling answer → (s.timer t).free = true →
      Within 1 s t := by
    intro s ht hfree
    have hs : s.step (.cancels t) = .ok ([.returned t answer], { s with
        timer := Function.update s.timer t .idle
        thread := Function.update s.thread t .outside }) := by
      simp only [step, ht, hfree]
    exact .cons hs rfl (within_zero (Function.update_self ..))
  have hunlinked : ∀ {s : EventFlags ι} {found : Bool}, s.thread t = .cancelling answer →
      s.timer t = .unlinked found → Within 2 s t := by
    intro s found ht hi
    have hs : s.step (.timerPosts t) = .ok ([], { s with
        timer := Function.update s.timer t .idle
        sema := if found then Function.update s.sema t (s.sema t + 1) else s.sema }) := by
      simp only [step, hi]
    exact .cons hs rfl (hfree ht (by simp [Timer.free]))
  rcases hi : s.timer t with _ | _ | _ | found
  · exact hfree ht (by rw [hi]; rfl)
  · exact hfree ht (by rw [hi]; rfl)
  · have hs : s.step (.timerUnlinks t) = .ok ([],
        { s with timer := Function.update s.timer t (.unlinked false) }) := by
      simp only [step, hi, if_true, timerUnlinks, if_neg ((h.fits t).of_cancelling ht).1]
    exact .cons hs rfl (hunlinked ht (Function.update_self ..))
  · exact hunlinked ht hi

lemma within_posted (h : s.Sound) (ht : s.thread t = .asleep) (hsema : s.sema t = 1) :
    Within ((s.timer t).steps + 2) s t := by
  rcases htimed : (s.waiter t).timed
  · have hs : s.step (.wakes t) = .ok ([.returned t (s.waiter t).answer],
        { s with sema := Function.update s.sema t 0, thread := Function.update s.thread t .outside }) := by
      simp only [step, ht, hsema, wakes, htimed, Bool.false_eq_true, if_false]
    exact (Within.cons hs rfl (within_zero (Function.update_self ..))).mono (by omega)
  · have hs : s.step (.wakes t) = .ok ([],
        { s with
          sema := Function.update s.sema t 0
          thread := Function.update s.thread t (.cancelling (s.waiter t).answer) }) := by
      simp only [step, ht, hsema, wakes, htimed, if_true]
    exact .cons hs rfl (within_cancelling (sound_step h hs) (Function.update_self ..))

lemma within_found (h : s.Sound) (ht : s.thread t = .asleep) (hsema : s.sema t = 0)
    (hi : s.timer t = .unlinked true) : Within 3 s t := by
  have hs : s.step (.timerPosts t) = .ok ([], { s with
      timer := Function.update s.timer t .idle
      sema := Function.update s.sema t (s.sema t + 1) }) := by
    simp only [step, hi, if_true]
  have hposted := within_posted (sound_step h hs) ht (by simp [hsema])
  exact .cons hs rfl (hposted.mono (by simp [Timer.steps]))

lemma within_expired (h : s.Sound) (ht : s.thread t = .asleep) (hlisted : t ∈ s.waiters)
    (hsema : s.sema t = 0) (hi : s.timer t = .expired) : Within 4 s t := by
  have hs : s.step (.timerUnlinks t) = .ok ([.settled t (s.waiter t).answer],
      { s with waiters := s.waiters.erase t, timer := Function.update s.timer t (.unlinked true) }) := by
    simp only [step, hi, if_true, timerUnlinks, if_pos hlisted]
  exact .cons hs rfl (within_found (sound_step h hs) ht hsema (Function.update_self ..))

/-- **Every `get` that has a time returns.** However a run has gone, a thread that is in a `get` with a
timer, or has been unlinked, gets out of it by at most five steps of its own and of its timer: nobody
else has to do anything, and the two mutexes do not block each other. -/
theorem get_returns (h : run step (create waiter) es = .ok (os, s)) (hin : s.thread t ≠ .outside)
    (htimed : (s.waiter t).timed = true ∨ t ∉ s.waiters) :
    ∃ es' os' s', es'.length ≤ 5 ∧ (∀ e ∈ es', Event.Own t e) ∧ run step s es' = .ok (os', s') ∧
      s'.thread t = .outside := by
  have hsound := sound_run h
  show Within 5 s t
  have hsteps : (s.timer t).steps ≤ 2 := by cases s.timer t <;> simp [Timer.steps]
  cases hsound.fits t with
  | outside ht => exact absurd ht hin
  | waits ht hl hs hset _ _ _ _ =>
    rcases htimed with htimed | hnot
    · rcases hset htimed with hi | hi
      · have hstep : s.step (.timerExpires t) =
            .ok ([], { s with timer := Function.update s.timer t .expired }) := by
          simp only [step, hi, if_true]
        exact .cons hstep rfl (within_expired (sound_step hsound hstep) ht hl hs (Function.update_self ..))
      · exact (within_expired hsound ht hl hs hi).mono (by omega)
    · exact absurd hl hnot
  | told ht _ hs => exact (within_posted hsound ht hs).mono (by omega)
  | found ht _ hs _ hi => exact (within_found hsound ht hs hi).mono (by omega)
  | cancelling answer ht => exact (within_cancelling hsound ht).mono (by omega)

/-- Nobody raises anything. -/
theorem get_returns_alone : ∃ os s es' os' s',
    run step (create fun _ : Bool => ⟨0, .or, .success, 0, false⟩) [.get true 1 .orConsume .ms] =
      .ok (os, s) ∧
    (∀ e ∈ es', Event.Own true e) ∧ run step s es' = .ok (os', s') ∧ s'.thread true = .outside := by
  obtain ⟨os, s, h, hin, htimed⟩ : ∃ os s,
      run step (create fun _ : Bool => ⟨0, .or, .success, 0, false⟩) [.get true 1 .orConsume .ms] =
        .ok (os, s) ∧ s.thread true ≠ .outside ∧ (s.waiter true).timed = true :=
    ⟨_, _, rfl, by decide, rfl⟩
  obtain ⟨es', os', s', -, hown, hrun, hout⟩ := get_returns h hin (.inl htimed)
  exact ⟨os, s, es', os', s', h, hown, hrun, hout⟩

end Wake

end EventFlags

end RcControl.Vcos
