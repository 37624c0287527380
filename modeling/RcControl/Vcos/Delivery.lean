import RcControl.Vcos.Waiting

/-!
# What a `get` answers

Each `get` returns once, with the one answer that was settled for it: by itself, by the `set` that
unlinked its waiter, or by its timer (`get_answers`). And a flag that is raised stays up until a `get`
that consumes it has been told of it, or somebody clears it (`flag_delivered`). Those who are told of it in
the same step, all by one `set`, share it; then it is down until it is raised again (`flag_consumed`).
-/

namespace RcControl.Vcos

open Lib Lib.Run

variable {ι : Type} [DecidableEq ι]

/-- What a thread has asked for. -/
def callsOf (t : ι) (o : List (Did ι)) : List (Flags × Op) :=
  o.filterMap fun
    | .called u requestedEvents op => if u = t then some (requestedEvents, op) else none
    | _ => none

/-- What has been settled for a thread. -/
def settledOf (t : ι) (o : List (Did ι)) : List Answer :=
  o.filterMap fun
    | .settled u answer => if u = t then some answer else none
    | _ => none

def returnedOf (t : ι) (o : List (Did ι)) : List Answer :=
  o.filterMap fun
    | .returned u answer => if u = t then some answer else none
    | _ => none

/-- What was asked for. -/
def Answer.request (a : Answer) : Flags × Op := (a.requestedEvents, a.op)

namespace EventFlags

/-- What a thread that is in a `get` has asked for. -/
def asked (s : EventFlags ι) (t : ι) : List (Flags × Op) :=
  match s.thread t with
  | .outside => []
  | .asleep => [(s.waiter t).answer.request]
  | .cancelling answer => [answer.request]

/-- What is settled for a thread and has not been returned. -/
def pending (s : EventFlags ι) (t : ι) : List Answer :=
  match s.thread t with
  | .outside => []
  | .asleep => if t ∈ s.waiters then [] else [(s.waiter t).answer]
  | .cancelling answer => [answer]

section Step

variable {s s' : EventFlags ι} {e : Event ι} {o : List (Did ι)} {t u : ι}

lemma settledOf_map {l : List ι} (hnodup : l.Nodup) (f : ι → Answer) (t : ι) :
    settledOf t (l.map fun u => .settled u (f u)) = if t ∈ l then [f t] else [] := by
  induction l with
  | nil => rfl
  | cons u l ih =>
    obtain ⟨hu, hnodup⟩ := List.nodup_cons.1 hnodup
    have hrest := ih hnodup
    unfold settledOf at hrest ⊢
    rw [List.map_cons, List.filterMap_cons, hrest]
    by_cases hut : u = t
    · subst hut
      simp [hu]
    · have htu : t ≠ u := fun htu => hut htu.symm
      simp [hut, htu]

/-- What a `set` settles for a thread: it is what the waiter is told. -/
lemma settledOf_set (h : s.Sound) (bitmask : Flags) (op : SetOp) (t : ι) :
    settledOf t (s.set bitmask op).1 = if t ∈ s.waiters ∧ (s.raise bitmask op).Ready t
      then [((s.raise bitmask op).told t).answer] else [] := by
  have hdid : (s.set bitmask op).1 = _ := (walk_walked (s.raise bitmask op) h.nodup 0).did
  rw [hdid, settledOf_map (h.nodup.filter _)]
  simp only [List.mem_filter, decide_eq_true_eq]

lemma onlySettled_set (h : s.Sound) (bitmask : Flags) (op : SetOp) (t : ι) :
    callsOf t (s.set bitmask op).1 = [] ∧ returnedOf t (s.set bitmask op).1 = [] := by
  have hdid : (s.set bitmask op).1 = _ := (walk_walked (s.raise bitmask op) h.nodup 0).did
  rw [hdid]
  constructor
  · rw [callsOf, List.filterMap_eq_nil_iff]
    rintro d hd
    obtain ⟨u, -, rfl⟩ := List.mem_map.1 hd
    rfl
  · rw [returnedOf, List.filterMap_eq_nil_iff]
    rintro d hd
    obtain ⟨u, -, rfl⟩ := List.mem_map.1 hd
    rfl

/-- What has been settled and what is settled now is what is returned now and what is settled then. -/
lemma pending_step (h : s.Sound) (hstep : s.step e = .ok (o, s')) (u : ι) :
    s.pending u ++ settledOf u o = returnedOf u o ++ s'.pending u ∧
    s.asked u ++ callsOf u o = (returnedOf u o).map Answer.request ++ s'.asked u := by
  cases does_of_step hstep with
  | sets bitmask op =>
    have hw := walk_walked (s.raise bitmask op) h.nodup 0
    have hthread : (s.set bitmask op).2.thread = s.thread := hw.thread.trans (raise_thread ..)
    have hwaiter : (s.set bitmask op).2.waiter u = _ := hw.waiter u
    have hkept : (s.set bitmask op).2.waiters = _ := hw.kept
    obtain ⟨hcalls, hreturned⟩ := onlySettled_set h bitmask op u
    rw [hcalls, hreturned, settledOf_set h]
    simp only [pending, asked, hthread, hwaiter, hkept]
    by_cases htold : u ∈ s.waiters ∧ (s.raise bitmask op).Ready u
    · have hasleep := ((h.fits u).of_mem htold.1).1
      simp [htold, hasleep, Answer.request, Waiter.answer, EventFlags.told]
    · simp only [if_neg htold, raise_waiter, List.append_nil, List.map_nil, List.nil_append, and_true]
      have hstays : u ∈ s.waiters → ¬ (s.raise bitmask op).Ready u := fun hu hr => htold ⟨hu, hr⟩
      simp only [List.mem_filter, decide_eq_true_eq, and_iff_left_of_imp hstays]
  | finds t bitmask op suspend hout hsat =>
    by_cases htu : t = u
    · subst htu
      simp [pending, asked, hout, settledOf, returnedOf, callsOf, Answer.request]
    · simp [pending, asked, settledOf, returnedOf, callsOf, htu]
  | refuses t bitmask op hout hunsat =>
    by_cases htu : t = u
    · subst htu
      simp [pending, asked, hout, settledOf, returnedOf, callsOf, Answer.request]
    · simp [settledOf, returnedOf, callsOf, htu]
  | sleeps t bitmask op suspend hout hunsat hsuspend =>
    by_cases htu : t = u
    · subst htu
      simp [pending, asked, hout, settledOf, returnedOf, callsOf, Answer.request, Waiter.answer]
    · have hut : u ≠ t := fun hut => htu hut.symm
      simp [pending, asked, settledOf, returnedOf, callsOf, htu, hut]
  | expires t ht => simp [pending, asked, settledOf, returnedOf, callsOf]
  | unlinks t ht hlisted =>
    by_cases htu : t = u
    · subst htu
      have hgone : t ∉ s.waiters.erase t := fun hin => (h.nodup.mem_erase_iff.1 hin).1 rfl
      simp [pending, asked, ((h.fits t).of_mem hlisted).1, hlisted, hgone, settledOf, returnedOf, callsOf]
    · have hut : u ≠ t := fun hut => htu hut.symm
      simp [pending, asked, settledOf, returnedOf, callsOf, htu, List.mem_erase_of_ne hut]
  | misses t ht hlisted => simp [pending, asked, settledOf, returnedOf, callsOf]
  | posts t found ht => simp [pending, asked, settledOf, returnedOf, callsOf]
  | wakes t n hasleep hn htimed =>
    obtain ⟨-, hlisted, -⟩ := (h.fits t).of_posted hasleep hn
    by_cases htu : t = u
    · subst htu
      simp [pending, asked, hasleep, hlisted, settledOf, returnedOf, callsOf]
    · have hut : u ≠ t := fun hut => htu hut.symm
      simp [pending, asked, settledOf, returnedOf, callsOf, hut]
  | returns t n hasleep hn htimed =>
    obtain ⟨-, hlisted, -⟩ := (h.fits t).of_posted hasleep hn
    by_cases htu : t = u
    · subst htu
      simp [pending, asked, hasleep, hlisted, settledOf, returnedOf, callsOf]
    · have hut : u ≠ t := fun hut => htu hut.symm
      simp [pending, asked, settledOf, returnedOf, callsOf, htu, hut]
  | cancels t answer hthread hfree =>
    by_cases htu : t = u
    · subst htu
      simp [pending, asked, hthread, settledOf, returnedOf, callsOf]
    · have hut : u ≠ t := fun hut => htu hut.symm
      simp [pending, asked, settledOf, returnedOf, callsOf, htu, hut]

lemma mem_settledOf {a : Answer} : a ∈ settledOf t o ↔ .settled t a ∈ o := by
  simp only [settledOf, List.mem_filterMap]
  constructor
  · rintro ⟨d, hd, hsome⟩
    split at hsome
    · split at hsome
      · rename_i hut
        rwa [← hut, ← Option.some.inj hsome]
      · cases hsome
    · cases hsome
  · exact fun ha => ⟨_, ha, by simp⟩

/-- What is settled is what was asked for, or nothing. -/
lemma right_step (h : s.Sound) (hstep : s.step e = .ok (o, s')) {a : Answer} (ha : .settled u a ∈ o) :
    a.Right := by
  cases does_of_step hstep with
  | sets bitmask op =>
    rw [← mem_settledOf, settledOf_set h] at ha
    split at ha
    · rename_i htold
      rw [List.mem_singleton.1 ha]
      exact htold.2
    · exact absurd ha List.not_mem_nil
  | finds t bitmask op suspend hout hsat =>
    obtain ⟨-, rfl⟩ : u = t ∧ a = ⟨bitmask, op, .success, s.events⟩ := by simpa using ha
    exact hsat
  | refuses t bitmask op hout hunsat =>
    obtain ⟨-, rfl⟩ : u = t ∧ a = ⟨bitmask, op, .eagain, 0⟩ := by simpa using ha
    rfl
  | unlinks t ht hlisted =>
    obtain ⟨-, rfl⟩ : u = t ∧ a = (s.waiter t).answer := by simpa using ha
    exact ((h.fits t).of_mem hlisted).2.2
  | sleeps => simp at ha
  | returns => simp at ha
  | cancels => simp at ha
  | _ => exact absurd ha List.not_mem_nil

end Step

section Run

variable {s : EventFlags ι} {waiter : ι → Waiter} {es : List (Event ι)} {os : List (List (Did ι))}

lemma invariant_sound : Invariant step (Sound : EventFlags ι → Prop) := fun _ _ _ _ => sound_step

/-- **Each `get` is answered once.** In every run a thread returns from its calls one by one, with what it
asked for, and with what was settled for it, in that order; at the end it is in at most one call, and at
most one answer has not been returned. Each answer is right: a success came with events that satisfy the
call, and otherwise there are none. -/
theorem get_answers (h : run step (create waiter) es = .ok (os, s)) (t : ι) :
    os.flatMap (settledOf t) = os.flatMap (returnedOf t) ++ s.pending t ∧
    os.flatMap (callsOf t) = (os.flatMap (returnedOf t)).map Answer.request ++ s.asked t ∧
    (s.asked t).length ≤ 1 ∧ (s.pending t).length ≤ 1 ∧
    ∀ a ∈ os.flatMap (settledOf t), a.Right := by
  have hpending : ∀ s e o s', Sound s → step s e = .ok (o, s') →
      s.pending t ++ settledOf t o = returnedOf t o ++ s'.pending t :=
    fun _ _ _ _ hs hst => (pending_step hs hst t).1
  have hasked : ∀ s e o s', Sound s → step s e = .ok (o, s') →
      s.asked t ++ callsOf t o = (returnedOf t o).map Answer.request ++ s'.asked t :=
    fun _ _ _ _ hs hst => (pending_step hs hst t).2
  have hright : ∀ o ∈ os, ∀ a, .settled t a ∈ o → a.Right :=
    out_run invariant_sound (fun _ _ _ _ hs hst _ ha => right_step hs hst ha) (sound_create waiter) h
  refine ⟨pipeline_run invariant_sound hpending (sound_create waiter) h, ?_, ?_, ?_, fun a ha => ?_⟩
  · rw [List.map_flatMap]
    exact pipeline_run invariant_sound hasked (sound_create waiter) h
  · unfold asked
    split <;> simp
  · unfold pending
    split
    · simp
    · split <;> simp
    · simp
  · obtain ⟨o, ho, ha⟩ := List.mem_flatMap.1 ha
    exact hright o ho a (mem_settledOf.1 ha)

/-- One thread is told by a `set`, and another gets nothing in time. -/
theorem get_answers_timeOut : ∃ os s,
    run step (create fun _ : Bool => ⟨0, .or, .success, 0, false⟩)
      [.get true 1 .orConsume .forever, .get false 2 .or .ms, .set 1 .or, .timerExpires false,
        .timerUnlinks false, .wakes true] = .ok (os, s) ∧
    os.flatMap (returnedOf true) = [⟨1, .orConsume, .success, 1⟩] ∧
    os.flatMap (settledOf true) = os.flatMap (returnedOf true) ++ s.pending true := by
  obtain ⟨os, s, h, hreturned⟩ : ∃ os s,
      run step (create fun _ : Bool => ⟨0, .or, .success, 0, false⟩)
        [.get true 1 .orConsume .forever, .get false 2 .or .ms, .set 1 .or, .timerExpires false,
          .timerUnlinks false, .wakes true] = .ok (os, s) ∧
      os.flatMap (returnedOf true) = [⟨1, .orConsume, .success, 1⟩] := ⟨_, _, rfl, rfl⟩
  exact ⟨os, s, h, hreturned, (get_answers h true).1⟩

end Run

/-! ### What becomes of a flag -/

section Flag

variable {s s' : EventFlags ι} {waiter : ι → Waiter} {e : Event ι} {es : List (Event ι)}
  {o : List (Did ι)} {os : List (List (Did ι))} {i : ℕ}

/-- A `get` that consumes the flag is told that it is up. -/
def Took (i : ℕ) (o : List (Did ι)) : Prop :=
  ∃ t a, .settled t a ∈ o ∧ a.status = .success ∧ a.op.consume = true ∧
    a.requestedEvents.getLsbD i = true ∧ a.events.getLsbD i = true

/-- A `get` is told that the flag is up. -/
def Shown (i : ℕ) (o : List (Did ι)) : Prop := ∃ t a, .settled t a ∈ o ∧ a.events.getLsbD i = true

def Raises (i : ℕ) : Event ι → Prop
  | .set bitmask .or => bitmask.getLsbD i = true
  | _ => False

/-- Somebody other than a `get` takes the flag down. -/
def Clears (i : ℕ) : Event ι → Prop
  | .set bitmask .and => bitmask.getLsbD i = false
  | _ => False

lemma getLsbD_andNot (x y : Flags) (i : ℕ) :
    (x &&& ~~~y).getLsbD i = true ↔ x.getLsbD i = true ∧ y.getLsbD i = false := by
  rw [BitVec.getLsbD_and, BitVec.getLsbD_not, Bool.and_eq_true, Bool.and_eq_true, decide_eq_true_eq,
    Bool.not_eq_true']
  exact ⟨fun h => ⟨h.1, h.2.2⟩, fun h => ⟨h.1, BitVec.lt_of_getLsbD h.1, h.2⟩⟩

/-- A `set` shows its waiters the flags that it has left up. -/
lemma mem_set {t : ι} {a : Answer} (h : s.Sound) (bitmask : Flags) (op : SetOp) :
    .settled t a ∈ (s.set bitmask op).1 ↔
      t ∈ s.waiters ∧ (s.raise bitmask op).Ready t ∧ a = ((s.raise bitmask op).told t).answer := by
  rw [← mem_settledOf, settledOf_set h]
  split
  · rename_i htold
    rw [List.mem_singleton]
    exact ⟨fun ha => ⟨htold.1, htold.2, ha⟩, fun ha => ha.2.2⟩
  · rename_i htold
    exact ⟨fun ha => absurd ha List.not_mem_nil, fun ha => absurd ⟨ha.1, ha.2.1⟩ htold⟩

/-- The flags after a `set`: those it leaves up, but for what has been consumed. -/
lemma getLsbD_set (h : s.Sound) (bitmask : Flags) (op : SetOp) (i : ℕ) :
    (s.set bitmask op).2.events.getLsbD i = true ↔
      (s.raise bitmask op).events.getLsbD i = true ∧ ¬ Took i (s.set bitmask op).1 := by
  have hw := walk_walked (s.raise bitmask op) h.nodup 0
  have hevents : (s.set bitmask op).2.events = _ &&& _ := congrArg (· &&& _) hw.events
  rw [hevents, getLsbD_andNot]
  refine and_congr_right fun hup => ?_
  rw [← Bool.not_eq_true, hw.consumed i]
  refine not_congr ?_
  constructor
  · rintro (hzero | ⟨t, ht, hready, hconsume, hrequested⟩)
    · simp at hzero
    · exact ⟨t, _, (mem_set h bitmask op).2 ⟨ht, hready, rfl⟩, rfl, hconsume, hrequested, hup⟩
  · rintro ⟨t, a, ha, -, hconsume, hrequested, -⟩
    obtain ⟨ht, hready, rfl⟩ := (mem_set h bitmask op).1 ha
    exact .inr ⟨t, ht, hready, hconsume, hrequested⟩

/-- A flag that is up stays up, until a `get` takes it or somebody clears it. -/
lemma up_step (h : s.Sound) (hup : s.events.getLsbD i = true) (hstep : s.step e = .ok (o, s')) :
    s'.events.getLsbD i = true ∨ Took i o ∨ Clears i e := by
  cases does_of_step hstep with
  | sets bitmask op =>
    by_cases hclears : Clears i (.set bitmask op : Event ι)
    · exact .inr (.inr hclears)
    have hraised : (s.raise bitmask op).events.getLsbD i = true := by
      cases op with
      | or => simp [raise, hup]
      | and =>
        have hmask : bitmask.getLsbD i = true := by simpa [Clears] using hclears
        simp [raise, hup, hmask]
    by_cases htook : Took i (s.set bitmask op).1
    · exact .inr (.inl htook)
    · exact .inl ((getLsbD_set h bitmask op i).2 ⟨hraised, htook⟩)
  | finds t bitmask op suspend hout hsat =>
    by_cases hconsume : op.consume = true
    · rcases hrequested : bitmask.getLsbD i
      · left
        dsimp only
        rw [if_pos hconsume, getLsbD_andNot]
        exact ⟨hup, hrequested⟩
      · exact .inr (.inl ⟨t, _, List.mem_cons_of_mem _ List.mem_cons_self, rfl, hconsume, hrequested, hup⟩)
    · left
      dsimp only
      rwa [if_neg hconsume]
  | _ => exact .inl hup

/-- A flag is taken by a `set`, for those who wait, or by a `get` that finds it up. -/
lemma took_cases (h : s.Sound) (hstep : s.step e = .ok (o, s')) (htook : Took i o) :
    (∃ bitmask op, e = .set bitmask op ∧ o = (s.set bitmask op).1 ∧ s' = (s.set bitmask op).2) ∨
    ∃ t bitmask op suspend, e = .get t bitmask op suspend ∧
      o = [.called t bitmask op, .settled t ⟨bitmask, op, .success, s.events⟩,
        .returned t ⟨bitmask, op, .success, s.events⟩] ∧
      s' = { s with events := if op.consume then s.events &&& ~~~bitmask else s.events } := by
  cases does_of_step hstep with
  | sets bitmask op => exact .inl ⟨bitmask, op, rfl, rfl, rfl⟩
  | finds t bitmask op suspend hout hsat => exact .inr ⟨t, bitmask, op, suspend, rfl, rfl, rfl⟩
  | refuses t bitmask op hout hunsat =>
    obtain ⟨u, a, ha, hstatus, -⟩ := htook
    obtain ⟨-, rfl⟩ : u = t ∧ a = ⟨bitmask, op, .eagain, 0⟩ := by simpa using ha
    cases hstatus
  | unlinks t ht hlisted =>
    obtain ⟨u, a, ha, hstatus, -⟩ := htook
    obtain ⟨-, rfl⟩ : u = t ∧ a = (s.waiter t).answer := by simpa using ha
    cases hstatus.symm.trans ((h.fits t).of_mem hlisted).2.1
  | _ => simp [Took] at htook

/-- A flag that has been taken is down. -/
lemma down_of_took (h : s.Sound) (hstep : s.step e = .ok (o, s')) (htook : Took i o) :
    s'.events.getLsbD i = false := by
  rcases took_cases h hstep htook with ⟨bitmask, op, rfl, rfl, rfl⟩ | ⟨t, bitmask, op, suspend, rfl, rfl, rfl⟩
  · rw [← Bool.not_eq_true, getLsbD_set h]
    exact fun hup => hup.2 htook
  · obtain ⟨u, a, ha, -, hconsume, hrequested, -⟩ := htook
    obtain ⟨-, rfl⟩ : u = t ∧ a = ⟨bitmask, op, .success, s.events⟩ := by simpa using ha
    dsimp only at hconsume hrequested ⊢
    rw [if_pos hconsume, ← Bool.not_eq_true, getLsbD_andNot]
    rintro ⟨-, hno⟩
    cases hrequested.symm.trans hno

/-- Who is told what when a flag is taken: the thread that calls `get`, or those in the chain whom the events
of a `set` satisfy. -/
def Tells (s : EventFlags ι) : Event ι → ι → Answer → Prop
  | .set bitmask op, t, a =>
    t ∈ s.waiters ∧ (s.raise bitmask op).Ready t ∧ a = ((s.raise bitmask op).told t).answer
  | .get u bitmask op _, t, a => t = u ∧ a = ⟨bitmask, op, .success, s.events⟩
  | _, _, _ => False

/-- In the step in which a flag is taken nobody else is told, and nobody twice. -/
lemma tells_of_took (h : s.Sound) (hstep : s.step e = .ok (o, s')) (htook : Took i o) (t : ι) :
    (∀ a, .settled t a ∈ o ↔ s.Tells e t a) ∧ (settledOf t o).length ≤ 1 := by
  rcases took_cases h hstep htook with ⟨bitmask, op, rfl, rfl, rfl⟩ | ⟨u, bitmask, op, suspend, rfl, rfl, rfl⟩
  · refine ⟨fun a => mem_set h bitmask op, ?_⟩
    rw [settledOf_set h]
    split
    · exact Nat.le_refl 1
    · exact Nat.zero_le 1
  · constructor
    · intro a
      simp [Tells]
    · by_cases hut : u = t <;> simp [settledOf, hut]

/-- A flag that is down stays down until it is raised, and nobody is told that it is up. -/
lemma down_step (h : s.Sound) (hdown : s.events.getLsbD i = false) (hraises : ¬ Raises i e)
    (hstep : s.step e = .ok (o, s')) : s'.events.getLsbD i = false ∧ ¬ Shown i o := by
  cases does_of_step hstep with
  | sets bitmask op =>
    have hraised : (s.raise bitmask op).events.getLsbD i = false := by
      cases op with
      | or =>
        have hmask : bitmask.getLsbD i = false := by simpa [Raises] using hraises
        simp [raise, hdown, hmask]
      | and => simp [raise, hdown]
    constructor
    · rw [← Bool.not_eq_true, getLsbD_set h, hraised]
      exact fun hup => (nomatch hup.1)
    · rintro ⟨t, a, ha, hup⟩
      obtain ⟨-, -, rfl⟩ := (mem_set h bitmask op).1 ha
      cases hraised.symm.trans hup
  | finds t bitmask op suspend hout hsat =>
    constructor
    · dsimp only
      split
      · rw [← Bool.not_eq_true, getLsbD_andNot, hdown]
        exact fun hup => (nomatch hup.1)
      · exact hdown
    · rintro ⟨u, a, ha, hup⟩
      obtain ⟨-, rfl⟩ : u = t ∧ a = ⟨bitmask, op, .success, s.events⟩ := by simpa using ha
      cases hdown.symm.trans hup
  | refuses t bitmask op hout hunsat =>
    refine ⟨hdown, ?_⟩
    rintro ⟨u, a, ha, hup⟩
    obtain ⟨-, rfl⟩ : u = t ∧ a = ⟨bitmask, op, .eagain, 0⟩ := by simpa using ha
    simp at hup
  | unlinks t ht hlisted =>
    refine ⟨hdown, ?_⟩
    rintro ⟨u, a, ha, hup⟩
    obtain ⟨-, rfl⟩ : u = t ∧ a = (s.waiter t).answer := by simpa using ha
    obtain ⟨-, hstatus, hright⟩ := (h.fits t).of_mem hlisted
    have hzero : (s.waiter t).answer.events = 0 := by
      simpa only [Answer.Right, Waiter.answer, hstatus] using hright
    rw [hzero] at hup
    simp at hup
  | _ => exact ⟨hdown, by simp [Shown]⟩

/-- **No flag is lost.** A flag that has been raised is up at the end of the run, or a `get` that consumes
it has been told of it since, or somebody has cleared it. -/
theorem flag_delivered {bitmask : Flags} {es₁ es₂ : List (Event ι)}
    (h : run step (create waiter) (es₁ ++ .set bitmask .or :: es₂) = .ok (os, s))
    (hi : bitmask.getLsbD i = true) : ∃ os₁ os₂, os = os₁ ++ os₂ ∧ os₁.length = es₁.length ∧
      (s.events.getLsbD i = true ∨ (∃ o ∈ os₂, Took i o) ∨ ∃ e ∈ es₂, Clears i e) := by
  obtain ⟨os₁, s₁, os₂, h₁, h₂, rfl⟩ := run_append_eq_ok.1 h
  refine ⟨os₁, os₂, rfl, length_run h₁, ?_⟩
  obtain ⟨o, s₂, os₃, hset, h₃, rfl⟩ := run_cons_eq_ok.1 h₂
  have hsound := sound_run h₁
  obtain ⟨rfl, rfl⟩ := Prod.mk.inj (Except.ok.inj hset)
  by_cases htook : Took i (s₁.set bitmask .or).1
  · exact .inr (.inl ⟨_, List.mem_cons_self, htook⟩)
  have hup : (s₁.set bitmask .or).2.events.getLsbD i = true := by
    refine (getLsbD_set hsound bitmask .or i).2 ⟨?_, htook⟩
    simp [raise, hi]
  rcases until_run (Q := fun s => s.events.getLsbD i = true) (P := fun e o => Took i o ∨ Clears i e)
    invariant_sound (fun _ _ _ _ hs hup hst => up_step hs hup hst) (sound_set hsound bitmask .or) hup h₃
    with hend | ⟨e, he, o, ho, htook | hclears⟩
  · exact .inl hend
  · exact .inr (.inl ⟨o, List.mem_cons_of_mem _ ho, htook⟩)
  · exact .inr (.inr ⟨e, he, hclears⟩)

/-- The flag is raised for a thread that waits for it. -/
theorem flag_delivered_waiting : ∃ os s os₁ os₂,
    run step (create fun _ : Bool => ⟨0, .or, .success, 0, false⟩)
      ([.get true 1 .orConsume .forever] ++ .set 1 .or :: [.wakes true]) = .ok (os, s) ∧
    os = os₁ ++ os₂ ∧ ∃ o ∈ os₂, Took 0 o := by
  obtain ⟨os, s, h, hdown⟩ : ∃ os s, run step (create fun _ : Bool => ⟨0, .or, .success, 0, false⟩)
      ([.get true 1 .orConsume .forever] ++ .set 1 .or :: [.wakes true]) = .ok (os, s) ∧
      s.events.getLsbD 0 = false := ⟨_, _, rfl, rfl⟩
  obtain ⟨os₁, os₂, hos, -, hup | htook | ⟨e, he, hclears⟩⟩ := flag_delivered (i := 0) h (by decide)
  · cases hdown.symm.trans hup
  · exact ⟨os, s, os₁, os₂, h, hos, htook⟩
  · obtain rfl := List.mem_singleton.1 he
    exact hclears.elim

/-- From a state in which the flag is down nobody is told that it is up, until it is raised. -/
lemma down_run (h : s.Sound) (hdown : s.events.getLsbD i = false) (hraises : ∀ e ∈ es, ¬ Raises i e)
    (hrun : run step s es = .ok (os, s')) : s'.events.getLsbD i = false ∧ ∀ o ∈ os, ¬ Shown i o := by
  suffices hall : (∀ e ∈ es, ¬ Raises i e) →
      s'.Sound ∧ s'.events.getLsbD i = false ∧ ∀ o ∈ os, ¬ Shown i o from (hall hraises).2
  refine history_run (J := fun es os s => (∀ e ∈ es, ¬ Raises i e) →
    s.Sound ∧ s.events.getLsbD i = false ∧ ∀ o ∈ os, ¬ Shown i o)
    (fun _ => ⟨h, hdown, fun _ ho => absurd ho List.not_mem_nil⟩) ?_ hrun
  intro es os u e' o' u' _ hJ hstep hall
  obtain ⟨hes, he'⟩ := List.forall_mem_append.1 hall
  obtain ⟨hu, hdown, hshown⟩ := hJ hes
  obtain ⟨hdown', hnot⟩ := down_step hu hdown (he' e' List.mem_cons_self) hstep
  refine ⟨sound_step hu hstep, hdown', ?_⟩
  rw [List.forall_mem_append]
  exact ⟨hshown, fun x hx => List.mem_singleton.1 hx ▸ hnot⟩

/-- **A flag that is taken is gone.** In the step in which a `get` that consumes a flag is told of it, those
who are told are that `get` alone, or all that one `set` finds waiting for what it leaves up, each once: it
clears what they consume only behind its walk. From then on the flag is down, and nobody is told that it is
up, until it is raised again. -/
theorem flag_consumed {es₁ es₂ : List (Event ι)}
    (h : run step (create waiter) (es₁ ++ e :: es₂) = .ok (os, s)) (hraises : ∀ e ∈ es₂, ¬ Raises i e) :
    ∃ os₁ s₁ o os₂, run step (create waiter) es₁ = .ok (os₁, s₁) ∧ os = os₁ ++ o :: os₂ ∧
      (Took i o → (∀ t, (∀ a, .settled t a ∈ o ↔ s₁.Tells e t a) ∧ (settledOf t o).length ≤ 1) ∧
        s.events.getLsbD i = false ∧ ∀ o' ∈ os₂, ¬ Shown i o') := by
  obtain ⟨os₁, s₁, os₂, h₁, h₂, rfl⟩ := run_append_eq_ok.1 h
  obtain ⟨o, s₂, os₃, hst, h₃, rfl⟩ := run_cons_eq_ok.1 h₂
  refine ⟨os₁, s₁, o, os₃, h₁, rfl, fun htook => ?_⟩
  have hsound := sound_run h₁
  exact ⟨tells_of_took hsound hst htook,
    down_run (sound_step hsound hst) (down_of_took hsound hst htook) hraises h₃⟩

/-- The thread that has waited takes the flag, and the next to look does not see it. -/
theorem flag_consumed_waiting : ∃ os s o os₂,
    run step (create fun _ : Bool => ⟨0, .or, .success, 0, false⟩)
      ([.get true 1 .orConsume .forever] ++ .set 1 .or :: [.wakes true, .get false 1 .or .no]) =
        .ok (os, s) ∧
    os = [[.called true 1 .orConsume], o] ++ os₂ ∧ o = [.settled true ⟨1, .orConsume, .success, 1⟩] ∧
    s.events.getLsbD 0 = false ∧ ∀ o' ∈ os₂, ¬ Shown 0 o' := by
  obtain ⟨os, s, os₂, h, hos⟩ : ∃ os s os₂, run step (create fun _ : Bool => ⟨0, .or, .success, 0, false⟩)
      ([.get true 1 .orConsume .forever] ++ .set 1 .or :: [.wakes true, .get false 1 .or .no]) =
        .ok (os, s) ∧
      os = [[.called true 1 .orConsume], [.settled true ⟨1, .orConsume, .success, 1⟩]] ++ os₂ :=
    ⟨_, _, _, rfl, rfl⟩
  obtain ⟨os₁, s₁, o, os₃, h₁, hos', hgone⟩ := flag_consumed (i := 0) h (by simp [Raises])
  obtain rfl : [[.called true 1 .orConsume]] = os₁ := (Prod.mk.inj (Except.ok.inj h₁)).1
  obtain ⟨-, htail⟩ := List.cons.inj (hos.symm.trans hos')
  obtain ⟨rfl, rfl⟩ := List.cons.inj htail
  exact ⟨os, s, _, os₂, h, hos, rfl, (hgone ⟨true, _, List.mem_singleton.2 rfl, rfl, rfl, rfl, rfl⟩).2⟩

/-- Two threads that consume the same flag are told of it by the one `set` that raises it. -/
example : ∃ os s,
    run step (create fun _ : Bool => ⟨0, .or, .success, 0, false⟩)
      [.get true 1 .orConsume .forever, .get false 1 .orConsume .forever, .set 1 .or] = .ok (os, s) ∧
    os.flatMap (settledOf true) = [⟨1, .orConsume, .success, 1⟩] ∧
    os.flatMap (settledOf false) = [⟨1, .orConsume, .success, 1⟩] ∧ s.events = 0 :=
  ⟨_, _, rfl, rfl, rfl, rfl⟩

end Flag

end EventFlags

end RcControl.Vcos
