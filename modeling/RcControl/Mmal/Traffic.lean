import RcControl.Lib.Crew
import RcControl.Lib.Run
import RcControl.Mmal.Core

/-!
# The traffic of a port

What becomes of the headers that are sent to a port: while the port is paused they wait in a queue of
its own, and otherwise they go to the component, which gives each back by the callback. A flush and a
disabling give the waiting ones back by the port itself, one after the other, outside the lock of the
sending: everything else may come in between. Here the queue is a list; its links are those of
`LinkedPort`.

No header is lost or doubled on any of these ways (`traffic_conserved`), the component gets them in the
order in which they were sent (`traffic_inOrder`), and a disabling that has come to its end has left
none behind.
-/

namespace RcControl.Mmal

open Lib Lib.Run

/-- How far `mmal_port_disable_internal` is. -/
inductive Disabling (β : Type) where
  | no
  /-- The port is disabled, and the component is asked to be. -/
  | asking
  /-- The loop over the waiting headers. -/
  | draining (rest : β)

/-- The ways of the headers, and what the component does on them. -/
inductive PortEvent (α : Type) where
  /-- `mmal_port_send_buffer`, and what `pf_send` answers and does to the links if it is called. -/
  | send (buffer : α) (answer : Status) (relink : (α → Option α) → α → Option α)
  /-- The component calls `mmal_port_buffer_header_callback`. -/
  | giveBack (buffer : α)
  /-- `mmal_port_pause`. -/
  | pause
  | resume (answer : α → Status) (relink : α → (α → Option α) → α → Option α)
  /-- `mmal_port_flush`, up to the unlocking, and what `pf_flush` answers. -/
  | flush (answer : Status)
  /-- The loop of a flush calls back for its next header. -/
  | flushNext (i : ℕ)
  /-- `mmal_port_disable`, up to `is_enabled = 0`. -/
  | disable
  /-- `pf_disable` answers. -/
  | disabled (answer : Status)
  /-- The loop of the disabling calls back for its next header. -/
  | drainNext
  /-- The disabling has waited for the rest, and returns. -/
  | disableEnd
  /-- `mmal_port_enable`, and what `pf_enable` answers. -/
  | enable (answer : Status)
  /-- Whoever has a header links it elsewhere. -/
  | relink (relink : (α → Option α) → α → Option α)

/-- What there is to see of a step. -/
inductive PortDid (α : Type) where
  /-- A send has been answered with success. -/
  | accepted (buffer : α)
  /-- The component has taken the header. -/
  | passed (buffer : α)
  /-- These leave the queue without having been with the component. -/
  | flushed (buffers : List α)
  /-- The client has been called back. -/
  | returned (buffer : α)
  /-- `mmal_port_disable` has returned with success. -/
  | ended

inductive PortFault where
  /-- The event is none that can happen now. -/
  | impossible
  /-- A loop over the waiting headers does not end. -/
  | endless

/-- The headers that go through, up to the first that is refused. -/
def taken {α : Type} (answer : α → Status) (l : List α) : List α :=
  l.takeWhile fun b => answer b = .success

def untaken {α : Type} (answer : α → Status) (l : List α) : List α :=
  l.dropWhile fun b => answer b = .success

/-- The status of the loop of `mmal_port_pause`. -/
def resumeStatus {α : Type} (answer : α → Status) (l : List α) : Status :=
  match untaken answer l with
  | [] => .success
  | b :: _ => answer b

lemma taken_append_untaken {α : Type} (answer : α → Status) (l : List α) :
    taken answer l ++ untaken answer l = l := List.takeWhile_append_dropWhile

/-- A port, its queue and the loops under way being lists. -/
structure Traffic (α : Type) where
  isEnabled : Bool
  isPaused : Bool
  queue : List α
  /-- What the component has taken and not given back. -/
  component : List α
  /-- What each flush has still to give back. -/
  flushing : List (List α)
  disabling : Disabling (List α)

namespace Traffic

variable {α : Type}

/-- A port as it is allocated. -/
def create : Traffic α where
  isEnabled := false
  isPaused := false
  queue := []
  component := []
  flushing := []
  disabling := .no

/-- What a disabling has still to give back. -/
def draining (s : Traffic α) : List α :=
  match s.disabling with
  | .draining rest => rest
  | _ => []

/-- The headers whose links are the port's. -/
def listed (s : Traffic α) : List α := s.queue ++ s.flushing.flatten ++ s.draining

def inTransit (s : Traffic α) : List α := s.listed ++ s.component

def send (s : Traffic α) (b : α) (answer : Status) : (Status × List (PortDid α)) × Traffic α :=
  if !s.isEnabled then ((.einval, []), s)
  else if s.isPaused then ((.success, [.accepted b]), { s with queue := s.queue ++ [b] })
  else if answer = .success then
    ((.success, [.accepted b, .passed b]), { s with component := s.component ++ [b] })
  else ((answer, []), s)

/-- Resuming a port that is not enabled only unpauses it. -/
def resume (s : Traffic α) (answer : α → Status) : (Status × List (PortDid α)) × Traffic α :=
  if s.isEnabled then
    ((resumeStatus answer s.queue, (taken answer s.queue).map .passed),
      { s with
        queue := untaken answer s.queue
        component := s.component ++ taken answer s.queue
        isPaused := if resumeStatus answer s.queue = .success then false else s.isPaused })
  else ((.success, []), { s with isPaused := false })

def flush (s : Traffic α) (answer : Status) : (Status × List (PortDid α)) × Traffic α :=
  if !s.isEnabled then ((.success, []), s)
  else if answer = .success then
    ((.success, [.flushed s.queue]), { s with queue := [], flushing := s.flushing ++ [s.queue] })
  else ((answer, []), s)

/-- `mmal_port_disable` refuses a port that is not enabled. -/
def disable (s : Traffic α) : (Status × List (PortDid α)) × Traffic α :=
  if s.isEnabled then ((.success, []), { s with isEnabled := false, disabling := .asking })
  else ((.einval, []), s)

def disabled (s : Traffic α) (answer : Status) : (Status × List (PortDid α)) × Traffic α :=
  if answer = .success then
    ((.success, [.flushed s.queue]), { s with queue := [], disabling := .draining s.queue })
  else ((answer, []), { s with isEnabled := true, disabling := .no })

/-- `mmal_port_enable` refuses a port that is enabled. -/
def enable (s : Traffic α) (answer : Status) : (Status × List (PortDid α)) × Traffic α :=
  if s.isEnabled then ((.einval, []), s)
  else if answer = .success then ((.success, []), { s with isEnabled := true })
  else ((answer, []), s)

variable [DecidableEq α]

def step (s : Traffic α) : PortEvent α → Except PortFault ((Status × List (PortDid α)) × Traffic α)
  | .send b answer _ => .ok (s.send b answer)
  | .giveBack b =>
    if b ∈ s.component then .ok ((.success, [.returned b]), { s with component := s.component.erase b })
    else .error .impossible
  | .pause => .ok ((.success, []), { s with isPaused := true })
  | .resume answer _ => .ok (s.resume answer)
  | .flush answer => .ok (s.flush answer)
  | .flushNext i =>
    match s.flushing[i]? with
    | some (b :: rest) => .ok ((.success, [.returned b]), { s with flushing := s.flushing.set i rest })
    | _ => .error .impossible
  | .disable =>
    match s.disabling with
    | .no => .ok (s.disable)
    | _ => .error .impossible
  | .disabled answer =>
    match s.disabling with
    | .asking => .ok (s.disabled answer)
    | _ => .error .impossible
  | .drainNext =>
    match s.disabling with
    | .draining (b :: rest) => .ok ((.success, [.returned b]), { s with disabling := .draining rest })
    | _ => .error .impossible
  | .disableEnd =>
    match s.disabling, s.inTransit with
    | .draining [], [] => .ok ((.success, [.ended]), { s with disabling := .no })
    | _, _ => .error .impossible
  | .enable answer =>
    match s.disabling with
    | .no => .ok (s.enable answer)
    | _ => .error .impossible
  | .relink _ => .ok ((.success, []), s)

/-! ### What a step does -/

/-- What a step does to the headers; the statuses are left out. -/
inductive Does (s : Traffic α) : PortEvent α → List (PortDid α) → Traffic α → Prop
  /-- The call is refused, or the component refuses; or it has to do with the links alone. -/
  | refuses (e : PortEvent α) (hend : e ≠ .disableEnd) : Does s e [] s
  | waits (b : α) (answer : Status) (relink : (α → Option α) → α → Option α) (hon : s.isEnabled = true)
      (hpaused : s.isPaused = true) :
      Does s (.send b answer relink) [.accepted b] { s with queue := s.queue ++ [b] }
  | passes (b : α) (relink : (α → Option α) → α → Option α) (hon : s.isEnabled = true)
      (hpaused : s.isPaused = false) :
      Does s (.send b .success relink) [.accepted b, .passed b] { s with component := s.component ++ [b] }
  | givesBack (b : α) (hb : b ∈ s.component) :
      Does s (.giveBack b) [.returned b] { s with component := s.component.erase b }
  | pauses : Does s .pause [] { s with isPaused := true }
  | resumes (answer : α → Status) (relink : α → (α → Option α) → α → Option α)
      (hon : s.isEnabled = true) :
      Does s (.resume answer relink) ((taken answer s.queue).map .passed)
        { s with
          queue := untaken answer s.queue
          component := s.component ++ taken answer s.queue
          isPaused := if resumeStatus answer s.queue = .success then false else s.isPaused }
  | unpauses (answer : α → Status) (relink : α → (α → Option α) → α → Option α)
      (hoff : s.isEnabled = false) : Does s (.resume answer relink) [] { s with isPaused := false }
  | flushes (hon : s.isEnabled = true) :
      Does s (.flush .success) [.flushed s.queue]
        { s with queue := [], flushing := s.flushing ++ [s.queue] }
  | flushesNext (i : ℕ) (b : α) (rest : List α) (hi : s.flushing[i]? = some (b :: rest)) :
      Does s (.flushNext i) [.returned b] { s with flushing := s.flushing.set i rest }
  | stops (hon : s.isEnabled = true) (hno : s.disabling = .no) :
      Does s .disable [] { s with isEnabled := false, disabling := .asking }
  | drains (hask : s.disabling = .asking) :
      Does s (.disabled .success) [.flushed s.queue]
        { s with queue := [], disabling := .draining s.queue }
  | restarts (answer : Status) (hanswer : answer ≠ .success) (hask : s.disabling = .asking) :
      Does s (.disabled answer) [] { s with isEnabled := true, disabling := .no }
  | drainsNext (b : α) (rest : List α) (hrest : s.disabling = .draining (b :: rest)) :
      Does s .drainNext [.returned b] { s with disabling := .draining rest }
  | ends (hrest : s.disabling = .draining []) (hnone : s.inTransit = []) :
      Does s .disableEnd [.ended] { s with disabling := .no }
  | enables (hoff : s.isEnabled = false) (hno : s.disabling = .no) :
      Does s (.enable .success) [] { s with isEnabled := true }

section Step

variable {s s' : Traffic α} {e : PortEvent α} {o : Status × List (PortDid α)}

lemma does_send (s : Traffic α) (b : α) (answer : Status) (relink : (α → Option α) → α → Option α) :
    Does s (.send b answer relink) (s.send b answer).1.2 (s.send b answer).2 := by
  unfold send
  split_ifs with hoff hpaused hanswer
  · exact .refuses _ (by simp)
  · exact .waits b answer relink (by simpa using hoff) hpaused
  · subst hanswer
    exact .passes b relink (by simpa using hoff) (by simpa using hpaused)
  · exact .refuses _ (by simp)

lemma does_resume (s : Traffic α) (answer : α → Status) (relink : α → (α → Option α) → α → Option α) :
    Does s (.resume answer relink) (s.resume answer).1.2 (s.resume answer).2 := by
  unfold resume
  split
  · exact .resumes answer relink ‹_›
  · exact .unpauses answer relink (by simpa using ‹¬ s.isEnabled = true›)

lemma does_flush (s : Traffic α) (answer : Status) :
    Does s (.flush answer) (s.flush answer).1.2 (s.flush answer).2 := by
  unfold flush
  split_ifs with hoff hanswer
  · exact .refuses _ (by simp)
  · subst hanswer
    exact .flushes (by simpa using hoff)
  · exact .refuses _ (by simp)

lemma does_disable (s : Traffic α) (hno : s.disabling = .no) :
    Does s .disable s.disable.1.2 s.disable.2 := by
  unfold disable
  split
  · exact .stops ‹_› hno
  · exact .refuses _ (by simp)

lemma does_disabled (s : Traffic α) (answer : Status) (hask : s.disabling = .asking) :
    Does s (.disabled answer) (s.disabled answer).1.2 (s.disabled answer).2 := by
  unfold disabled
  split_ifs with hanswer
  · subst hanswer
    exact .drains hask
  · exact .restarts answer hanswer hask

lemma does_enable (s : Traffic α) (answer : Status) (hno : s.disabling = .no) :
    Does s (.enable answer) (s.enable answer).1.2 (s.enable answer).2 := by
  unfold enable
  split_ifs with hon hanswer
  · exact .refuses _ (by simp)
  · subst hanswer
    exact .enables (by simpa using hon) hno
  · exact .refuses _ (by simp)

theorem does_of_step (h : s.step e = .ok (o, s')) : Does s e o.2 s' := by
  have heq : ∀ {r : (Status × List (PortDid α)) × Traffic α},
      (.ok r : Except PortFault _) = .ok (o, s') → Does s e r.1.2 r.2 → Does s e o.2 s' := by
    intro r hr hdoes
    rw [Except.ok.injEq] at hr
    rwa [hr] at hdoes
  cases e with
  | send b answer relink => exact heq h (does_send s b answer relink)
  | giveBack b =>
    simp only [step] at h
    split at h
    · exact heq h (.givesBack b ‹_›)
    · cases h
  | pause => exact heq h .pauses
  | resume answer relink => exact heq h (does_resume s answer relink)
  | flush answer => exact heq h (does_flush s answer)
  | flushNext i =>
    simp only [step] at h
    split at h
    · exact heq h (.flushesNext i _ _ ‹_›)
    · cases h
  | disable =>
    simp only [step] at h
    split at h
    · exact heq h (does_disable s ‹_›)
    · cases h
  | disabled answer =>
    simp only [step] at h
    split at h
    · exact heq h (does_disabled s answer ‹_›)
    · cases h
  | drainNext =>
    simp only [step] at h
    split at h
    · exact heq h (.drainsNext _ _ ‹_›)
    · cases h
  | disableEnd =>
    simp only [step] at h
    split at h
    · exact heq h (.ends ‹_› ‹_›)
    · cases h
  | enable answer =>
    simp only [step] at h
    split at h
    · exact heq h (does_enable s answer ‹_›)
    · cases h
  | relink relink => exact heq h (.refuses _ (by simp))

end Step

/-! ### Where the headers go -/

omit [DecidableEq α] in
/-- The headers whose sending has succeeded. -/
def accepted (o : Status × List (PortDid α)) : List α :=
  o.2.flatMap fun
    | .accepted b => [b]
    | _ => []

def returned (o : Status × List (PortDid α)) : List α :=
  o.2.flatMap fun
    | .returned b => [b]
    | _ => []

/-- The headers that go on to the component, or are taken from the queue to be given back. -/
def gone (o : Status × List (PortDid α)) : List α :=
  o.2.flatMap fun
    | .passed b => [b]
    | .flushed l => l
    | _ => []

section Conserved

variable {s s' : Traffic α} {e : PortEvent α} {o : Status × List (PortDid α)}

lemma count_inTransit (s : Traffic α) (x : α) : s.inTransit.count x =
    s.queue.count x + s.flushing.flatten.count x + s.draining.count x + s.component.count x := by
  simp only [inTransit, listed, List.count_append]

omit [DecidableEq α] in
lemma flatMap_passed (l : List α) :
    ((l.map .passed : List (PortDid α)).flatMap fun | .passed b => [b] | _ => []) = l ∧
    ((l.map .passed : List (PortDid α)).flatMap fun | .passed b => [b] | .flushed l => l | _ => []) = l ∧
    ((l.map .passed : List (PortDid α)).flatMap fun | .accepted b => [b] | _ => []) = [] ∧
    ((l.map .passed : List (PortDid α)).flatMap fun | .returned b => [b] | _ => []) = [] := by
  induction l with
  | nil => exact ⟨rfl, rfl, rfl, rfl⟩
  | cons b l ih =>
    obtain ⟨h₁, h₂, h₃, h₄⟩ := ih
    exact ⟨congrArg (b :: ·) h₁, congrArg (b :: ·) h₂, h₃, h₄⟩

/-- Only a send accepts anything. -/
lemma accepted_of_step (h : s.step e = .ok (o, s')) :
    accepted o = [] ∨ ∃ b answer relink, e = .send b answer relink ∧ accepted o = [b] := by
  obtain ⟨status, did⟩ := o
  cases does_of_step h with
  | waits b answer relink hon hpaused => exact .inr ⟨b, answer, relink, rfl, rfl⟩
  | passes b relink hon hpaused => exact .inr ⟨b, .success, relink, rfl, rfl⟩
  | resumes answer relink hon => exact .inl (flatMap_passed _).2.2.1
  | _ => exact .inl rfl

/-- What was in transit, and what is accepted, is what is returned and what is in transit then. -/
theorem conserved_step (h : s.step e = .ok (o, s')) :
    (s.inTransit ++ accepted o).Perm (returned o ++ s'.inTransit) := by
  obtain ⟨status, did⟩ := o
  refine List.perm_iff_count.2 fun x => ?_
  rw [List.count_append, List.count_append, count_inTransit, count_inTransit]
  cases does_of_step h with
  | waits b answer relink hon hpaused =>
    simp [accepted, returned, draining, List.count_append]
    omega
  | passes b relink hon hpaused =>
    simp [accepted, returned, draining, List.count_append]
    omega
  | givesBack b hb =>
    have hperm := (List.perm_cons_erase hb).count_eq x
    rw [List.count_cons] at hperm
    simp only [accepted, returned, draining, List.flatMap_cons, List.flatMap_nil, List.append_nil,
      List.count_singleton, List.count_nil]
    omega
  | resumes answer relink hon =>
    have hcount := congrArg (List.count x) (taken_append_untaken answer s.queue)
    rw [List.count_append] at hcount
    simp only [accepted, returned, (flatMap_passed _).2.2.1, (flatMap_passed _).2.2.2, draining,
      List.count_append, List.count_nil]
    omega
  | flushes hon =>
    simp [accepted, returned, draining, List.count_append]
    omega
  | flushesNext i b rest hi =>
    have hcount := (Crew.flatMap_set hi rest id).count_eq x
    simp only [List.flatMap_id, id, List.count_append, List.count_cons] at hcount
    simp only [accepted, returned, draining, List.flatMap_cons, List.flatMap_nil, List.append_nil,
      List.count_singleton, List.count_nil]
    omega
  | stops hon hno => simp [accepted, returned, draining, hno]
  | drains hask =>
    simp [accepted, returned, draining, hask]
    omega
  | restarts answer hanswer hask => simp [accepted, returned, draining, hask]
  | drainsNext b rest hrest =>
    simp [accepted, returned, draining, hrest, List.count_cons]
    omega
  | ends hrest hnone => simp [accepted, returned, draining, hrest]
  | _ => simp [accepted, returned, draining]

end Conserved

/-! ### In which order -/

/-- In a port that is disabled nothing waits. -/
structure Settled (s : Traffic α) : Prop where
  off : s.isEnabled = false → s.disabling ≠ .asking → s.queue = []
  disabling : s.disabling ≠ .no → s.isEnabled = false

/-- Headers wait only while the port is paused or is being disabled. -/
structure Orderly (s : Traffic α) : Prop extends Settled s where
  on : s.isEnabled = true → s.isPaused = false → s.queue = []

/-- If the component refuses to be disabled, the port has not been resumed while it was asked. -/
def Steady (s : Traffic α) : PortEvent α → Prop
  | .disabled answer => answer = .success ∨ s.isPaused = true ∨ s.queue = []
  | _ => True

section Ordered

variable {s s' : Traffic α} {e : PortEvent α} {o : Status × List (PortDid α)}

omit [DecidableEq α] in
lemma settled_create : Settled (create : Traffic α) := ⟨fun _ _ => rfl, fun h => absurd rfl h⟩

theorem settled_step (h : Settled s) (hs : s.step e = .ok (o, s')) : Settled s' := by
  obtain ⟨status, did⟩ := o
  cases does_of_step hs with
  | waits b answer relink hon hpaused => exact ⟨fun hoff => (nomatch hon.symm.trans hoff), h.disabling⟩
  | resumes answer relink hon => exact ⟨fun hoff => (nomatch hon.symm.trans hoff), h.disabling⟩
  | flushes hon => exact ⟨fun _ _ => rfl, h.disabling⟩
  | stops hon hno => exact ⟨fun _ hask => absurd rfl hask, fun _ => rfl⟩
  | drains hask => exact ⟨fun _ _ => rfl, fun _ => h.disabling (by simp [hask])⟩
  | restarts answer hanswer hask => exact ⟨fun hoff => (nomatch hoff), fun hne => absurd rfl hne⟩
  | drainsNext b rest hrest =>
    exact ⟨fun hoff _ => h.off hoff (by simp [hrest]), fun _ => h.disabling (by simp [hrest])⟩
  | ends hrest hnone => exact ⟨fun hoff _ => h.off hoff (by simp [hrest]), fun hno => absurd rfl hno⟩
  | enables hoff hno => exact ⟨fun _ _ => h.off hoff (by simp [hno]), fun hne => absurd hno hne⟩
  | _ => exact ⟨h.off, h.disabling⟩

omit [DecidableEq α] in
/-- The loop of a resuming succeeds if nothing is left. -/
lemma resumeStatus_eq_success (answer : α → Status) (l : List α) :
    resumeStatus answer l = .success ↔ untaken answer l = [] := by
  have hhead := List.head?_dropWhile_not (fun b => decide (answer b = .success)) l
  unfold resumeStatus
  rcases hun : untaken answer l with _ | ⟨b, rest⟩
  · simp
  · rw [show l.dropWhile (fun b => decide (answer b = .success)) = b :: rest from hun] at hhead
    simpa using hhead

omit [DecidableEq α] in
lemma orderly_create : Orderly (create : Traffic α) := ⟨settled_create, fun _ _ => rfl⟩

theorem orderly_step (h : Orderly s) (hsteady : Steady s e) (hs : s.step e = .ok (o, s')) :
    Orderly s' := by
  refine ⟨settled_step h.toSettled hs, ?_⟩
  obtain ⟨status, did⟩ := o
  cases does_of_step hs with
  | waits b answer relink hon hpaused => exact fun _ hno => (nomatch hpaused.symm.trans hno)
  | pauses => exact fun _ hno => (nomatch hno)
  | resumes answer relink hon =>
    -- it is unpaused if all went through, or it was not paused and there was nothing
    intro _ hno
    by_cases hall : resumeStatus answer s.queue = .success
    · exact (resumeStatus_eq_success answer s.queue).1 hall
    · simp only [if_neg hall] at hno
      rw [h.on hon hno]
      rfl
  | unpauses answer relink hoff => exact fun hon => (nomatch hoff.symm.trans hon)
  | flushes hon => exact fun _ _ => rfl
  | stops hon hno => exact fun hon' => (nomatch hon')
  | drains hask => exact fun _ _ => rfl
  | restarts answer hanswer hask =>
    intro _ hno
    rcases hsteady with hsuccess | hpaused | hq
    · exact absurd hsuccess hanswer
    · cases hpaused.symm.trans hno
    · exact hq
  | enables hoff hno => exact fun _ _ => h.off hoff (by simp [hno])
  | _ => exact h.on

/-- What was queued, and then what is accepted, is what goes on and then what is queued. -/
theorem queue_step (h : Orderly s) (hs : s.step e = .ok (o, s')) :
    s.queue ++ accepted o = gone o ++ s'.queue := by
  obtain ⟨status, did⟩ := o
  cases does_of_step hs with
  | waits b answer relink hon hpaused => rfl
  | passes b relink hon hpaused =>
    simp [h.on hon hpaused, accepted, gone]
  | resumes answer relink hon =>
    simp only [accepted, gone, (flatMap_passed _).2.1, (flatMap_passed _).2.2.1, List.append_nil]
    exact (taken_append_untaken answer s.queue).symm
  | flushes hon => simp [accepted, gone]
  | drains hask => simp [accepted, gone]
  | _ => exact List.append_nil _

end Ordered

section Run

variable {s : Traffic α} {es : List (PortEvent α)} {os : List (Status × List (PortDid α))}

theorem conserved_run (h : run step create es = .ok (os, s)) :
    (os.flatMap accepted).Perm (os.flatMap returned ++ s.inTransit) := by
  have hperm : (create.inTransit ++ os.flatMap accepted).Perm (os.flatMap returned ++ s.inTransit) :=
    perm_run (fun _ _ _ _ hs => conserved_step hs) h
  exact hperm

/-- **Nothing is lost in a port.** After every run each header that was accepted has been given back or
is in transit, once for each time it was accepted; and wherever a disabling has come to its end, all that
were accepted before had been given back. -/
theorem traffic_conserved (h : run step create es = .ok (os, s)) :
    (os.flatMap accepted).Perm (os.flatMap returned ++ s.inTransit) ∧
    ∀ es₁ es₂, es = es₁ ++ .disableEnd :: es₂ → ∃ os₁ s₁, run step create es₁ = .ok (os₁, s₁) ∧
      (os₁.flatMap accepted).Perm (os₁.flatMap returned) := by
  refine ⟨conserved_run h, ?_⟩
  rintro es₁ es₂ rfl
  obtain ⟨os₁, s₁, os₂, h₁, h₂, -⟩ := run_append_eq_ok.1 h
  obtain ⟨o, s₂, os₃, hend, -, -⟩ := run_cons_eq_ok.1 h₂
  refine ⟨os₁, s₁, h₁, ?_⟩
  have hperm := conserved_run h₁
  obtain ⟨status, did⟩ := o
  cases does_of_step hend with
  | refuses _ hne => exact absurd rfl hne
  | ends hrest hnone => rwa [hnone, List.append_nil] at hperm

/-- A header is sent to a paused port that is disabled then. -/
theorem traffic_conserved_disabled : ∃ os s,
    run step create [.enable .success, .pause, .send 1 .success id, .disable, .disabled .success,
      .drainNext, .disableEnd] = .ok (os, s) ∧
    (os.flatMap accepted).Perm (os.flatMap returned ++ s.inTransit) := by
  obtain ⟨os, s, h⟩ : ∃ os s, run step create [.enable .success, .pause, .send 1 .success id, .disable,
      .disabled .success, .drainNext, .disableEnd] = .ok (os, s) := ⟨_, _, rfl⟩
  exact ⟨os, s, h, (traffic_conserved h).1⟩

/-- **Nothing is overtaken in a port.** The headers go on, to the component or back from a flush, in the
order in which they were accepted, whenever the port is paused and resumed and whichever sends fail; but
a resuming must not come while a component refuses to be disabled. -/
theorem traffic_inOrder (hsteady : Along step Steady create es) (h : run step create es = .ok (os, s)) :
    os.flatMap accepted = os.flatMap gone ++ s.queue := by
  have hpipe : create.queue ++ os.flatMap accepted = os.flatMap gone ++ s.queue :=
    pipeline_run_along (fun _ _ _ _ => orderly_step) (fun _ _ _ _ => queue_step) orderly_create hsteady h
  exact hpipe

/-- The second of three headers is refused by the resuming. -/
theorem traffic_inOrder_refused : ∃ os s,
    run step create [.enable .success, .pause, .send 1 .success id, .send 2 .success id,
      .send 3 .success id, .resume (fun b => if b = 2 then .enomem else .success) (fun _ => id)] =
        .ok (os, s) ∧
    s.queue = [2, 3] ∧ os.flatMap accepted = os.flatMap gone ++ s.queue := by
  have hsteady : Along step Steady create [.enable .success, .pause, .send 1 .success id,
      .send 2 .success id, .send 3 .success id,
      .resume (fun b => if b = 2 then .enomem else .success) (fun _ => id)] := by
    refine along_cons_ok rfl trivial (along_cons_ok rfl trivial (along_cons_ok rfl trivial ?_))
    exact along_cons_ok rfl trivial (along_cons_ok rfl trivial (along_cons_ok rfl trivial trivial))
  obtain ⟨os, s, h, hq⟩ : ∃ os s, run step create [.enable .success, .pause, .send 1 .success id,
      .send 2 .success id, .send 3 .success id,
      .resume (fun b => if b = 2 then .enomem else .success) (fun _ => id)] = .ok (os, s) ∧
      s.queue = [2, 3] := ⟨_, _, rfl, rfl⟩
  exact ⟨os, s, h, hq, traffic_inOrder hsteady h⟩

end Run

end Traffic

end RcControl.Mmal
