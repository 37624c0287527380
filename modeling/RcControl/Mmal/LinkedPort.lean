import RcControl.Lib.Links
import RcControl.Mmal.Traffic

/-!
# A port as it is linked

The port of `mmal_port.c`: the waiting headers are linked through their `next`, from `queue_first` on,
and `queue_last` is the address of the link that is null; the headers in transit are counted, and a
semaphore tells the disabling that there are none. A flush detaches the whole list and walks along it
outside the lock, while the client may already send again what it has been given back.

Each run of the linked port is one of `Traffic` to the same outcomes (`linkedPort_refines`), as long as
nobody links a header that is the port's and the client sends none that is in transit: a header that is
sent is the port's until it is given back. The callback and the counting down behind it are one step.
-/

namespace RcControl.Mmal

open Lib Lib.Run Lib.Links

/-- The part of `MMAL_PORT_T` and its `priv->core` that the headers pass. -/
structure LinkedPort (α : Type) where
  isEnabled : Bool
  isPaused : Bool
  queueFirst : Option α
  /-- The address of a pointer: `none` is `&queue_first`, and `some b` is `&b->next`. -/
  queueLast : Option α
  transitBufferHeaders : ℤ
  /-- The count of the semaphore. -/
  transitSema : ℕ
  /-- What the component has taken and not given back. -/
  component : List α
  /-- The local variable `buffer` of each flush. -/
  flushing : List (Option α)
  /-- The local variable `buffer` of the disabling. -/
  disabling : Disabling (Option α)

namespace LinkedPort

variable {α : Type}

/-- `mmal_port_alloc`, where there is memory for it. -/
def create : LinkedPort α where
  isEnabled := false
  isPaused := false
  queueFirst := none
  queueLast := none
  transitBufferHeaders := 0
  transitSema := 1
  component := []
  flushing := []
  disabling := .no

/-- `IN_TRANSIT_INCREMENT`. -/
def increment (p : LinkedPort α) : Except PortFault (LinkedPort α) :=
  if p.transitBufferHeaders = 0 then
    match p.transitSema with
    | 0 => .error .impossible
    | n + 1 => .ok { p with transitBufferHeaders := p.transitBufferHeaders + 1, transitSema := n }
  else .ok { p with transitBufferHeaders := p.transitBufferHeaders + 1 }

/-- `IN_TRANSIT_DECREMENT`. -/
def decrement (p : LinkedPort α) : LinkedPort α :=
  if p.transitBufferHeaders - 1 = 0 then
    { p with transitBufferHeaders := p.transitBufferHeaders - 1, transitSema := p.transitSema + 1 }
  else { p with transitBufferHeaders := p.transitBufferHeaders - 1 }

/-- The loop of `mmal_port_pause`: the status, what has been sent, the links, and `buffer` at its end. -/
def resumeLoop [DecidableEq α] (answer : α → Status) (relink : α → (α → Option α) → α → Option α) :
    ℕ → (α → Option α) → Option α → Except PortFault (Status × List α × (α → Option α) × Option α)
  | _, next, none => .ok (.success, [], next, none)
  | 0, _, some _ => .error .endless
  | fuel + 1, next, some buffer =>
    let rest := next buffer
    if answer buffer = .success then
      match resumeLoop answer relink fuel (relink buffer next) rest with
      | .error f => .error f
      | .ok (status, sent, next, last) => .ok (status, buffer :: sent, next, last)
    else .ok (answer buffer, [], Function.update (relink buffer next) buffer rest, some buffer)

section Step

variable [DecidableEq α]

/-- The buffer is put at the end of the port's own queue. -/
def enqueue (next : α → Option α) (p : LinkedPort α) (buffer : α) : (α → Option α) × LinkedPort α :=
  let next := Function.update next buffer none
  match p.queueLast with
  | none => (next, { p with queueFirst := some buffer, queueLast := some buffer })
  | some x => (Function.update next x (some buffer), { p with queueLast := some buffer })

/-- What a step leaves: its outcome, the links and the port. -/
abbrev Outcome (α : Type) := Except PortFault ((Status × List (PortDid α)) × (α → Option α) × LinkedPort α)

def send (next : α → Option α) (p : LinkedPort α) (b : α) (answer : Status)
    (relink : (α → Option α) → α → Option α) : Outcome α :=
  if !p.isEnabled then .ok ((.einval, []), next, p)
  else
    match p.increment with
    | .error f => .error f
    | .ok p =>
      if p.isPaused then .ok ((.success, [.accepted b]), p.enqueue next b)
      else if answer = .success then
        .ok ((.success, [.accepted b, .passed b]), relink next, { p with component := p.component ++ [b] })
      else .ok ((answer, []), relink next, p.decrement)

def resume (next : α → Option α) (p : LinkedPort α) (answer : α → Status)
    (relink : α → (α → Option α) → α → Option α) : Outcome α :=
  if p.isEnabled then
    match resumeLoop answer relink p.transitBufferHeaders.toNat next p.queueFirst with
    | .error f => .error f
    | .ok (status, sent, next, last) =>
      let p := { p with component := p.component ++ sent }
      if status = .success then
        .ok ((status, sent.map .passed), next,
          { p with queueFirst := none, queueLast := none, isPaused := false })
      else .ok ((status, sent.map .passed), next, { p with queueFirst := last })
  else .ok ((.success, []), next, { p with isPaused := false })

/-- The headers that are linked from here on. -/
def walk (next : α → Option α) : ℕ → Option α → List α
  | fuel + 1, some b => b :: walk next fuel (next b)
  | _, _ => []

/-- What is flushed is told by the links, for those who look at a run. -/
def flushed (next : α → Option α) (p : LinkedPort α) : List α :=
  walk next p.transitBufferHeaders.toNat p.queueFirst

def flush (next : α → Option α) (p : LinkedPort α) (answer : Status) : Outcome α :=
  if !p.isEnabled then .ok ((.success, []), next, p)
  else if answer = .success then
    .ok ((.success, [.flushed (p.flushed next)]), next,
      { p with queueFirst := none, queueLast := none, flushing := p.flushing ++ [p.queueFirst] })
  else .ok ((answer, []), next, p)

/-- The callback, and what follows it in `mmal_port_buffer_header_callback`. -/
def callback (next : α → Option α) (p : LinkedPort α) (b : α) : Outcome α :=
  .ok ((.success, [.returned b]), next, p.decrement)

def step : (α → Option α) × LinkedPort α → PortEvent α → Outcome α
  | (next, p), .send b answer relink => p.send next b answer relink
  | (next, p), .giveBack b =>
    if b ∈ p.component then callback next { p with component := p.component.erase b } b
    else .error .impossible
  | (next, p), .pause => .ok ((.success, []), next, { p with isPaused := true })
  | (next, p), .resume answer relink => p.resume next answer relink
  | (next, p), .flush answer => p.flush next answer
  | (next, p), .flushNext i =>
    match p.flushing[i]? with
    | some (some b) => callback next { p with flushing := p.flushing.set i (next b) } b
    | _ => .error .impossible
  | (next, p), .disable =>
    match p.disabling with
    | .no =>
      if p.isEnabled then .ok ((.success, []), next, { p with isEnabled := false, disabling := .asking })
      else .ok ((.einval, []), next, p)
    | _ => .error .impossible
  | (next, p), .disabled answer =>
    match p.disabling with
    | .asking =>
      if answer = .success then
        .ok ((.success, [.flushed (p.flushed next)]), next, { p with disabling := .draining p.queueFirst })
      else .ok ((answer, []), next, { p with isEnabled := true, disabling := .no })
    | _ => .error .impossible
  | (next, p), .drainNext =>
    match p.disabling with
    | .draining (some b) => callback next { p with disabling := .draining (next b) } b
    | _ => .error .impossible
  | (next, p), .disableEnd =>
    match p.disabling, p.transitSema with
    | .draining none, _ + 1 =>
      .ok ((.success, [.ended]), next, { p with queueFirst := none, queueLast := none, disabling := .no })
    | _, _ => .error .impossible
  | (next, p), .enable answer =>
    match p.disabling with
    | .no =>
      if p.isEnabled then .ok ((.einval, []), next, p)
      else if answer = .success then .ok ((.success, []), next, { p with isEnabled := true })
      else .ok ((answer, []), next, p)
    | _ => .error .impossible
  | (next, p), .relink relink => .ok ((.success, []), relink next, p)

end Step

/-! ### The port and its traffic -/

/-- How far a disabling is, in links and in lists. -/
inductive Matches (next : α → Option α) : Disabling (Option α) → Disabling (List α) → Prop
  | no : Matches next .no .no
  | asking : Matches next .asking .asking
  | draining {first : Option α} {rest : List α} (hlinked : Linked next first rest) :
      Matches next (.draining first) (.draining rest)

/-- The number of headers in transit, and whether the semaphore says that there are none. -/
structure Counts (p : LinkedPort α) (n : ℕ) : Prop where
  headers : p.transitBufferHeaders = n
  sema : p.transitSema = if n = 0 then 1 else 0

/-- The linked port has these lists. -/
structure Looks (next : α → Option α) (p : LinkedPort α) (s : Traffic α) : Prop where
  isEnabled : p.isEnabled = s.isEnabled
  isPaused : p.isPaused = s.isPaused
  component : p.component = s.component
  /-- While the headers are given back, the pointers to the queue are out of date. -/
  queue : (∀ rest, s.disabling ≠ .draining rest) →
    Linked next p.queueFirst s.queue ∧ p.queueLast = s.queue.getLast?
  flushing : List.Forall₂ (Linked next) p.flushing s.flushing
  disabling : Matches next p.disabling s.disabling

/-- The linked port is one with this traffic. -/
structure Refines (next : α → Option α) (p : LinkedPort α) (s : Traffic α) : Prop extends
    Looks next p s where
  counts : Counts p s.inTransit.length
  nodup : s.inTransit.Nodup
  settled : s.Settled

/-- The links of these headers are not touched. -/
def Keeps (relink : (α → Option α) → α → Option α) (l : List α) : Prop :=
  ∀ next, ∀ x ∈ l, relink next x = next x

/-- What is asked of those who use a port: a header in transit is not sent again, and not linked. -/
def Proper (s : Traffic α) : PortEvent α → Prop
  | .send b _ relink => b ∉ s.inTransit ∧ Keeps relink s.listed
  | .resume _ relink =>
    ∀ l₁ b l₂, s.queue = l₁ ++ b :: l₂ → Keeps (relink b) (l₂ ++ s.flushing.flatten ++ s.draining)
  | .relink relink => Keeps relink s.listed
  | _ => True

section Counts

variable {p : LinkedPort α} {n : ℕ}

lemma increment_eq (h : Counts p n) :
    p.increment = .ok { p with transitBufferHeaders := (n + 1 : ℕ), transitSema := 0 } := by
  unfold increment
  rcases n with _ | n
  · have hsema : p.transitSema = 1 := h.sema
    have hheaders : p.transitBufferHeaders = 0 := h.headers
    simp only [hheaders, hsema, if_true]
    rfl
  · have hsema : p.transitSema = 0 := h.sema
    have hheaders : p.transitBufferHeaders = (n + 1 : ℕ) := h.headers
    have hne : p.transitBufferHeaders ≠ 0 := by omega
    rw [if_neg hne, hheaders, hsema.symm]
    rfl

lemma decrement_eq (h : Counts p (n + 1)) :
    p.decrement = { p with transitBufferHeaders := n, transitSema := if n = 0 then 1 else 0 } := by
  have hsema : p.transitSema = 0 := h.sema
  have hheaders : p.transitBufferHeaders - 1 = n := by rw [h.headers]; omega
  unfold decrement
  rw [hheaders]
  rcases n with _ | n
  · simp [hsema]
  · have hne : ((n + 1 : ℕ) : ℤ) ≠ 0 := by omega
    simp only [if_neg hne, hsema, Nat.succ_ne_zero, if_false]

end Counts

section Frame

variable {next next' : α → Option α} {p : LinkedPort α} {s : Traffic α}

/-- Only the links of the headers of the port matter. -/
lemma Looks.links (h : Looks next p s) (heq : ∀ x ∈ s.listed, next' x = next x) : Looks next' p s := by
  have hqueue : ∀ x ∈ s.queue, next' x = next x := fun x hx =>
    heq x (List.mem_append_left _ (List.mem_append_left _ hx))
  have hflushing : ∀ l ∈ s.flushing, ∀ x ∈ l, next' x = next x := fun l hl x hx =>
    heq x (List.mem_append_left _ (List.mem_append_right _ (List.mem_flatten.2 ⟨l, hl, hx⟩)))
  refine { h with queue := fun hno => ?_, flushing := ?_, disabling := ?_ }
  · obtain ⟨hlinked, hlast⟩ := h.queue hno
    exact ⟨linked_congr hqueue hlinked, hlast⟩
  · have hall := h.flushing
    generalize p.flushing = firsts at hall
    generalize s.flushing = ls at hall hflushing
    induction hall with
    | nil => exact .nil
    | cons hl hall ih =>
      refine .cons (linked_congr (hflushing _ List.mem_cons_self) hl) (ih fun l hl => ?_)
      exact hflushing l (List.mem_cons_of_mem _ hl)
  · have hmatches := h.disabling
    generalize p.disabling = dp at hmatches
    generalize hd : s.disabling = d at hmatches
    cases hmatches with
    | no => exact .no
    | asking => exact .asking
    | draining hlinked =>
      refine .draining (linked_congr (fun x hx => heq x (List.mem_append_right _ ?_)) hlinked)
      simpa only [Traffic.draining, hd] using hx

/-- A queue that is linked anew, the lists being given back left as they are. -/
lemma Looks.requeue (h : Looks next p s) (first last : Option α) (q : List α)
    (hqueue : (∀ rest, s.disabling ≠ .draining rest) → Linked next' first q ∧ last = q.getLast?)
    (heq : ∀ x ∈ s.flushing.flatten ++ s.draining, next' x = next x) :
    Looks next' { p with queueFirst := first, queueLast := last } { s with queue := q } := by
  have hlinks : Looks next' { p with queueFirst := none, queueLast := none } { s with queue := [] } :=
    Looks.links ⟨h.isEnabled, h.isPaused, h.component, fun _ => ⟨rfl, rfl⟩, h.flushing, h.disabling⟩ heq
  exact ⟨h.isEnabled, h.isPaused, h.component, hqueue, hlinks.flushing, hlinks.disabling⟩

end Frame

/-! ### One step -/

section Step

variable [DecidableEq α] {next next' : α → Option α} {p p' : LinkedPort α} {s s' : Traffic α}
  {e : PortEvent α} {o : Status × List (PortDid α)}

lemma nodup_step (hproper : Proper s e) (h : s.inTransit.Nodup) (hs : s.step e = .ok (o, s')) :
    s'.inTransit.Nodup := by
  suffices hin : (s.inTransit ++ Traffic.accepted o).Nodup from
    (List.nodup_append.1 ((Traffic.conserved_step hs).nodup_iff.1 hin)).2.1
  rcases Traffic.accepted_of_step hs with hnone | ⟨b, answer, relink, rfl, hone⟩
  · rwa [hnone, List.append_nil]
  · rw [hone, ← List.concat_eq_append]
    exact List.Nodup.concat hproper.1 h

lemma length_step (hs : s.step e = .ok (o, s')) : s.inTransit.length + (Traffic.accepted o).length =
    (Traffic.returned o).length + s'.inTransit.length := by
  have hlength := (Traffic.conserved_step hs).length_eq
  rwa [List.length_append, List.length_append] at hlength

/-- It is enough to look at the lists, and to count what comes and goes. -/
lemma Refines.of_step {n : ℕ} (h : Refines next p s) (hproper : Proper s e)
    (hs : s.step e = .ok (o, s')) (hlooks : Looks next' p' s') (hcounts : Counts p' n)
    (hn : s.inTransit.length + (Traffic.accepted o).length = n + (Traffic.returned o).length) :
    Refines next' p' s' := by
  have hlength : s'.inTransit.length = n := by
    have hlength := length_step hs
    omega
  exact { hlooks with
    counts := hlength ▸ hcounts
    nodup := nodup_step hproper h.nodup hs
    settled := Traffic.settled_step h.settled hs }

/-- A step by which no header comes or goes. -/
lemma Refines.of_quiet (h : Refines next p s) (hproper : Proper s e) (hs : s.step e = .ok (o, s'))
    (haccepted : Traffic.accepted o = []) (hreturned : Traffic.returned o = [])
    (hlooks : Looks next' p' s') (hheaders : p'.transitBufferHeaders = p.transitBufferHeaders)
    (hsema : p'.transitSema = p.transitSema) : Refines next' p' s' := by
  refine h.of_step hproper hs hlooks ⟨hheaders.trans h.counts.headers, hsema.trans h.counts.sema⟩ ?_
  rw [haccepted, hreturned]

/-- A step by which one header is given back. -/
lemma callback_same {b : α} (h : Refines next p s) (hproper : Proper s e)
    (hs : s.step e = .ok ((.success, [.returned b]), s')) (hlooks : Looks next p' s')
    (hheaders : p'.transitBufferHeaders = p.transitBufferHeaders)
    (hsema : p'.transitSema = p.transitSema) :
    Same (fun c s => Refines c.1 c.2 s) (callback next p' b) (s.step e) := by
  have hlength : s.inTransit.length = 1 + s'.inTransit.length := length_step hs
  have hcounts : Counts p' (s'.inTransit.length + 1) := by
    rw [Nat.add_comm, ← hlength]
    exact ⟨hheaders.trans h.counts.headers, hsema.trans h.counts.sema⟩
  rw [hs, callback, decrement_eq hcounts]
  exact .ok (h.of_step hproper hs ⟨hlooks.isEnabled, hlooks.isPaused, hlooks.component, hlooks.queue,
    hlooks.flushing, hlooks.disabling⟩ ⟨rfl, rfl⟩ (hlength.trans (Nat.add_comm ..)))

omit [DecidableEq α] in
/-- Of the headers that are being given back none is in the queue. -/
lemma ne_of_mem_queue {x y : α} (h : s.inTransit.Nodup) (hy : y ∈ s.queue)
    (hx : x ∈ s.flushing.flatten ++ s.draining) : x ≠ y := by
  simp only [Traffic.inTransit, Traffic.listed, List.append_assoc] at h
  refine ((List.nodup_append.1 h).2.2 y hy x ?_).symm
  rw [← List.append_assoc]
  exact List.mem_append_left _ hx

omit [DecidableEq α] in
lemma mem_inTransit {x : α} (hx : x ∈ s.flushing.flatten ++ s.draining) : x ∈ s.inTransit := by
  rw [Traffic.inTransit, Traffic.listed, List.append_assoc s.queue]
  exact List.mem_append_left _ (List.mem_append_right _ hx)

lemma counts_enqueue {b : α} {n : ℕ} (h : Counts p n) : Counts (p.enqueue next b).2 n := by
  unfold enqueue
  split <;> exact ⟨h.headers, h.sema⟩

/-- A header that is sent is linked behind the last one. -/
lemma looks_enqueue {b : α} (h : Looks next p s) (hb : b ∉ s.inTransit) (hnodup : s.inTransit.Nodup)
    (hon : ∀ rest, s.disabling ≠ .draining rest) :
    Looks (p.enqueue next b).1 (p.enqueue next b).2 { s with queue := s.queue ++ [b] } := by
  obtain ⟨hlinked, hlast⟩ := h.queue hon
  have hbq : b ∉ s.queue := fun hbq => hb (by simp [Traffic.inTransit, Traffic.listed, hbq])
  have hother : ∀ x ∈ s.flushing.flatten ++ s.draining, x ≠ b := fun x hx hxb =>
    hb (hxb ▸ mem_inTransit hx)
  rcases hq : s.queue.getLast? with _ | x
  · have hp : p.enqueue next b = (Function.update next b none,
        { p with queueFirst := some b, queueLast := some b }) := by
      simp only [enqueue, hlast, hq]
    rw [hp, List.getLast?_eq_none_iff.1 hq]
    refine h.requeue _ _ _ (fun _ => ⟨⟨rfl, Function.update_self ..⟩, rfl⟩) fun x hx => ?_
    exact Function.update_of_ne (hother x hx) ..
  · obtain ⟨l, hl⟩ := List.getLast?_eq_some_iff.1 hq
    have hx : x ∈ s.queue := by simp [hl]
    have hbx : b ≠ x := fun hbx => hbq (hbx ▸ hx)
    have hp : p.enqueue next b = (Function.update (Function.update next x (some b)) b none,
        { p with queueLast := some b }) := by
      simp only [enqueue, hlast, hq]
      rw [Function.update_comm hbx]
    rw [hl] at hlinked hbq
    rw [hp, hl]
    refine h.requeue _ _ _ (fun _ => ⟨linked_behind hlinked hbq, by simp⟩) fun y hy => ?_
    -- only the last of the queue and the new one are linked elsewhere
    calc Function.update (Function.update next x (some b)) b none y
        = Function.update next x (some b) y := Function.update_of_ne (hother y hy) ..
      _ = next y := Function.update_of_ne (ne_of_mem_queue hnodup hx hy) ..

omit [DecidableEq α] in
/-- Nothing is being given back by a disabling of a port that is enabled. -/
lemma not_draining (h : s.Settled) (hon : s.isEnabled = true) (rest : List α) :
    s.disabling ≠ .draining rest := fun hrest =>
  nomatch hon.symm.trans (h.disabling (by simp [hrest]))

theorem send_same {b : α} {answer : Status} {relink : (α → Option α) → α → Option α}
    (h : Refines next p s) (hproper : Proper s (.send b answer relink)) :
    Same (fun c s => Refines c.1 c.2 s) (p.send next b answer relink)
      (s.step (.send b answer relink)) := by
  have hs : s.step (.send b answer relink) = .ok (s.send b answer) := rfl
  have hkept := h.toLooks.links (hproper.2 next)
  rw [hs]
  rw [Traffic.send] at hs
  rw [send, Traffic.send, h.isEnabled, increment_eq h.counts]
  by_cases hoff : (!s.isEnabled) = true
  · simp only [if_pos hoff]
    exact .ok h
  have hon : s.isEnabled = true := by simpa using hoff
  simp only [if_neg hoff] at hs ⊢
  by_cases hpaused : s.isPaused = true
  · -- it waits behind the others
    simp only [if_pos hpaused, if_pos (h.isPaused.trans hpaused)] at hs ⊢
    have hlooks : Looks next { p with
        transitBufferHeaders := (s.inTransit.length + 1 : ℕ), transitSema := 0 } s :=
      { h.toLooks with }
    have hcounts : Counts (enqueue next { p with
        transitBufferHeaders := (s.inTransit.length + 1 : ℕ), transitSema := 0 } b).2
        (s.inTransit.length + 1) := counts_enqueue ⟨rfl, rfl⟩
    exact .ok (h.of_step hproper hs
      (looks_enqueue hlooks hproper.1 h.nodup (not_draining h.settled hon)) hcounts rfl)
  have hpaused' : ¬ p.isPaused = true := h.isPaused ▸ hpaused
  simp only [if_neg hpaused, if_neg hpaused'] at hs ⊢
  by_cases hanswer : answer = .success
  · simp only [if_pos hanswer] at hs ⊢
    exact .ok (h.of_step hproper hs { hkept with component := congrArg (· ++ [b]) h.component }
      ⟨rfl, rfl⟩ rfl)
  · -- it has been counted, and is not any more
    simp only [if_neg hanswer] at hs ⊢
    rw [decrement_eq ⟨rfl, rfl⟩]
    exact .ok (h.of_step hproper hs { hkept with } ⟨rfl, rfl⟩ rfl)

/-- The loop of a resuming sends what is taken, and leaves the rest linked. -/
theorem resumeLoop_eq (answer : α → Status) {relink : α → (α → Option α) → α → Option α}
    {first : Option α} {l others : List α} (fuel : ℕ) (hfuel : l.length ≤ fuel)
    (hlinked : Linked next first l) (hnodup : (l ++ others).Nodup)
    (hkeeps : ∀ l₁ b l₂, l = l₁ ++ b :: l₂ → Keeps (relink b) (l₂ ++ others)) :
    ∃ next', resumeLoop answer relink fuel next first =
        .ok (resumeStatus answer l, taken answer l, next', (untaken answer l).head?) ∧
      Linked next' (untaken answer l).head? (untaken answer l) ∧ ∀ x ∈ others, next' x = next x := by
  induction l generalizing next first fuel with
  | nil =>
    obtain rfl : first = none := hlinked
    refine ⟨next, ?_, rfl, fun _ _ => rfl⟩
    cases fuel <;> rfl
  | cons b l ih =>
    obtain ⟨rfl, hlinked⟩ := hlinked
    obtain ⟨fuel, rfl⟩ : ∃ n, fuel = n + 1 := ⟨fuel - 1, by simp only [List.length_cons] at hfuel; omega⟩
    obtain ⟨hb, hnodup⟩ := List.nodup_cons.1 hnodup
    have hkept : ∀ x ∈ l ++ others, relink b next x = next x := hkeeps [] b l rfl next
    by_cases hanswer : answer b = .success
    · have hrest : Linked (relink b next) (next b) l :=
        linked_congr (fun x hx => hkept x (List.mem_append_left _ hx)) hlinked
      obtain ⟨next', hloop, hleft, hothers⟩ := ih fuel (Nat.le_of_succ_le_succ hfuel) hrest hnodup
        fun l₁ c l₂ hl => hkeeps (b :: l₁) c l₂ (by rw [hl, List.cons_append])
      have htaken : taken answer (b :: l) = b :: taken answer l := by simp [taken, hanswer]
      have huntaken : untaken answer (b :: l) = untaken answer l := by simp [untaken, hanswer]
      have hstatus : resumeStatus answer (b :: l) = resumeStatus answer l := by
        simp only [resumeStatus, huntaken]
      refine ⟨next', ?_, huntaken ▸ hleft, fun x hx => ?_⟩
      · simp only [resumeLoop, if_pos hanswer, hloop, htaken, huntaken, hstatus]
      · rw [hothers x hx, hkept x (List.mem_append_right _ hx)]
    · -- the component may have linked it elsewhere, but it is linked back
      have htaken : taken answer (b :: l) = [] := by simp [taken, hanswer]
      have huntaken : untaken answer (b :: l) = b :: l := by simp [untaken, hanswer]
      have hstatus : resumeStatus answer (b :: l) = answer b := by simp only [resumeStatus, huntaken]
      have hsame : ∀ x ∈ l ++ others, Function.update (relink b next) b (next b) x = next x := by
        intro x hx
        have hxb : x ≠ b := fun hxb => hb (hxb ▸ hx)
        rw [Function.update_of_ne hxb, hkept x hx]
      refine ⟨Function.update (relink b next) b (next b), ?_, ?_, fun x hx => ?_⟩
      · simp only [resumeLoop, if_neg hanswer, htaken, huntaken, hstatus, List.head?_cons]
      · rw [huntaken]
        refine ⟨rfl, ?_⟩
        rw [Function.update_self]
        exact linked_congr (fun x hx => hsame x (List.mem_append_left _ hx)) hlinked
      · exact hsame x (List.mem_append_right _ hx)

omit [DecidableEq α] in
lemma length_queue_le (h : Refines next p s) : s.queue.length ≤ p.transitBufferHeaders.toNat := by
  rw [h.counts.headers, Traffic.inTransit, Traffic.listed]
  simp only [List.length_append, Int.toNat_natCast]
  omega

omit [DecidableEq α] in
lemma getLast?_untaken {answer : α → Status} {l : List α} (h : untaken answer l ≠ []) :
    (untaken answer l).getLast? = l.getLast? := by
  conv_rhs => rw [← taken_append_untaken answer l]
  rw [List.getLast?_append_of_ne_nil _ h]

theorem resume_same {answer : α → Status} {relink : α → (α → Option α) → α → Option α}
    (h : Refines next p s) (hproper : Proper s (.resume answer relink)) :
    Same (fun c s => Refines c.1 c.2 s) (p.resume next answer relink)
      (s.step (.resume answer relink)) := by
  have hs : s.step (.resume answer relink) = .ok (s.resume answer) := rfl
  rw [hs]
  rw [Traffic.resume] at hs
  rw [resume, Traffic.resume]
  by_cases hon : s.isEnabled = true
  · simp only [if_pos hon, if_pos (h.isEnabled.trans hon)] at hs ⊢
    obtain ⟨hlinked, hlast⟩ := h.queue (not_draining h.settled hon)
    have hnodup : (s.queue ++ (s.flushing.flatten ++ s.draining)).Nodup := by
      rw [← List.append_assoc]
      exact (List.nodup_append.1 h.nodup).1
    obtain ⟨next', hloop, hleft, hothers⟩ := resumeLoop_eq answer _ (length_queue_le h) hlinked hnodup
      fun l₁ b l₂ hl => by
        rw [← List.append_assoc]
        exact hproper l₁ b l₂ hl
    have hsent : p.component ++ taken answer s.queue = s.component ++ taken answer s.queue := by
      rw [h.component]
    have haccepted := (Traffic.flatMap_passed (taken answer s.queue)).2.2.1
    have hreturned := (Traffic.flatMap_passed (taken answer s.queue)).2.2.2
    simp only [hloop]
    by_cases hall : resumeStatus answer s.queue = .success
    · have hnone : untaken answer s.queue = [] := (Traffic.resumeStatus_eq_success answer s.queue).1 hall
      simp only [if_pos hall] at hs ⊢
      have hlooks := h.toLooks.requeue none none (untaken answer s.queue)
        (fun _ => by simp [hnone]) hothers
      exact .ok (h.of_quiet hproper hs haccepted hreturned
        { hlooks with isPaused := rfl, component := hsent } rfl rfl)
    · have hsome : untaken answer s.queue ≠ [] := fun hnone =>
        hall ((Traffic.resumeStatus_eq_success answer s.queue).2 hnone)
      simp only [if_neg hall] at hs ⊢
      have hlooks := h.toLooks.requeue _ p.queueLast (untaken answer s.queue)
        (fun _ => ⟨hleft, hlast.trans (getLast?_untaken hsome).symm⟩) hothers
      exact .ok (h.of_quiet hproper hs haccepted hreturned { hlooks with component := hsent } rfl rfl)
  · have hoff : ¬ p.isEnabled = true := h.isEnabled ▸ hon
    simp only [if_neg hon, if_neg hoff] at hs ⊢
    exact .ok (h.of_quiet hproper hs rfl rfl { h.toLooks with isPaused := rfl } rfl rfl)

omit [DecidableEq α] in
lemma walk_eq {first : Option α} {l : List α} (fuel : ℕ) (hfuel : l.length ≤ fuel)
    (hlinked : Linked next first l) : walk next fuel first = l := by
  induction l generalizing first fuel with
  | nil =>
    obtain rfl : first = none := hlinked
    cases fuel <;> rfl
  | cons b l ih =>
    obtain ⟨rfl, hlinked⟩ := hlinked
    obtain ⟨fuel, rfl⟩ : ∃ n, fuel = n + 1 := ⟨fuel - 1, by simp only [List.length_cons] at hfuel; omega⟩
    exact congrArg (b :: ·) (ih fuel (Nat.le_of_succ_le_succ hfuel) hlinked)

omit [DecidableEq α] in
/-- What is said to be flushed is the queue. -/
lemma flushed_eq (h : Refines next p s) (hon : ∀ rest, s.disabling ≠ .draining rest) :
    p.flushed next = s.queue :=
  walk_eq _ (length_queue_le h) (h.queue hon).1

theorem flush_same {answer : Status} (h : Refines next p s) :
    Same (fun c s => Refines c.1 c.2 s) (p.flush next answer) (s.step (.flush answer)) := by
  have hs : s.step (.flush answer) = .ok (s.flush answer) := rfl
  rw [hs]
  rw [Traffic.flush] at hs
  rw [flush, Traffic.flush]
  by_cases hoff : (!s.isEnabled) = true
  · simp only [if_pos hoff, if_pos (h.isEnabled ▸ hoff : (!p.isEnabled) = true)]
    exact .ok h
  have hon : s.isEnabled = true := by simpa using hoff
  have hoff' : ¬ (!p.isEnabled) = true := h.isEnabled ▸ hoff
  simp only [if_neg hoff, if_neg hoff'] at hs ⊢
  by_cases hanswer : answer = .success
  · simp only [if_pos hanswer] at hs ⊢
    have hdrain := not_draining h.settled hon
    have hlooks := h.toLooks.requeue none none [] (fun _ => ⟨rfl, rfl⟩) fun _ _ => rfl
    rw [flushed_eq h hdrain]
    exact .ok (h.of_quiet (e := .flush answer) trivial hs rfl rfl
      { hlooks with flushing := List.rel_append h.flushing (.cons (h.queue hdrain).1 .nil) } rfl rfl)
  · simp only [if_neg hanswer]
    exact .ok h

theorem giveBack_same {b : α} (h : Refines next p s) :
    Same (fun c s => Refines c.1 c.2 s) (step (next, p) (.giveBack b)) (s.step (.giveBack b)) := by
  by_cases hb : b ∈ s.component
  · have hs : s.step (.giveBack b) = .ok ((.success, [.returned b]),
        { s with component := s.component.erase b }) := if_pos hb
    simp only [step, if_pos (h.component ▸ hb : b ∈ p.component)]
    exact callback_same h trivial hs
      { h.toLooks with component := congrArg (List.erase · b) h.component } rfl rfl
  · simp only [step, Traffic.step, if_neg hb, if_neg (h.component ▸ hb : b ∉ p.component)]
    exact .error _

theorem flushNext_same {i : ℕ} (h : Refines next p s) :
    Same (fun c s => Refines c.1 c.2 s) (step (next, p) (.flushNext i)) (s.step (.flushNext i)) := by
  have hrel := Crew.rel_getElem? h.flushing i
  rcases hi : p.flushing[i]? with _ | first <;> rcases hi' : s.flushing[i]? with _ | l <;>
    rw [hi, hi'] at hrel
  · simp only [step, Traffic.step, hi, hi']
    exact .error _
  · cases hrel
  · cases hrel
  obtain ⟨hlinked⟩ := hrel
  cases l with
  | nil =>
    obtain rfl : first = none := hlinked
    simp only [step, Traffic.step, hi, hi']
    exact .error _
  | cons b rest =>
    obtain ⟨rfl, hrest⟩ := hlinked
    have hs : s.step (.flushNext i) = .ok ((.success, [.returned b]),
        { s with flushing := s.flushing.set i rest }) := by simp only [Traffic.step, hi']
    simp only [step, hi]
    exact callback_same h trivial hs
      { h.toLooks with flushing := Crew.forall₂_set h.flushing i hrest } rfl rfl

omit [DecidableEq α] in
/-- A disabling is as far in links as it is in lists. -/
lemma Looks.disabling_cases (h : Looks next p s) : (p.disabling = .no ∧ s.disabling = .no) ∨
    (p.disabling = .asking ∧ s.disabling = .asking) ∨
    ∃ first rest, p.disabling = .draining first ∧ s.disabling = .draining rest ∧
      Linked next first rest := by
  have hmatches := h.disabling
  generalize p.disabling = dp at hmatches ⊢
  generalize s.disabling = d at hmatches ⊢
  cases hmatches with
  | no => exact .inl ⟨rfl, rfl⟩
  | asking => exact .inr (.inl ⟨rfl, rfl⟩)
  | draining hlinked => exact .inr (.inr ⟨_, _, rfl, rfl, hlinked⟩)

theorem disable_same (h : Refines next p s) :
    Same (fun c s => Refines c.1 c.2 s) (step (next, p) .disable) (s.step .disable) := by
  rcases h.disabling_cases with ⟨hp, hd⟩ | ⟨hp, hd⟩ | ⟨first, rest, hp, hd, hlinked⟩ <;>
    simp only [step, Traffic.step, hp, hd]
  · rw [Traffic.disable]
    by_cases hon : s.isEnabled = true
    · simp only [if_pos hon, if_pos (h.isEnabled.trans hon)]
      have hs : s.step .disable = .ok ((.success, []),
          { s with isEnabled := false, disabling := .asking }) := by
        simp only [Traffic.step, hd, Traffic.disable, if_pos hon]
      exact .ok (h.of_quiet (e := .disable) trivial hs rfl rfl
        { h.toLooks with
          isEnabled := rfl
          queue := fun _ => h.queue (by simp [hd])
          disabling := .asking } rfl rfl)
    · simp only [if_neg hon, if_neg (h.isEnabled ▸ hon : ¬ p.isEnabled = true)]
      exact .ok h
  · exact .error _
  · exact .error _

theorem disabled_same {answer : Status} (h : Refines next p s) :
    Same (fun c s => Refines c.1 c.2 s) (step (next, p) (.disabled answer)) (s.step (.disabled answer)) := by
  rcases h.disabling_cases with ⟨hp, hd⟩ | ⟨hp, hd⟩ | ⟨first, rest, hp, hd, hlinked⟩ <;>
    simp only [step, Traffic.step, hp, hd]
  · exact .error _
  · have hqueue := h.queue (by simp [hd])
    rw [Traffic.disabled]
    by_cases hanswer : answer = .success
    · simp only [if_pos hanswer]
      have hs : s.step (.disabled answer) = .ok ((.success, [.flushed s.queue]),
          { s with queue := [], disabling := .draining s.queue }) := by
        simp only [Traffic.step, hd, Traffic.disabled, if_pos hanswer]
      rw [flushed_eq h (by simp [hd])]
      exact .ok (h.of_quiet (e := .disabled answer) trivial hs rfl rfl
        { h.toLooks with
          queue := fun hno => absurd rfl (hno s.queue)
          disabling := .draining hqueue.1 } rfl rfl)
    · simp only [if_neg hanswer]
      have hs : s.step (.disabled answer) = .ok ((answer, []),
          { s with isEnabled := true, disabling := .no }) := by
        simp only [Traffic.step, hd, Traffic.disabled, if_neg hanswer]
      exact .ok (h.of_quiet (e := .disabled answer) trivial hs rfl rfl
        { h.toLooks with isEnabled := rfl, queue := fun _ => hqueue, disabling := .no } rfl rfl)
  · exact .error _

theorem drainNext_same (h : Refines next p s) :
    Same (fun c s => Refines c.1 c.2 s) (step (next, p) .drainNext) (s.step .drainNext) := by
  rcases h.disabling_cases with ⟨hp, hd⟩ | ⟨hp, hd⟩ | ⟨first, rest, hp, hd, hlinked⟩
  · simp only [step, Traffic.step, hp, hd]
    exact .error _
  · simp only [step, Traffic.step, hp, hd]
    exact .error _
  cases rest with
  | nil =>
    obtain rfl : first = none := hlinked
    simp only [step, Traffic.step, hp, hd]
    exact .error _
  | cons b rest =>
    obtain ⟨rfl, hrest⟩ := hlinked
    have hs : s.step .drainNext = .ok ((.success, [.returned b]),
        { s with disabling := .draining rest }) := by simp only [Traffic.step, hd]
    simp only [step, hp]
    exact callback_same h trivial hs
      { h.toLooks with
        queue := fun hno => absurd rfl (hno rest)
        disabling := .draining hrest } rfl rfl

theorem disableEnd_same (h : Refines next p s) :
    Same (fun c s => Refines c.1 c.2 s) (step (next, p) .disableEnd) (s.step .disableEnd) := by
  rcases h.disabling_cases with ⟨hp, hd⟩ | ⟨hp, hd⟩ | ⟨first, rest, hp, hd, hlinked⟩
  · simp only [step, Traffic.step, hp, hd]
    exact .error _
  · simp only [step, Traffic.step, hp, hd]
    exact .error _
  cases rest with
  | nil =>
    obtain rfl : first = none := hlinked
    have hsema := h.counts.sema
    by_cases hnone : s.inTransit = []
    · rw [hnone, List.length_nil, if_pos rfl] at hsema
      have hs : s.step .disableEnd = .ok ((.success, [.ended]), { s with disabling := .no }) := by
        simp only [Traffic.step, hd, hnone]
      have hqueue : s.queue = [] :=
        h.settled.off (h.settled.disabling (by simp [hd])) (by simp [hd])
      rw [hs]
      simp only [step, hp, hsema]
      exact .ok (h.of_quiet (e := .disableEnd) trivial hs rfl rfl
        { h.toLooks with queue := fun _ => by simp [hqueue], disabling := .no } rfl hsema.symm)
    · -- the semaphore is taken as long as one is in transit
      have hlength : s.inTransit.length ≠ 0 := fun hlength => hnone (List.length_eq_zero_iff.1 hlength)
      rw [if_neg hlength] at hsema
      obtain ⟨b, rest, hsome⟩ := List.exists_cons_of_ne_nil hnone
      simp only [step, Traffic.step, hp, hd, hsema, hsome]
      exact .error _
  | cons b rest =>
    obtain ⟨rfl, -⟩ := hlinked
    simp only [step, Traffic.step, hp, hd]
    exact .error _

theorem enable_same {answer : Status} (h : Refines next p s) :
    Same (fun c s => Refines c.1 c.2 s) (step (next, p) (.enable answer)) (s.step (.enable answer)) := by
  rcases h.disabling_cases with ⟨hp, hd⟩ | ⟨hp, hd⟩ | ⟨first, rest, hp, hd, hlinked⟩ <;>
    simp only [step, Traffic.step, hp, hd]
  · rw [Traffic.enable]
    by_cases hon : s.isEnabled = true
    · simp only [if_pos hon, if_pos (h.isEnabled.trans hon)]
      exact .ok h
    have hoff : ¬ p.isEnabled = true := h.isEnabled ▸ hon
    simp only [if_neg hon, if_neg hoff]
    by_cases hanswer : answer = .success
    · simp only [if_pos hanswer]
      have hs : s.step (.enable answer) = .ok ((.success, []), { s with isEnabled := true }) := by
        simp only [Traffic.step, hd, Traffic.enable, if_neg hon, if_pos hanswer]
      exact .ok (h.of_quiet (e := .enable answer) trivial hs rfl rfl
        { h.toLooks with
          isEnabled := rfl
          queue := fun _ => h.queue (by simp [hd])
          disabling := by simp only [hd]; exact .no } rfl rfl)
    · simp only [if_neg hanswer]
      exact .ok h
  · exact .error _
  · exact .error _

/-- Each proper step of the linked port has the outcome of the same step of its traffic. -/
theorem step_same (h : Refines next p s) (hproper : Proper s e) :
    Same (fun c s => Refines c.1 c.2 s) (step (next, p) e) (s.step e) := by
  cases e with
  | send b answer relink => exact send_same h hproper
  | giveBack b => exact giveBack_same h
  | pause =>
    exact .ok (h.of_quiet (e := .pause) trivial rfl rfl rfl { h.toLooks with isPaused := rfl } rfl rfl)
  | resume answer relink => exact resume_same h hproper
  | flush answer => exact flush_same h
  | flushNext i => exact flushNext_same h
  | disable => exact disable_same h
  | disabled answer => exact disabled_same h
  | drainNext => exact drainNext_same h
  | disableEnd => exact disableEnd_same h
  | enable answer => exact enable_same h
  | relink relink =>
    exact .ok (h.of_quiet hproper rfl rfl rfl (h.toLooks.links (hproper next)) rfl rfl)

end Step

section Run

variable [DecidableEq α]

omit [DecidableEq α] in
lemma refines_create (next : α → Option α) : Refines next create (Traffic.create : Traffic α) where
  isEnabled := rfl
  isPaused := rfl
  component := rfl
  queue _ := ⟨rfl, rfl⟩
  flushing := .nil
  disabling := .no
  counts := ⟨rfl, rfl⟩
  nodup := List.nodup_nil
  settled := Traffic.settled_create

/-- **The linked port is its traffic.** Whatever the links are at first, a run in which nobody touches
the links of the port's headers has the outcomes that it has in lists: the headers are given back and go
on as there, no loop is endless, a disabling that has returned has none left; and at its end the links,
the count and the semaphore are those of the lists. -/
theorem linkedPort_refines (next : α → Option α) {es : List (PortEvent α)}
    (hproper : Along Traffic.step Proper Traffic.create es) :
    Same (fun c s => Refines c.1 c.2 s) (run step (next, create) es)
      (run Traffic.step Traffic.create es) :=
  run_same (s := (next, create)) (R := fun c s => Refines c.1 c.2 s) (fun _ _ _ => step_same)
    (refines_create next) hproper

/-- Two headers are flushed, and the first is sent again before the second is given back. -/
theorem linkedPort_refines_flush : ∃ os c s,
    run step (fun _ => none, create) [.enable .success, .pause, .send 1 .success id, .send 2 .success id,
      .flush .success, .flushNext 0, .send 1 .success id, .flushNext 0] = .ok (os, c) ∧
    run Traffic.step Traffic.create [.enable .success, .pause, .send 1 .success id,
      .send 2 .success id, .flush .success, .flushNext 0, .send 1 .success id, .flushNext 0] = .ok (os, s) ∧
    s.queue = [1] ∧ Refines c.1 c.2 s := by
  have hproper : Along Traffic.step Proper Traffic.create
      [.enable .success, .pause, .send 1 .success id, .send 2 .success id, .flush .success, .flushNext 0,
        .send 1 .success id, .flushNext 0] := by
    refine along_cons_ok rfl trivial (along_cons_ok rfl trivial ?_)
    refine along_cons_ok rfl ⟨by decide, fun _ _ _ => rfl⟩ ?_
    refine along_cons_ok rfl ⟨by decide, fun _ _ _ => rfl⟩ ?_
    refine along_cons_ok rfl trivial (along_cons_ok rfl trivial ?_)
    refine along_cons_ok rfl ⟨by decide, fun _ _ _ => rfl⟩ ?_
    exact along_cons_ok rfl trivial trivial
  have hsame := linkedPort_refines (fun _ : ℕ => none) hproper
  obtain ⟨os, s, hs, hq⟩ : ∃ os s, run Traffic.step Traffic.create [.enable .success, .pause,
      .send 1 .success id, .send 2 .success id, .flush .success, .flushNext 0, .send 1 .success id,
      .flushNext 0] = .ok (os, s) ∧ s.queue = [1] := ⟨_, _, rfl, rfl⟩
  obtain ⟨os', c, hc⟩ : ∃ os c, run step (fun _ => none, create) [.enable .success, .pause,
      .send 1 .success id, .send 2 .success id, .flush .success, .flushNext 0, .send 1 .success id,
      .flushNext 0] = .ok (os, c) := ⟨_, _, rfl⟩
  rw [hs, hc] at hsame
  obtain ⟨hrefines⟩ := hsame
  exact ⟨os, c, s, hc, hs, hq, hrefines⟩

end Run

end LinkedPort

end RcControl.Mmal
