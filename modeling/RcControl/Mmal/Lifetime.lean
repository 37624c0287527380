import RcControl.Lib.Crew
import RcControl.Lib.Run

/-!
# How long a component lives

A component is kept by two counts, `refcount` of the references to it and `refcount_ports` of the payloads
that were allocated from its ports. The last `mmal_component_release` disables the ports outside the lock
and then looks whether payloads are left; if so the last `mmal_port_payload_free` destroys the component
instead. `destruction_pending` says that the former has still to look.

Any number of threads do so at once. What a thread does under the lock of the component is one step here,
and so is what it does before it takes the lock. Of the logging only the line of a delayed destruction is
here: it comes behind the unlocking and names the component, which may be gone by then.
-/

namespace RcControl.Mmal

open Lib Lib.Run Lib.Crew

namespace Lifetime

/-- Where a thread is. -/
inductive Thread where
  | outside
  /-- In `mmal_component_release_internal`, before the lock. -/
  | releasing
  /-- In `mmal_component_release_internal`, at the ports. -/
  | preparing
  /-- In `mmal_component_release_internal`, at the `LOG_TRACE` behind the second lock. -/
  | delaying
  /-- In `mmal_port_release`, before the lock. -/
  | portReleasing
  /-- In `mmal_component_destroy_internal`. -/
  | destroying
  deriving DecidableEq

inductive Event where
  /-- `mmal_component_acquire`. -/
  | acquire
  /-- `mmal_component_release` or `mmal_component_destroy`, up to the lock. -/
  | release (t : ℕ)
  /-- `mmal_port_payload_alloc`, with `mmal_port_acquire`. -/
  | payloadAlloc
  /-- `mmal_port_payload_free`, up to the lock of `mmal_port_release`. -/
  | payloadFree (t : ℕ)
  /-- A thread goes on; `ok` is what the `pf_destroy` of the component says. -/
  | go (t : ℕ) (ok : Bool)

/-- What there is to see of a step. -/
inductive Did where
  | nothing
  /-- A call returns `MMAL_EINVAL`: there is no reference that it could release. -/
  | refused
  /-- `mmal_component_destroy_internal` is called. -/
  | destroys
  /-- The component is freed. -/
  | frees
  deriving DecidableEq

inductive Fault where
  /-- The event is none that can happen now. -/
  | impossible
  /-- The component is touched after it has been freed. -/
  | gone
  deriving DecidableEq

end Lifetime

open Lifetime

/-- A component, and the references to it that the program has. -/
structure Lifetime where
  refcount : ℤ
  refcountPorts : ℤ
  destructionPending : Bool
  freed : Bool
  /-- The references to the component that nobody has begun to release. -/
  held : ℕ
  /-- The payloads that nobody has begun to free. -/
  payloads : ℕ
  threads : List Thread
  /-- The log is at the level of `LOG_TRACE`, which then reads the name of the component. -/
  trace : Bool

namespace Lifetime

/-- After `mmal_component_create`, with `n` threads. -/
def create (n : ℕ) (trace : Bool) : Lifetime where
  refcount := 1
  refcountPorts := 0
  destructionPending := false
  freed := false
  held := 1
  payloads := 0
  threads := List.replicate n .outside
  trace := trace

/-- What touches the component. -/
def touching (s : Lifetime) (o : Did) (s' : Lifetime) : Except Fault (Did × Lifetime) :=
  if s.freed then .error .gone else .ok (o, s')

def place (s : Lifetime) (t : ℕ) (p : Thread) : Lifetime := { s with threads := s.threads.set t p }

/-- `mmal_component_release_internal` under the lock. -/
def release (s : Lifetime) (t : ℕ) : Lifetime :=
  if s.refcount - 1 ≠ 0 then { s.place t .outside with refcount := s.refcount - 1 }
  else { s.place t .preparing with refcount := s.refcount - 1, destructionPending := true }

/-- `mmal_component_release_internal` when it has done with the ports. -/
def delayOrDestroy (s : Lifetime) (t : ℕ) : Did × Lifetime :=
  if s.refcountPorts ≠ 0 then (.nothing, { s.place t .delaying with destructionPending := false })
  else (.destroys, s.place t .destroying)

/-- `mmal_port_release` under the lock. -/
def portRelease (s : Lifetime) (t : ℕ) : Did × Lifetime :=
  if s.refcountPorts - 1 ≠ 0 ∨ s.refcount ≠ 0 ∨ s.destructionPending = true then
    (.nothing, { s.place t .outside with refcountPorts := s.refcountPorts - 1 })
  else (.destroys, { s.place t .destroying with refcountPorts := s.refcountPorts - 1 })

/-- `mmal_component_destroy_internal`, once `pf_destroy` has answered. -/
def destroy (s : Lifetime) (t : ℕ) (ok : Bool) : Did × Lifetime :=
  if ok then (.frees, { s.place t .outside with freed := true }) else (.nothing, s.place t .outside)

def go (s : Lifetime) (t : ℕ) (ok : Bool) : Except Fault (Did × Lifetime) :=
  match s.threads[t]? with
  | some .releasing => s.touching .nothing (s.release t)
  | some .preparing => s.touching (s.delayOrDestroy t).1 (s.delayOrDestroy t).2
  | some .delaying =>
    if s.trace then s.touching .nothing (s.place t .outside) else .ok (.nothing, s.place t .outside)
  | some .portReleasing => s.touching (s.portRelease t).1 (s.portRelease t).2
  | some .destroying => s.touching (s.destroy t ok).1 (s.destroy t ok).2
  | some .outside | none => .error .impossible

def step (s : Lifetime) : Event → Except Fault (Did × Lifetime)
  | .acquire =>
    if 0 < s.held then s.touching .nothing { s with refcount := s.refcount + 1, held := s.held + 1 }
    else .error .impossible
  | .release t =>
    if 0 < s.held ∧ s.threads[t]? = some .outside then
      if 0 < s.refcount then s.touching .nothing { s.place t .releasing with held := s.held - 1 }
      else s.touching .refused s
    else .error .impossible
  | .payloadAlloc =>
    if 0 < s.held ∨ 0 < s.payloads then
      s.touching .nothing { s with refcountPorts := s.refcountPorts + 1, payloads := s.payloads + 1 }
    else .error .impossible
  | .payloadFree t =>
    if 0 < s.payloads ∧ s.threads[t]? = some .outside then
      if 0 < s.refcountPorts then s.touching .nothing { s.place t .portReleasing with payloads := s.payloads - 1 }
      else s.touching .refused s
    else .error .impossible
  | .go t ok => s.go t ok

/-! ### What a step does -/

inductive Does (s : Lifetime) : Event → Did → Lifetime → Prop
  | acquire (hheld : 0 < s.held) :
      Does s .acquire .nothing { s with refcount := s.refcount + 1, held := s.held + 1 }
  | release (t : ℕ) (hheld : 0 < s.held) (ht : s.threads[t]? = some .outside) :
      Does s (.release t) .nothing { s.place t .releasing with held := s.held - 1 }
  | refused (t : ℕ) (hheld : 0 < s.held) (hnone : s.refcount ≤ 0) : Does s (.release t) .refused s
  | payloadAlloc (hheld : 0 < s.held ∨ 0 < s.payloads) :
      Does s .payloadAlloc .nothing { s with refcountPorts := s.refcountPorts + 1, payloads := s.payloads + 1 }
  | payloadFree (t : ℕ) (hpayload : 0 < s.payloads) (ht : s.threads[t]? = some .outside) :
      Does s (.payloadFree t) .nothing { s.place t .portReleasing with payloads := s.payloads - 1 }
  | portRefused (t : ℕ) (hpayload : 0 < s.payloads) (hnone : s.refcountPorts ≤ 0) :
      Does s (.payloadFree t) .refused s
  | releases (t : ℕ) (ok : Bool) (ht : s.threads[t]? = some .releasing) (hmore : s.refcount - 1 ≠ 0) :
      Does s (.go t ok) .nothing { s.place t .outside with refcount := s.refcount - 1 }
  | prepares (t : ℕ) (ok : Bool) (ht : s.threads[t]? = some .releasing) (hlast : s.refcount - 1 = 0) :
      Does s (.go t ok) .nothing
        { s.place t .preparing with refcount := s.refcount - 1, destructionPending := true }
  | delays (t : ℕ) (ok : Bool) (ht : s.threads[t]? = some .preparing) (hmore : s.refcountPorts ≠ 0) :
      Does s (.go t ok) .nothing { s.place t .delaying with destructionPending := false }
  | traces (t : ℕ) (ok : Bool) (ht : s.threads[t]? = some .delaying) :
      Does s (.go t ok) .nothing (s.place t .outside)
  | destroys (t : ℕ) (ok : Bool) (ht : s.threads[t]? = some .preparing) (hlast : s.refcountPorts = 0) :
      Does s (.go t ok) .destroys (s.place t .destroying)
  | portReleases (t : ℕ) (ok : Bool) (ht : s.threads[t]? = some .portReleasing)
      (hmore : s.refcountPorts - 1 ≠ 0 ∨ s.refcount ≠ 0 ∨ s.destructionPending = true) :
      Does s (.go t ok) .nothing { s.place t .outside with refcountPorts := s.refcountPorts - 1 }
  | portDestroys (t : ℕ) (ok : Bool) (ht : s.threads[t]? = some .portReleasing)
      (hlast : s.refcountPorts - 1 = 0) (hnone : s.refcount = 0) (hpending : s.destructionPending = false) :
      Does s (.go t ok) .destroys { s.place t .destroying with refcountPorts := s.refcountPorts - 1 }
  | frees (t : ℕ) (ht : s.threads[t]? = some .destroying) :
      Does s (.go t true) .frees { s.place t .outside with freed := true }
  | fails (t : ℕ) (ht : s.threads[t]? = some .destroying) : Does s (.go t false) .nothing (s.place t .outside)

section Step

variable {s s' u : Lifetime} {e : Event} {o o' : Did} {t : ℕ} {p q : Thread} {entered : ℕ}

lemma touching_eq_ok : s.touching o u = .ok (o', s') ↔ s.freed = false ∧ o = o' ∧ u = s' := by
  unfold touching
  split <;> simp_all

lemma does_of_go {ok : Bool} (hs : s.go t ok = .ok (o, s')) : Does s (.go t ok) o s' := by
  unfold go at hs
  split at hs
  · rename_i ht
    obtain ⟨-, rfl, rfl⟩ := touching_eq_ok.1 hs
    unfold Lifetime.release
    split
    · exact .releases t ok ht ‹_›
    · exact .prepares t ok ht (not_not.1 ‹_›)
  · rename_i ht
    obtain ⟨-, rfl, rfl⟩ := touching_eq_ok.1 hs
    unfold delayOrDestroy
    split
    · exact .delays t ok ht ‹_›
    · exact .destroys t ok ht (not_not.1 ‹_›)
  · rename_i ht
    split at hs
    · obtain ⟨-, rfl, rfl⟩ := touching_eq_ok.1 hs
      exact .traces t ok ht
    · obtain ⟨rfl, rfl⟩ := Prod.mk.inj (Except.ok.inj hs)
      exact .traces t ok ht
  · rename_i ht
    obtain ⟨-, rfl, rfl⟩ := touching_eq_ok.1 hs
    unfold portRelease
    split
    · exact .portReleases t ok ht ‹_›
    · rename_i hlast
      simp only [not_or, not_not, Bool.not_eq_true] at hlast
      exact .portDestroys t ok ht hlast.1 hlast.2.1 hlast.2.2
  · rename_i ht
    obtain ⟨-, rfl, rfl⟩ := touching_eq_ok.1 hs
    cases ok with
    | true => exact .frees t ht
    | false => exact .fails t ht
  · cases hs
  · cases hs

theorem does_of_step (hs : step s e = .ok (o, s')) : Does s e o s' := by
  cases e with
  | go t ok => exact does_of_go hs
  | acquire =>
    simp only [step] at hs
    split at hs
    · obtain ⟨-, rfl, rfl⟩ := touching_eq_ok.1 hs
      exact .acquire ‹_›
    · cases hs
  | payloadAlloc =>
    simp only [step] at hs
    split at hs
    · obtain ⟨-, rfl, rfl⟩ := touching_eq_ok.1 hs
      exact .payloadAlloc ‹_›
    · cases hs
  | release t =>
    simp only [step] at hs
    split at hs
    · rename_i hheld
      split at hs
      · obtain ⟨-, rfl, rfl⟩ := touching_eq_ok.1 hs
        exact .release t hheld.1 hheld.2
      · obtain ⟨-, rfl, rfl⟩ := touching_eq_ok.1 hs
        exact .refused t hheld.1 (Int.not_lt.1 ‹_›)
    · cases hs
  | payloadFree t =>
    simp only [step] at hs
    split at hs
    · rename_i hpayload
      split at hs
      · obtain ⟨-, rfl, rfl⟩ := touching_eq_ok.1 hs
        exact .payloadFree t hpayload.1 hpayload.2
      · obtain ⟨-, rfl, rfl⟩ := touching_eq_ok.1 hs
        exact .portRefused t hpayload.1 (Int.not_lt.1 ‹_›)
    · cases hs

/-! ### The counts -/

/-- The invariant, when `mmal_component_destroy_internal` has been called so many times. -/
structure Kept (entered : ℕ) (s : Lifetime) : Prop where
  refcount : s.refcount = s.held + s.threads.count .releasing
  refcountPorts : s.refcountPorts = s.payloads + s.threads.count .portReleasing
  pending : s.threads.count .preparing ≤ s.destructionPending.toNat
  notPending : s.destructionPending.toNat ≤ s.threads.count .preparing + entered
  /-- The end comes once, -/
  once : s.threads.count .preparing + entered ≤ 1
  /-- not as long as there is a reference, -/
  notBefore : 0 < s.refcount → s.threads.count .preparing + entered = 0
  /-- nor, but for the look at the ports, as long as there is a payload; -/
  noPayload : 0 < entered → s.refcountPorts = 0
  /-- and it comes when there is neither. -/
  comes : s.refcount = 0 → s.refcountPorts = 0 → s.threads.count .preparing + entered = 1
  ended : s.threads.count .destroying + s.freed.toNat ≤ entered

lemma count_set (ht : s.threads[t]? = some p) (q r : Thread) :
    (s.threads.set t q).count r + (if p = r then 1 else 0) = s.threads.count r + if q = r then 1 else 0 := by
  have hset := countP_set ht q (· == r)
  simpa only [List.count, beq_iff_eq] using hset

/-- What happens to the counts when a thread goes from one place to another. -/
lemma counts_set (ht : s.threads[t]? = some p) (q : Thread) :
    ((s.threads.set t q).count .releasing + (if p = .releasing then 1 else 0) =
      s.threads.count .releasing + if q = .releasing then 1 else 0) ∧
    ((s.threads.set t q).count .preparing + (if p = .preparing then 1 else 0) =
      s.threads.count .preparing + if q = .preparing then 1 else 0) ∧
    ((s.threads.set t q).count .portReleasing + (if p = .portReleasing then 1 else 0) =
      s.threads.count .portReleasing + if q = .portReleasing then 1 else 0) ∧
    (s.threads.set t q).count .destroying + (if p = .destroying then 1 else 0) =
      s.threads.count .destroying + if q = .destroying then 1 else 0 :=
  ⟨count_set ht q _, count_set ht q _, count_set ht q _, count_set ht q _⟩

theorem kept_step (h : Kept entered s) (hd : Does s e o s') :
    Kept (entered + if o = .destroys then 1 else 0) s' := by
  obtain ⟨hrefcount, hports, hpending, hnot, honce, hbefore, hpayload, hcomes, hended⟩ := h
  cases hd with
  | acquire hheld => constructor <;> simp only [reduceCtorEq, if_false] <;> omega
  | payloadAlloc hheld => constructor <;> simp only [reduceCtorEq, if_false] <;> omega
  | refused t hheld hnone => omega
  | portRefused t hpayload hnone => omega
  | release t hheld ht =>
    have hmoves := counts_set ht .releasing
    simp only [reduceCtorEq, if_true, if_false] at hmoves
    constructor <;> simp only [place, reduceCtorEq, if_false] <;> omega
  | payloadFree t hpayload ht =>
    have hmoves := counts_set ht .portReleasing
    simp only [reduceCtorEq, if_true, if_false] at hmoves
    constructor <;> simp only [place, reduceCtorEq, if_false] <;> omega
  | releases t ok ht hmore =>
    have hmoves := counts_set ht .outside
    simp only [reduceCtorEq, if_true, if_false] at hmoves
    constructor <;> simp only [place, reduceCtorEq, if_false] <;> omega
  | prepares t ok ht hlast =>
    have hmoves := counts_set ht .preparing
    simp only [reduceCtorEq, if_true, if_false] at hmoves
    constructor <;> simp only [place, reduceCtorEq, if_false, Bool.toNat_true] <;> omega
  | delays t ok ht hmore =>
    have hmoves := counts_set ht .delaying
    simp only [reduceCtorEq, if_true, if_false] at hmoves
    constructor <;> simp only [place, reduceCtorEq, if_false, Bool.toNat_false] <;> omega
  | traces t ok ht =>
    have hmoves := counts_set ht .outside
    simp only [reduceCtorEq, if_false] at hmoves
    constructor <;> simp only [place, reduceCtorEq, if_false] <;> omega
  | destroys t ok ht hlast =>
    have hmoves := counts_set ht .destroying
    simp only [reduceCtorEq, if_true, if_false] at hmoves
    constructor <;> simp only [place, if_true] <;> omega
  | portReleases t ok ht hmore =>
    have hmoves := counts_set ht .outside
    simp only [reduceCtorEq, if_true, if_false] at hmoves
    have hpend : s.destructionPending = true → 1 ≤ s.threads.count .preparing + entered := fun hp => by
      rw [hp] at hnot
      exact hnot
    have hmore := hmore.imp_right (Or.imp_right hpend)
    constructor <;> simp only [place, reduceCtorEq, if_false] <;> omega
  | portDestroys t ok ht hlast hnone hpend =>
    have hmoves := counts_set ht .destroying
    simp only [reduceCtorEq, if_true, if_false] at hmoves
    rw [hpend, Bool.toNat_false] at hpending hnot
    constructor <;> simp only [place, if_true, hpend, Bool.toNat_false] <;> omega
  | frees t ht =>
    have hmoves := counts_set ht .outside
    have hpos := List.count_pos_iff.2 (List.mem_of_getElem? ht)
    simp only [reduceCtorEq, if_true, if_false] at hmoves
    constructor <;> simp only [place, reduceCtorEq, if_false, Bool.toNat_true] <;> omega
  | fails t ht =>
    have hmoves := counts_set ht .outside
    simp only [reduceCtorEq, if_true, if_false] at hmoves
    constructor <;> simp only [place, reduceCtorEq, if_false] <;> omega

/-- Whoever has a reference can release it. -/
lemma Kept.not_refused (h : Kept entered s) (hd : Does s e .refused s') : False := by
  have hrefcount := h.refcount
  have hports := h.refcountPorts
  cases hd <;> omega

/-- A component that has been freed has been destroyed. -/
lemma Kept.not_freed (h : Kept entered s) (hlive : entered = 0 ∨ 0 < s.threads.count .destroying) :
    s.freed = false := by
  have honce := h.once
  have hended := h.ended
  cases hf : s.freed with
  | false => rfl
  | true =>
    rw [hf, Bool.toNat_true] at hended
    omega

lemma touching_ne_gone (hf : s.freed = false) : s.touching o u ≠ .error .gone := by
  rw [touching, hf]
  exact fun h => by cases h

/-- Only the log touches a component that is gone. -/
theorem tracing_of_gone (h : Kept entered s) (hgone : step s e = .error .gone) :
    s.trace = true ∧ ∃ t ok, e = .go t ok ∧ s.threads[t]? = some .delaying := by
  have hfree := h.not_freed
  obtain ⟨hrefcount, hports, hpending, hnot, honce, hbefore, hpayload, hcomes, hended⟩ := h
  cases e with
  | acquire =>
    simp only [step] at hgone
    split at hgone
    · exact absurd hgone (touching_ne_gone (hfree (by omega)))
    · cases hgone
  | release t =>
    simp only [step] at hgone
    split at hgone
    · split at hgone <;> exact absurd hgone (touching_ne_gone (hfree (by omega)))
    · cases hgone
  | payloadAlloc =>
    simp only [step] at hgone
    split at hgone
    · exact absurd hgone (touching_ne_gone (hfree (by omega)))
    · cases hgone
  | payloadFree t =>
    simp only [step] at hgone
    split at hgone
    · split at hgone <;> exact absurd hgone (touching_ne_gone (hfree (by omega)))
    · cases hgone
  | go t ok =>
    simp only [step, go] at hgone
    split at hgone
    case h_3 ht =>
      split at hgone
      · exact ⟨‹_›, t, ok, rfl, ht⟩
      · cases hgone
    case h_6 | h_7 => cases hgone
    all_goals
      have hpos := List.count_pos_iff.2 (List.mem_of_getElem? ‹s.threads[t]? = some _›)
      exact absurd hgone (touching_ne_gone (hfree (by omega)))

lemma trace_step (hs : step s e = .ok (o, s')) : s'.trace = s.trace := by
  cases does_of_step hs <;> rfl

end Step

section Run

variable {n : ℕ} {trace : Bool} {es : List Event} {os : List Did} {s : Lifetime}

lemma kept_create (n : ℕ) (trace : Bool) : Kept 0 (create n trace) := by
  have hcount : ∀ p : Thread, p ≠ .outside → (create n trace).threads.count p = 0 := fun p hp =>
    List.count_eq_zero.2 fun hmem => hp (List.eq_of_mem_replicate hmem)
  have hreleasing := hcount .releasing (by simp)
  have hpreparing := hcount .preparing (by simp)
  have hports := hcount .portReleasing (by simp)
  have hdestroying := hcount .destroying (by simp)
  exact ⟨by rw [hreleasing]; rfl, by rw [hports]; rfl, by rw [hpreparing]; exact Nat.zero_le _, Nat.zero_le _,
    by rw [hpreparing]; exact Nat.zero_le 1, fun _ => by rw [hpreparing], fun h => absurd h (Nat.lt_irrefl 0),
    fun h => absurd h Int.one_ne_zero, by rw [hdestroying]; exact Nat.le_refl 0⟩

lemma kept_run (h : run step (create n trace) es = .ok (os, s)) :
    Kept (os.count .destroys) s ∧ .refused ∉ os ∧ s.trace = trace := by
  refine history_run (J := fun _ os s => Kept (os.count .destroys) s ∧ .refused ∉ os ∧ s.trace = trace)
    ⟨kept_create n trace, List.not_mem_nil, rfl⟩ ?_ h
  intro es os s e o s' _ hJ hs
  have hd := does_of_step hs
  refine ⟨?_, ?_, (trace_step hs).trans hJ.2.2⟩
  · have hstep := kept_step hJ.1 hd
    rw [List.count_append, List.count_singleton]
    simpa only [beq_iff_eq] using hstep
  · intro hmem
    rcases List.mem_append.1 hmem with hmem | hmem
    · exact hJ.2.1 hmem
    · obtain rfl := List.mem_singleton.1 hmem
      exact hJ.1.not_refused hd

/-- **How long a component lives.** However the threads come between each other, nothing touches the
component after it has been freed but the log of a delayed destruction, at the level of `LOG_TRACE`, and no
release is refused. It is destroyed once at most, not while there is a reference to it or a payload of its
ports, and it has been when there is none and nobody is at it. -/
theorem outlives (n : ℕ) (trace : Bool) (es : List Event) :
    (run step (create n trace) es = .error .gone → trace = true ∧ ∃ es₁ t ok es₂ os s,
      es = es₁ ++ .go t ok :: es₂ ∧ run step (create n trace) es₁ = .ok (os, s) ∧
      s.threads[t]? = some .delaying) ∧
    ∀ os s, run step (create n trace) es = .ok (os, s) →
      .refused ∉ os ∧ os.count .destroys ≤ 1 ∧ (.destroys ∈ os → s.held = 0 ∧ s.payloads = 0) ∧
      ((∀ p ∈ s.threads, p = .outside) → s.held = 0 → s.payloads = 0 → os.count .destroys = 1) := by
  constructor
  · intro h
    obtain ⟨es₁, e, es₂, os, s, rfl, hrun, hstep⟩ := run_eq_error h
    obtain ⟨hkept, -, rfl⟩ := kept_run hrun
    obtain ⟨htrace, t, ok, rfl, ht⟩ := tracing_of_gone hkept hstep
    exact ⟨htrace, es₁, t, ok, es₂, os, s, rfl, hrun, ht⟩
  · intro os s h
    obtain ⟨⟨hrefcount, hports, hpending, hnot, honce, hbefore, hpayload, hcomes, hended⟩, hrefused, -⟩ :=
      kept_run h
    refine ⟨hrefused, by omega, fun hmem => ?_, fun hout hheld hnone => ?_⟩
    · have hpos := List.count_pos_iff.2 hmem
      have hzero := hpayload hpos
      omega
    · have hcount : ∀ p : Thread, p ≠ .outside → s.threads.count p = 0 := fun p hp =>
        List.count_eq_zero.2 fun hmem => hp (hout p hmem)
      have hreleasing := hcount .releasing (by simp)
      have hpreparing := hcount .preparing (by simp)
      have hportReleasing := hcount .portReleasing (by simp)
      have hone := hcomes (by omega) (by omega)
      omega

/-- The payload is freed while the ports are disabled, and who disables them destroys the component. -/
example : ∃ s, run step (create 2 true) [.payloadAlloc, .release 0, .go 0 true, .payloadFree 1, .go 1 true,
    .go 0 true, .go 0 true] =
      .ok ([.nothing, .nothing, .nothing, .nothing, .nothing, .destroys, .frees], s) := ⟨_, rfl⟩

/-- It is freed when they are disabled, and the component is gone when the log names it. -/
example : run step (create 2 true) [.payloadAlloc, .release 0, .go 0 true, .go 0 true, .payloadFree 1,
    .go 1 true, .go 1 true, .go 0 true] = .error .gone := rfl

end Run

end Lifetime

end RcControl.Mmal
