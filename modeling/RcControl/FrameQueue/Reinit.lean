import RcControl.FrameQueue.Plain
import Mathlib.Algebra.Ring.Nat

/-!
# A queue that is initialised again

`init` can be called at any time, and more than once: it deletes the buffers there are and makes new
ones. So an object goes from one `Inv` to another, and until its first `init` it owns nothing, unless
it is taken for an initialised one (`Held`).

`copy` and `append` check nothing. Whatever the slots of the successive `init`s, as long as two of their
lengths can be added, nothing but the pop of an empty free list goes wrong (`in_bounds`).
-/

namespace RcControl.FrameQueue

open Mmal Lib.Run

/-- What is done with a queue. -/
inductive Op where
  | init (capacity bufferSize : ℕ)
  | call (call : Call)

/-- `init` gives nothing back. -/
def opStep (pf : Platform) (s : FrameQueue) : Op → Except Fault (Option Result × FrameQueue)
  | .init capacity bufferSize =>
    match init pf capacity bufferSize s with
    | .error f => .error f
    | .ok s' => .ok (none, s')
  | .call call =>
    match step pf s call with
    | .error f => .error f
    | .ok (r, s') => .ok (some r, s')

/-- The slot size of the latest `init`, or `slot` if there is none. -/
def latestSlot : Option ℕ → List Op → Option ℕ
  | slot, [] => slot
  | _, .init _ b :: ops => latestSlot (some b) ops
  | slot, .call _ :: ops => latestSlot slot ops

/-- Nothing is written before the first `init`. -/
def InitFirst : List Op → Prop
  | [] | .init _ _ :: _ => True
  | .call (.writeBack _) :: _ => False
  | .call _ :: ops => InitFirst ops

/-- An object that owns nothing. -/
structure Blank (s : FrameQueue) : Prop where
  owned : s.owned = []
  heap : ∀ p, s.heap p = none

/-- An object that owns its buffers: initialised, or refusing all it is given. -/
def Held (s : FrameQueue) : Prop := (s.inited = false ∧ Blank s) ∨ ∃ c b, Inv c b s

/-! ### `init` -/

section Init

variable {pf : Platform} {c b : ℕ} {s s' : FrameQueue} {heap : Heap} {ps : List ℕ}

/-- The buffers that are deleted are gone, and no other. -/
lemma deleteAll_ok (hnd : ps.Nodup) (hlive : ∀ p ∈ ps, (heap p).isSome) :
    ∃ heap', deleteAll heap ps = .ok heap' ∧ ∀ p, heap' p = if p ∈ ps then none else heap p := by
  induction ps generalizing heap with
  | nil => exact ⟨heap, rfl, fun p => by simp⟩
  | cons q ps ih =>
    obtain ⟨hnot, hnd⟩ := List.nodup_cons.1 hnd
    obtain ⟨f, hf⟩ := Option.isSome_iff_exists.1 (hlive q List.mem_cons_self)
    have hrest : ∀ p ∈ ps, (Function.update heap q none p).isSome := by
      intro p hp
      rw [Function.update_of_ne (by rintro rfl; exact hnot hp)]
      exact hlive p (List.mem_cons_of_mem q hp)
    obtain ⟨heap', hdel, hheap⟩ := ih hnd hrest
    refine ⟨heap', by simp only [deleteAll, hf, hdel], fun p => ?_⟩
    rw [hheap p]
    by_cases hp : p = q
    · subst hp
      simp
    · simp [hp]

/-- `destroy` leaves nothing behind. -/
lemma destroy_ok (hnd : s.owned.Nodup) (hlive : ∀ p, (s.heap p).isSome ↔ p ∈ s.owned) :
    ∃ heap, destroy s =
        .ok { s with heap := heap, pending := [], freeList := [], encodedFrameQueue := [] } ∧
      ∀ p, heap p = none := by
  have hperm : (s.pending ++ s.freeList ++ s.encodedFrameQueue).Perm s.owned := by
    simp only [owned, List.append_assoc]
    exact List.Perm.append_left _ List.perm_append_comm
  obtain ⟨heap, hdel, hheap⟩ := deleteAll_ok (hperm.nodup_iff.2 hnd)
    fun p hp => (hlive p).2 (hperm.mem_iff.1 hp)
  refine ⟨heap, by simp only [destroy, hdel], fun p => ?_⟩
  rw [hheap p]
  split
  · rfl
  · next hp =>
    rw [hperm.mem_iff, ← hlive p, Bool.not_eq_true, Option.isSome_eq_false_iff] at hp
    exact Option.isNone_iff_eq_none.1 hp

lemma Owns.live_iff {next : ℕ} (h : Owns c b heap next ps) (p : ℕ) : (heap p).isSome ↔ p ∈ ps := by
  constructor
  · intro hp
    obtain ⟨f, hf⟩ := Option.isSome_iff_exists.1 hp
    exact h.only p f hf
  · intro hp
    obtain ⟨f, hf, -⟩ := h.live p hp
    rw [hf]
    rfl

/-- **`init` of any object that owns its buffers** does not fault, and leaves it initialised and
empty. -/
theorem init_ok (pf : Platform) (c b : ℕ) (hnd : s.owned.Nodup)
    (hlive : ∀ p, (s.heap p).isSome ↔ p ∈ s.owned) :
    ∃ s', init pf c b s = .ok s' ∧ Inv c b s' ∧ s'.pending = [] ∧ s'.encodedFrameQueue = [] := by
  obtain ⟨heap, hdes, hheap⟩ :=
    destroy_ok (s := { s with capacity := c, bufferSize := b, inited := true }) hnd hlive
  generalize hs₀ : ({ s with
    capacity := c, bufferSize := b, inited := true, heap := heap, pending := [], freeList := [],
    encodedFrameQueue := [] } : FrameQueue) = s₀ at hdes
  have hempty : Inv 0 b s₀ := by
    subst hs₀
    refine ⟨rfl, rfl, Nat.zero_le _, List.nodup_nil, ?_, ?_, fun p _ => hheap p, rfl⟩
    · simp [owned]
    · intro p f hf
      simp [hheap] at hf
  have hfill := inv_fillFreeList pf c hempty
  rw [Nat.zero_add] at hfill
  obtain ⟨hp, hq⟩ := fillFreeList_containers pf c s₀
  refine ⟨fillFreeList pf c s₀, by simp only [init, hdes], hfill, ?_, ?_⟩
  · rw [hp, ← hs₀]
  · rw [hq, ← hs₀]

lemma Held.init_ok (pf : Platform) (c b : ℕ) (h : Held s) :
    ∃ s', init pf c b s = .ok s' ∧ Inv c b s' ∧ s'.pending = [] ∧ s'.encodedFrameQueue = [] := by
  rcases h with ⟨-, h⟩ | ⟨c', b', h⟩
  · refine FrameQueue.init_ok pf c b (h.owned ▸ List.nodup_nil) fun p => ?_
    rw [h.heap, h.owned]
    simp
  · exact FrameQueue.init_ok pf c b h.owns.nodup h.owns.live_iff

/-! ### Any number of calls and `init`s -/

lemma opStep_init (h : init pf c b s = .ok s') : opStep pf s (.init c b) = .ok (none, s') := by
  simp only [opStep, h]

lemma opStep_call {call : Call} {r : Result} (h : step pf s call = .ok (r, s')) :
    opStep pf s (.call call) = .ok (some r, s') := by
  simp only [opStep, h]

/-- An object that owns nothing stays as it is, if it is not written to or refuses it. -/
lemma Blank.step (pf : Platform) (h : Blank s) {call : Call}
    (hcall : s.inited = false ∨ ∀ x, call ≠ .writeBack x) : ∃ o, step pf s call = .ok (o, s) := by
  have hnil := h.owned
  simp only [FrameQueue.owned, List.append_eq_nil_iff] at hnil
  obtain ⟨⟨-, hq⟩, hfree⟩ := hnil
  cases call with
  | writeBack o =>
    have hi : s.inited = false := hcall.resolve_right fun hne => hne o rfl
    rcases o with _ | x
    · exact ⟨_, rfl⟩
    · exact ⟨.written false, by simp [FrameQueue.step, writeBack, hi]⟩
  | readFront => exact ⟨.frame none, by simp only [FrameQueue.step, readFront_nil hq]⟩
  | clear =>
    refine ⟨.cleared, ?_⟩
    obtain ⟨inited, c, b, q, l, p, heap, next⟩ := s
    subst hq hfree
    rfl
  | size => exact ⟨.size s.size, rfl⟩

lemma inv_construct (m n : ℕ) : Inv 0 n (construct true m n) := by
  refine ⟨rfl, rfl, Nat.zero_le _, List.nodup_nil, ?_, ?_, fun _ _ => rfl, rfl⟩
  · simp [owned, construct]
  · simp [construct]

lemma held_construct (g : Bool) (m n : ℕ) : Held (construct g m n) := by
  cases g with
  | false => exact Or.inl ⟨rfl, rfl, fun _ => rfl⟩
  | true => exact Or.inr ⟨0, n, inv_construct m n⟩

/-- **Whatever is done with an object, it owns its buffers.** -/
theorem held_step (pf : Platform) : Invariant (opStep pf) Held := by
  intro s op o s' h hs
  cases op with
  | init c b =>
    obtain ⟨t, hinit, hinv, -⟩ := h.init_ok pf c b
    rw [opStep_init hinit, Except.ok.injEq, Prod.mk.injEq] at hs
    exact hs.2 ▸ Or.inr ⟨c, b, hinv⟩
  | call call =>
    rcases hcall : step pf s call with f | ⟨r, t⟩
    · simp [opStep, hcall] at hs
    rw [opStep_call hcall, Except.ok.injEq, Prod.mk.injEq] at hs
    obtain ⟨-, rfl⟩ := hs
    rcases h with ⟨hi, hblank⟩ | ⟨c, b, h⟩
    · obtain ⟨r', hstep⟩ := hblank.step pf (Or.inl hi)
      obtain ⟨-, rfl⟩ := Prod.mk.inj (Except.ok.inj (hstep.symm.trans hcall))
      exact Or.inl ⟨hi, hblank⟩
    · exact Or.inr ⟨c, b, inv_step pf c b s call r t h hcall⟩

/-- After a last `init` the object is as good as new. -/
theorem init_fresh {g : Bool} {m n : ℕ} {ops : List Op} {os : List (Option Result)}
    (h : run (opStep pf) (construct g m n) (ops ++ [.init c b]) = .ok (os, s)) :
    Inv c b s ∧ abs s = Plain.empty := by
  obtain ⟨os₁, t, os₂, hops, hlast, -⟩ := run_append_eq_ok.1 h
  have hheld : Held t := inv_run (held_step pf) (held_construct g m n) hops
  obtain ⟨s', hinit, hinv, hp, hq⟩ := hheld.init_ok pf c b
  obtain ⟨rfl, rfl⟩ :=
    Prod.mk.inj (Except.ok.inj ((run_cons_ok (opStep_init hinit) run_nil).symm.trans hlast))
  exact ⟨hinv, by rw [abs, hp, hq]; rfl⟩

end Init

/-! ### In bounds -/

/-- The buffers in the containers are live, have no more bytes than room, and slots of this size. -/
def FitsSlots (slot : Option ℕ) (s : FrameQueue) : Prop :=
  ∀ p ∈ s.pending ++ s.encodedFrameQueue ++ s.freeList,
    ∃ f, s.heap p = some f ∧ f.length ≤ f.capacity ∧ slot = some f.capacity

/-- No copy runs over its block or into a buffer that is gone, and the buffers fit their slots. -/
def InBounds (pf : Platform) (s : FrameQueue) (slot : Option ℕ) (ops : List Op) : Prop :=
  (∀ f, run (opStep pf) s ops = .error f → f = .popFront) ∧
    ∀ os t, run (opStep pf) s ops = .ok (os, t) → FitsSlots slot t

section InBounds

variable {pf : Platform} {c b : ℕ} {s s' : FrameQueue} {op : Op} {ops : List Op} {f : Fault}
  {o : Option Result} {slot : Option ℕ}

/-- If two lengths can be added, the only call that faults is the one that pops an empty free list. -/
lemma step_error {call : Call} (hw : pf.NoWrap b) (h : Inv c b s) (hs : step pf s call = .error f) :
    f = .popFront := by
  by_cases hcan : CanServe s call
  · obtain ⟨o, s', hok, -⟩ := step_refines hw h hcan
    rw [hok] at hs
    exact absurd hs (by simp)
  · simp only [CanServe, not_forall] at hcan
    obtain ⟨x, rfl, hst, hno⟩ := hcan
    simp only [step, writeBack_of_starts hst, startFrame, takeBuffer_fault h hno,
      Except.error.injEq] at hs
    exact hs.symm

lemma InBounds.cons (hs : opStep pf s op = .ok (o, s')) (h : InBounds pf s' slot ops) :
    InBounds pf s slot (op :: ops) := by
  refine ⟨fun f hf => ?_, fun os t ht => ?_⟩
  · rcases hr : run (opStep pf) s' ops with g | ⟨os, t⟩
    · have hg : g = f := by simpa [run, hs, hr] using hf
      exact hg ▸ h.1 g hr
    · simp [run_cons_ok hs hr] at hf
  · obtain ⟨o', s'', os', hs', hrun, -⟩ := run_cons_eq_ok.1 ht
    obtain ⟨-, rfl⟩ := Prod.mk.inj (Except.ok.inj (hs.symm.trans hs'))
    exact h.2 os' t hrun

lemma InBounds.fault (hs : opStep pf s op = .error .popFront) : InBounds pf s slot (op :: ops) := by
  rw [InBounds, run_cons_error hs]
  exact ⟨fun f hf => (Except.error.inj hf).symm, fun os t ht => absurd ht (by simp)⟩

/-- From an `init` on. -/
lemma inBounds_of_inv (hsize : pf.sizeMod = 2 ^ 32) (hslots : ∀ c b, .init c b ∈ ops → b < 2 ^ 31)
    (hb : b < 2 ^ 31) (h : Inv c b s) : InBounds pf s (latestSlot (some b) ops) ops := by
  induction ops generalizing s c b with
  | nil =>
    refine ⟨fun f hf => absurd hf (by simp), fun os t ht => ?_⟩
    obtain ⟨-, rfl⟩ := Prod.mk.inj (Except.ok.inj ht)
    intro p hp
    obtain ⟨f, hf, hcap, hlen⟩ := h.owns.live p hp
    exact ⟨f, hf, hcap ▸ hlen, by rw [latestSlot, hcap]⟩
  | cons op ops ih =>
    have hrest : ∀ c b, .init c b ∈ ops → b < 2 ^ 31 := fun c b hmem =>
      hslots c b (List.mem_cons_of_mem op hmem)
    cases op with
    | init c' b' =>
      obtain ⟨t, hinit, hinv, -⟩ := Held.init_ok pf c' b' (Or.inr ⟨c, b, h⟩)
      refine .cons (opStep_init hinit) ?_
      exact ih hrest (hslots c' b' List.mem_cons_self) hinv
    | call call =>
      rcases hs : step pf s call with f | ⟨r, t⟩
      · have hw : pf.NoWrap b := Or.inr (by omega)
        obtain rfl := step_error hw h hs
        exact .fault (by simp only [opStep, hs])
      · refine .cons (opStep_call hs) ?_
        exact ih hrest hb (inv_step pf c b s call r t h hs)

/-- Until there is one. -/
lemma inBounds_of_blank (hsize : pf.sizeMod = 2 ^ 32) (hslots : ∀ c b, .init c b ∈ ops → b < 2 ^ 31)
    (hfirst : s.inited = false ∨ InitFirst ops) (h : Blank s) :
    InBounds pf s (latestSlot none ops) ops := by
  induction ops with
  | nil =>
    refine ⟨fun f hf => absurd hf (by simp), fun os t ht => ?_⟩
    obtain ⟨-, rfl⟩ := Prod.mk.inj (Except.ok.inj ht)
    intro p hp
    have hp : p ∈ s.owned := hp
    rw [h.owned] at hp
    exact absurd hp List.not_mem_nil
  | cons op ops ih =>
    have hrest : ∀ c b, .init c b ∈ ops → b < 2 ^ 31 := fun c b hmem =>
      hslots c b (List.mem_cons_of_mem op hmem)
    cases op with
    | init c b =>
      obtain ⟨t, hinit, hinv, -⟩ := FrameQueue.init_ok pf c b (h.owned ▸ List.nodup_nil) fun p => by
        rw [h.heap, h.owned]
        simp
      refine .cons (opStep_init hinit) ?_
      exact inBounds_of_inv hsize hrest (hslots c b List.mem_cons_self) hinv
    | call call =>
      have hcall : s.inited = false ∨ ∀ x, call ≠ .writeBack x := by
        refine hfirst.imp_right fun hno x hx => ?_
        rw [hx] at hno
        exact hno
      obtain ⟨r, hs⟩ := h.step pf hcall
      refine .cons (opStep_call hs) (ih hrest ?_)
      refine hfirst.imp_right fun hno => ?_
      cases call with
      | writeBack x => exact absurd hno id
      | readFront | clear | size => exact hno

/-- **In bounds.** Whatever is done with a queue, with slots below half of what `size_t` can count, no
copy writes outside the block of a live buffer, and the buffers in the containers have no more bytes
than fit the slots of the latest `init`, unless an empty free list is popped. Until the first `init` the
queue is not written to, or says that it is not initialised. -/
theorem in_bounds {pf : Platform} (hsize : pf.sizeMod = 2 ^ 32) (g : Bool) (m n : ℕ) {ops : List Op}
    (hslots : ∀ c b, .init c b ∈ ops → b < 2 ^ 31) (hfirst : g = false ∨ InitFirst ops) :
    InBounds pf (construct g m n) (latestSlot none ops) ops :=
  inBounds_of_blank hsize hslots hfirst ⟨rfl, fun _ => rfl⟩

end InBounds

/-- Slots of one byte, then slots of four, with the free list drained in between. -/
theorem in_bounds_twoSizes :
    InBounds ⟨2 ^ 32, fun _ _ => 0⟩ (construct true 7 9) (some 4)
      [.init 1 1, .call (.writeBack (some (fragment 32 1))), .call (.writeBack (some (fragment 4 2))),
        .init 2 4, .call (.writeBack (some (fragment 32 1))),
        .call (.writeBack (some (fragment 4 2)))] := by
  refine in_bounds rfl true 7 9 (fun c b hmem => ?_) (Or.inr trivial)
  simp only [List.mem_cons, Op.init.injEq, List.not_mem_nil, reduceCtorEq, false_or, or_false] at hmem
  omega

end RcControl.FrameQueue
