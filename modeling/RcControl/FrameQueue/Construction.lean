import RcControl.FrameQueue.HighWater
import RcControl.FrameQueue.Reinit

/-!
# The two ways to build a queue

`FrameQueue(capacity, buffer_size)` fills its free list as `init` does, but from members it has not
assigned. `construction_agrees` is when the object is the one `init` makes: what was in memory has to be
what `init` would have put there. Each of the three members can be seen from outside: `_inited` and
`_buffer_size` at a single write, and `_capacity` by falling behind (`small_faults`, `large_returns`).
-/

namespace RcControl.FrameQueue

open Mmal Lib.Run

/-- What the calls return, or the first fault. -/
def results (pf : Platform) (s : FrameQueue) (calls : List Call) : Except Fault (List Result) :=
  (run (step pf) s calls).map Prod.fst

/-- The calls return what they return on a default-constructed queue that was initialised. -/
def AgreesWithInit (pf : Platform) (c b : ℕ) (s : FrameQueue) : Prop :=
  ∀ g m n t calls, init pf c b (construct g m n) = .ok t → results pf s calls = results pf t calls

/-- Whatever is called, every `write_back` returns `false` and the queue stays as it is. -/
def RefusesAll (pf : Platform) (s : FrameQueue) : Prop :=
  ∀ calls, ∃ os, run (step pf) s calls = .ok (os, s) ∧ ∀ r, .written r ∈ os → r = false

/-! ### The pool, seen as permanent and temporary buffers -/

/-- A frame of `k` bytes in one fragment. -/
def frameOf (k : ℕ) (h : k < UInt32.size) : BufferHeader where
  cmd := 0
  data := List.replicate k 0
  length := k
  flags := 6
  dts := 0
  length_le := by simp
  length_lt := h

lemma size_pos : 0 < UInt32.size := by decide

/-- A frame without bytes. -/
def emptyFrame : BufferHeader := frameOf 0 size_pos

/-- Nothing is pending, and of each buffer on the free list and in the queue it is said whether it is
permanent. -/
structure Pool (c b : ℕ) (free queued : List Bool) (s : FrameQueue) : Prop where
  inv : Inv c b s
  pending : s.pending = []
  free : s.freeList.map (isPermanent s.heap) = free
  queued : s.encodedFrameQueue.map (isPermanent s.heap) = queued

section Pool

variable (pf : Platform) {b c k p : ℕ} {s s₁ : FrameQueue} {f : FrameBuffer} {x : BufferHeader}
  {free queued : List Bool}

lemma startsFrame_frameOf (hk : k < UInt32.size) (h : Inv c b s) (hp : s.pending = []) (hkb : k ≤ b) :
    StartsFrame s (frameOf k hk) :=
  ⟨h.inited, fun hz => absurd (show (6 : BitVec 32) = 0 from hz.2) (by decide), h.bufferSize ▸ hkb, hp⟩

/-- The frame is in the buffer that was taken for it. -/
lemma writeBack_emptyFrame (h : Inv c b s) (hp : s.pending = [])
    (htake : takeBuffer pf s = .ok (p, s₁)) (hf : s₁.heap p = some f) :
    ∃ f', f'.temporary = f.temporary ∧ step pf s (.writeBack (some emptyFrame)) =
      .ok (.written true, { s₁ with
        heap := Function.update s₁.heap p (some f')
        encodedFrameQueue := s₁.encodedFrameQueue ++ [p] }) := by
  obtain ⟨f', hcopy, hcontent, -, -, htemp⟩ :=
    FrameBuffer.copy_ok (b := f.reset) (x := emptyFrame) (Nat.zero_le _)
  have hconfig : f'.isConfig = false := by
    have hflags : f'.flags = Flags.ofHeader emptyFrame := congrArg Prod.fst hcontent
    rw [FrameBuffer.isConfig, hflags]
    decide
  refine ⟨f', htemp, ?_⟩
  simp only [step, writeBack_of_starts (startsFrame_frameOf size_pos h hp (Nat.zero_le b)),
    startFrame, htake, hf, emptyFrame] at hcopy ⊢
  simp only [hcopy, hconfig, Bool.false_eq_true, if_false]

lemma isPermanent_of_eq (hf : s.heap p = some f) : isPermanent s.heap p = !f.temporary := by
  simp [isPermanent, hf, FrameBuffer.isTemporary]

lemma map_isPermanent_update {heap : Heap} {l : List ℕ} {o : Option FrameBuffer} (hp : p ∉ l) :
    l.map (isPermanent (Function.update heap p o)) = l.map (isPermanent heap) :=
  List.map_congr_left fun _ hq => isPermanent_update_of_ne o (by rintro rfl; exact hp hq)

/-- A frame takes the permanent buffer at the front. -/
lemma pool_take (h : Pool c b (true :: free) queued s) :
    ∃ t, step pf s (.writeBack (some emptyFrame)) = .ok (.written true, t) ∧
      Pool c b free (queued ++ [true]) t := by
  obtain ⟨p, rest, hfree, hperm, hrest⟩ := List.map_eq_cons_iff.1 h.free
  obtain ⟨f, hf, -⟩ := h.inv.owns.live p (by simp [owned, hfree])
  have hkind : f.temporary = false := by
    rw [isPermanent_of_eq hf] at hperm
    simpa using hperm
  have htake : takeBuffer pf s = .ok (p, { s with freeList := rest }) := by
    simp [takeBuffer, hfree, drainTemporaries, hf, FrameBuffer.isTemporary, hkind]
  obtain ⟨f', htemp, hstep⟩ := writeBack_emptyFrame pf h.inv h.pending htake hf
  have hnd := h.inv.owns.nodup
  simp only [owned, hfree, h.pending, List.nil_append, List.nodup_append, List.nodup_cons] at hnd
  obtain ⟨-, ⟨hnot, -⟩, hdisj⟩ := hnd
  have hnot' : p ∉ s.encodedFrameQueue := fun hq => hdisj p hq p List.mem_cons_self rfl
  refine ⟨_, hstep, inv_step pf c b s _ _ _ h.inv hstep, h.pending, ?_, ?_⟩
  · rw [map_isPermanent_update hnot]
    exact hrest
  · rw [List.map_append, map_isPermanent_update hnot', h.queued, List.map_singleton]
    simp [isPermanent, FrameBuffer.isTemporary, htemp, hkind]

/-- With none left, a frame takes a temporary one. -/
lemma pool_new (h : Pool c b [] queued s) :
    ∃ t, step pf s (.writeBack (some emptyFrame)) = .ok (.written true, t) ∧
      Pool c b [] (queued ++ [false]) t := by
  have hfree : s.freeList = [] := List.map_eq_nil_iff.1 h.free
  have htake : takeBuffer pf s = .ok (newBuffer pf s true) := by simp only [takeBuffer, hfree]
  have hf : (newBuffer pf s true).2.heap s.next =
      some (FrameBuffer.new (pf.malloc s.next) s.bufferSize true) := Function.update_self ..
  obtain ⟨f', htemp, hstep⟩ := writeBack_emptyFrame pf h.inv h.pending htake hf
  have hnot : s.next ∉ s.encodedFrameQueue := by
    intro hq
    exact absurd (h.inv.owns.lt_next (show s.next ∈ s.owned by simp [owned, hq])) (lt_irrefl _)
  refine ⟨_, hstep, inv_step pf c b s _ _ _ h.inv hstep, h.pending, ?_, ?_⟩
  · exact List.map_eq_nil_iff.2 hfree
  · rw [List.map_append, map_isPermanent_update hnot, map_isPermanent_update hnot, h.queued,
      List.map_singleton]
    simp [isPermanent, FrameBuffer.isTemporary, htemp, FrameBuffer.new]

/-- A lone temporary buffer is deleted, and the list it leaves empty is popped. -/
lemma pool_fault (h : Pool c b [false] queued s) :
    step pf s (.writeBack (some emptyFrame)) = .error .popFront := by
  have hcan : ¬ CanTake s := by
    rintro (hnil | ⟨p, hp, hperm⟩)
    · simpa [hnil] using h.free
    · have hmem : isPermanent s.heap p ∈ [false] := h.free ▸ List.mem_map_of_mem hp
      rw [hperm] at hmem
      exact absurd hmem (by decide)
  simp only [step, writeBack_of_starts (startsFrame_frameOf size_pos h.inv h.pending (Nat.zero_le b)),
    emptyFrame, startFrame, takeBuffer_fault h.inv hcan]

/-- A frame that is read leaves its buffer at the back of the free list. -/
lemma pool_read {kind : Bool} (h : Pool c b free (kind :: queued) s) :
    ∃ o t, step pf s .readFront = .ok (o, t) ∧ Pool c b (free ++ [kind]) queued t := by
  obtain ⟨p, rest, hq, hkind, hrest⟩ := List.map_eq_cons_iff.1 h.queued
  obtain ⟨f, hf, -⟩ := h.inv.owns.live p (by simp [owned, hq])
  have hstep : step pf s .readFront = .ok (.frame (some f.content),
      { s with encodedFrameQueue := rest, freeList := s.freeList ++ [p] }) := by
    simp only [step, readFront_eq p rest hq, hf]
  refine ⟨_, _, hstep, inv_step pf c b s _ _ _ h.inv hstep, h.pending, ?_, hrest⟩
  rw [List.map_append, h.free, List.map_singleton, hkind]

/-! ### Runs of writes, and of reads -/

/-- `n` frames, written or read. -/
def writeTimes (n : ℕ) : List Call := List.replicate n (.writeBack (some emptyFrame))
def readTimes (n : ℕ) : List Call := List.replicate n .readFront

lemma pool_writes (n : ℕ) (h : Pool c b (List.replicate n true ++ free) queued s) :
    ∃ os t, run (step pf) s (writeTimes n) = .ok (os, t) ∧
      Pool c b free (queued ++ List.replicate n true) t := by
  induction n generalizing s queued with
  | zero => exact ⟨[], s, rfl, by simpa using h⟩
  | succ n ih =>
    have h : Pool c b (true :: (List.replicate n true ++ free)) queued s := h
    obtain ⟨s', hs, h'⟩ := pool_take pf h
    obtain ⟨os, t, hrun, ht⟩ := ih h'
    refine ⟨_, t, run_cons_ok hs hrun, ?_⟩
    rwa [List.append_assoc, List.singleton_append, ← List.replicate_succ] at ht

lemma pool_reads (h : Pool c b free queued s) :
    ∃ os t, run (step pf) s (readTimes queued.length) = .ok (os, t) ∧ Pool c b (free ++ queued) [] t := by
  induction queued generalizing s free with
  | nil => exact ⟨[], s, rfl, by simpa using h⟩
  | cons kind queued ih =>
    obtain ⟨o, s', hs, h'⟩ := pool_read pf h
    obtain ⟨os, t, hrun, ht⟩ := ih h'
    refine ⟨_, t, run_cons_ok hs hrun, ?_⟩
    rwa [List.append_assoc, List.singleton_append] at ht

end Pool

/-! ### Each member can be seen -/

/-- The queue is filled by one frame more than it has slots, emptied and filled again. -/
def fallBehindBy (n : ℕ) : List Call := writeTimes n ++ readTimes n ++ writeTimes n

section Members

variable {pf : Platform} {b c k n : ℕ}

lemma pool_initialised (pf : Platform) (c b : ℕ) :
    Pool c b (List.replicate c true) [] (initialised pf c b) := by
  have hinv := inv_initialised pf c b
  obtain ⟨hpend, hqueued⟩ := fillFreeList_containers pf c (construct true c b)
  have howned : (initialised pf c b).owned = (initialised pf c b).freeList := by
    rw [owned, initialised, hpend, hqueued]
    rfl
  -- there are as many buffers as permanent ones
  have hlen : (initialised pf c b).freeList.length = c := howned ▸ length_owned_initialised pf c b
  have hcount := hinv.owns.perm
  rw [howned] at hcount
  refine ⟨hinv, hpend, ?_, ?_⟩
  · refine List.eq_replicate_iff.2 ⟨by rw [List.length_map, hlen], ?_⟩
    intro kind hkind
    obtain ⟨p, hp, rfl⟩ := List.mem_map.1 hkind
    exact List.countP_eq_length.1 (hcount.trans hlen.symm) p hp
  · rw [initialised, hqueued]
    rfl

/-- A queue of `k` slots does not survive it. -/
lemma small_faults (pf : Platform) (k b : ℕ) :
    results pf (initialised pf k b) (fallBehindBy (k + 1)) = .error .popFront := by
  have hinit := pool_initialised pf k b
  rw [← List.append_nil (List.replicate k true)] at hinit
  -- the last frame gets a temporary buffer, and comes back last
  obtain ⟨os₁, s₁, hrun₁, h₁⟩ := pool_writes pf k hinit
  obtain ⟨s₂, hstep₂, h₂⟩ := pool_new pf h₁
  obtain ⟨os₃, s₃, hrun₃, h₃⟩ := pool_reads pf h₂
  obtain ⟨os₄, s₄, hrun₄, h₄⟩ := pool_writes pf k h₃
  have hlen : ([] ++ List.replicate k true ++ [false]).length = k + 1 := by simp
  rw [hlen] at hrun₃
  have hwrites : writeTimes (k + 1) = writeTimes k ++ [.writeBack (some emptyFrame)] :=
    List.replicate_succ'
  have hfill := run_append_ok hrun₁ (run_cons_ok hstep₂ run_nil)
  rw [← hwrites] at hfill
  have hfault : run (step pf) s₄ [.writeBack (some emptyFrame)] = .error .popFront :=
    run_cons_error (pool_fault pf h₄)
  have hfault := run_append_error hrun₄ hfault
  rw [← hwrites] at hfault
  rw [results, fallBehindBy, run_append_error (run_append_ok hfill hrun₃) hfault]
  rfl

/-- A queue of more slots does. -/
lemma large_returns (pf : Platform) (h : k < c) :
    ∃ os, results pf (initialised pf c b) (fallBehindBy (k + 1)) = .ok os := by
  obtain ⟨d, rfl⟩ : ∃ d, c = k + 1 + d := ⟨c - (k + 1), by omega⟩
  have hinit := pool_initialised pf (k + 1 + d) b
  rw [List.replicate_add] at hinit
  obtain ⟨os₁, s₁, hrun₁, h₁⟩ := pool_writes pf (k + 1) hinit
  obtain ⟨os₂, s₂, hrun₂, h₂⟩ := pool_reads pf h₁
  rw [List.nil_append, List.replicate_append_replicate, Nat.add_comm d, ← List.replicate_append_replicate] at h₂
  obtain ⟨os₃, s₃, hrun₃, -⟩ := pool_writes pf (k + 1) h₂
  rw [List.nil_append, List.length_replicate] at hrun₂
  refine ⟨(os₁ ++ os₂) ++ os₃, ?_⟩
  rw [results, fallBehindBy, run_append_ok (run_append_ok hrun₁ hrun₂) hrun₃]
  rfl

/-- The first frame is accepted if it fits a slot. -/
lemma first_frame (pf : Platform) (c b : ℕ) (hk : k < UInt32.size) :
    results pf (initialised pf c b) [.writeBack (some (frameOf k hk))] =
      .ok [.written (decide (k ≤ b))] := by
  have hpool := pool_initialised pf c b
  have hz : ¬ Skipped (frameOf k hk) := fun hz => absurd (show (6 : BitVec 32) = 0 from hz.2) (by decide)
  by_cases hkb : k ≤ b
  · have hcan : CanTake (initialised pf c b) := by
      rcases hfree : (initialised pf c b).freeList with _ | ⟨p, rest⟩
      · exact Or.inl hfree
      · refine Or.inr ⟨p, hfree ▸ List.mem_cons_self, List.eq_of_mem_replicate (n := c) ?_⟩
        rw [← hpool.free, hfree]
        exact List.mem_cons_self
    have hst := startsFrame_frameOf hk hpool.inv hpool.pending hkb
    obtain ⟨p, s₁, f, -, -, -, -, -, hstart⟩ := startFrame_ok pf hpool.inv hcan (x := frameOf k hk) hkb
    simp [results, run, step, writeBack_of_starts hst, hstart, hkb, Except.map]
  · have hlarge : (initialised pf c b).bufferSize < (frameOf k hk).length := by
      rw [hpool.inv.bufferSize]
      exact not_le.1 hkb
    simp [results, run, step, writeBack_of_large hpool.inv.inited hz hlarge, hkb, Except.map]

lemma fillFreeList_inited (pf : Platform) (n : ℕ) (s : FrameQueue) :
    (fillFreeList pf n s).inited = s.inited := by
  induction n generalizing s with
  | zero => rfl
  | succ n ih => exact ih _

/-- A queue that is not initialised refuses what it is given. -/
lemma step_uninitialised (pf : Platform) (m n : ℕ) (call : Call) :
    ∃ o, step pf (construct false m n) call = .ok (o, construct false m n) ∧
      ∀ r, o = .written r → r = false := by
  cases call with
  | writeBack o =>
    refine ⟨.written false, ?_, fun r hr => (Result.written.inj hr).symm⟩
    cases o <;> rfl
  | readFront | clear | size => exact ⟨_, rfl, fun r hr => nomatch hr⟩

theorem refusesAll_iff (pf : Platform) (g : Bool) (m n : ℕ) :
    RefusesAll pf (construct g m n) ↔ g = false := by
  constructor
  · intro h
    cases g with
    | false => rfl
    | true =>
      obtain ⟨t, hstep, -⟩ := pool_new pf ⟨inv_construct m n, rfl, rfl, rfl⟩
      obtain ⟨os, hrun, hall⟩ := h [.writeBack (some emptyFrame)]
      rw [run_cons_ok hstep run_nil, Except.ok.injEq, Prod.mk.injEq] at hrun
      exact absurd (hall true (hrun.1 ▸ List.mem_cons_self)) (by decide)
  · rintro rfl calls
    induction calls with
    | nil => exact ⟨[], rfl, fun r hr => absurd hr List.not_mem_nil⟩
    | cons call calls ih =>
      obtain ⟨o, hstep, ho⟩ := step_uninitialised pf m n call
      obtain ⟨os, hrun, hall⟩ := ih
      refine ⟨o :: os, run_cons_ok hstep hrun, fun r hr => ?_⟩
      rcases List.mem_cons.1 hr with hr | hr
      · exact ho r hr.symm
      · exact hall r hr

theorem agreesWithInit_iff (pf : Platform) (g : Bool) {m n c b : ℕ} (hn : n < UInt32.size)
    (hb : b < UInt32.size) :
    AgreesWithInit pf c b (constructWith pf g m n c b) ↔ g = true ∧ m = c ∧ n = b := by
  constructor
  · intro h
    have hagree : ∀ calls, results pf (constructWith pf g m n c b) calls =
        results pf (initialised pf c b) calls :=
      fun calls => h false 0 0 _ calls (init_construct pf false 0 0 c b)
    cases g with
    | false =>
      have hfirst := hagree [.writeBack (some emptyFrame)]
      rw [emptyFrame, first_frame] at hfirst
      simp [results, run, step, writeBack, constructWith, fillFreeList_inited, construct,
        Except.map] at hfirst
    | true =>
      have hagree : ∀ calls, results pf (initialised pf m n) calls =
          results pf (initialised pf c b) calls := hagree
      obtain rfl : n = b := by
        have hfirst := hagree [.writeBack (some (frameOf (max n b) (max_lt hn hb)))]
        rw [first_frame, first_frame] at hfirst
        simp only [Except.ok.injEq, List.cons.injEq, Result.written.injEq, decide_eq_decide] at hfirst
        omega
      refine ⟨rfl, ?_, rfl⟩
      rcases lt_trichotomy m c with hlt | heq | hlt
      · obtain ⟨os, hos⟩ := large_returns (b := n) pf hlt
        rw [← hagree, small_faults] at hos
        exact absurd hos (by simp)
      · exact heq
      · obtain ⟨os, hos⟩ := large_returns (b := n) pf hlt
        rw [hagree, small_faults] at hos
        exact absurd hos (by simp)
  · rintro ⟨rfl, rfl, rfl⟩ g' m' n' t calls hinit
    rw [init_construct, Except.ok.injEq] at hinit
    exact hinit ▸ rfl

/-- **The two ways to build a queue** agree exactly if the memory of the object held what `init` puts
there, and a queue that is not initialised refuses everything exactly if its memory says that it is
not. -/
theorem construction_agrees (pf : Platform) (g g' : Bool) {m n c b : ℕ} (m' n' : ℕ)
    (hn : n < UInt32.size) (hb : b < UInt32.size) :
    (AgreesWithInit pf c b (constructWith pf g m n c b) ↔ g = true ∧ m = c ∧ n = b) ∧
      (RefusesAll pf (construct g' m' n') ↔ g' = false) :=
  ⟨agreesWithInit_iff pf g hn hb, refusesAll_iff pf g' m' n'⟩

end Members

/-- Memory that an initialised queue of the same sizes has left. -/
theorem construction_agrees_reused :
    (AgreesWithInit (Platform.ideal fun _ _ => 0) 2 4
        (constructWith (Platform.ideal fun _ _ => 0) true 2 4 2 4) ↔
      true = true ∧ 2 = 2 ∧ 4 = 4) ∧
      (RefusesAll (Platform.ideal fun _ _ => 0) (construct true 2 4) ↔ true = false) :=
  construction_agrees _ true true 2 4 (by decide) (by decide)

/-- In memory that was zeroed, the queue that is built with its sizes refuses its first frame. -/
theorem zeroedMemory_refuses :
    ¬ ∀ (pf : Platform) (g g' : Bool) (m n c b m' n' : ℕ), n < UInt32.size → b < UInt32.size →
      AgreesWithInit pf c b (constructWith pf g m n c b) ∧ RefusesAll pf (construct g' m' n') := by
  intro hclaim
  have hagree := (hclaim (Platform.ideal fun _ _ => 0) false false 0 0 2 4 0 0 (by decide) (by decide)).1
  have hfirst := hagree false 0 0 _ [.writeBack (some emptyFrame)] rfl
  exact absurd hfirst (by decide)

end RcControl.FrameQueue
