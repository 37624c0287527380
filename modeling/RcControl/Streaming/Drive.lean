import RcControl.Streaming.FanOut

/-!
# How the streamer drives the queue

The callback writes each buffer of the camera to the queue and reads from it at once. So the queue
never holds a frame when a write begins, and of its `c` buffers all are free but perhaps the one of the
pending frame: a free buffer is always there for a new frame, and a permanent one. Nothing is allocated
after `init`, and nothing deleted.
-/

namespace RcControl.Streaming

open Lib Lib.Run Mmal Streamer
open FrameQueue (writeBack readFront initialised)

/-- The queue between two buffers of the camera: of the buffers `init` has created, each is free or the
pending frame, and there are no others. -/
structure Driven (c : ℕ) (q : FrameQueue) : Prop where
  encoded : q.encodedFrameQueue = []
  pending : q.pending.length ≤ 1
  /-- `init` has given out the pointers below `c`. -/
  buffers : (q.freeList ++ q.pending).Perm (List.range c)
  permanent : ∀ p < c, ∃ f, q.heap p = some f ∧ f.isTemporary = false
  allocated : q.next = c

/-- One round of the callback: the write is carried out, and the read returns the frame it has
completed, if it has completed one. -/
def ReadsCompleted (pf : FrameQueue.Platform) (c : ℕ) (q : FrameQueue) (x : BufferHeader) : Prop :=
  ∃ r q', writeBack pf q (some x) = .ok (r, q') ∧ q'.encodedFrameQueue.length ≤ 1 ∧
    (readFront q').1 = q'.encodedFrameQueue.head? ∧ Driven c (readFront q').2

/-! ### One round -/

section Round

variable {pf : FrameQueue.Platform} {b c p : ℕ} {q q' : FrameQueue} {x : BufferHeader} {r : Bool}

/-- The buffer of a new frame is allocated only if none is free. -/
lemma takeBuffer_next (h : FrameQueue.takeBuffer pf q = .ok (p, q')) (hfree : q.freeList ≠ []) :
    q'.next = q.next := by
  obtain ⟨a, rest, hl⟩ := List.exists_cons_of_ne_nil hfree
  simp only [FrameQueue.takeBuffer, hl] at h
  split at h
  · simp at h
  · simp at h
  · obtain ⟨-, rfl⟩ := Prod.mk.inj (Except.ok.inj h)
    rfl

/-- A write allocates only for a frame that starts with no free buffer. -/
theorem writeBack_next (h : FrameQueue.Inv c b q) (hs : writeBack pf q (some x) = .ok (r, q'))
    (hfree : q.pending = [] → q.freeList ≠ []) : q'.next = q.next := by
  rcases FrameQueue.writeBack_cases h hs with rfl | ⟨y, -, hst, hstart⟩ | ⟨y, p, -, -, hp, hext⟩
  · rfl
  · have hcan : FrameQueue.CanTake q := by
      by_contra hno
      simp [FrameQueue.startFrame, FrameQueue.takeBuffer_fault h hno] at hstart
    obtain ⟨p, s₁, f, htake, -, -, -, -, heq⟩ :=
      FrameQueue.startFrame_ok pf h hcan (h.bufferSize ▸ hst.2.2.1)
    rw [heq, Except.ok.injEq, Prod.mk.injEq] at hstart
    rw [← hstart.2, ← takeBuffer_next htake (hfree hst.2.2.2)]
    unfold FrameQueue.place
    split <;> rfl
  · obtain ⟨f, hf, -⟩ := h.owns.live p (by simp [FrameQueue.owned, hp])
    rcases FrameQueue.extendFrame_cases hf hp hext with ⟨-, -, rfl⟩ | ⟨-, f', -, -, rfl⟩
    · rfl
    · split <;> rfl

/-- If nothing was allocated after `init`, the buffers are those of `init`, and all are permanent. -/
theorem driven_of_inv (h : FrameQueue.Inv c b q) (hq : q.encodedFrameQueue = []) (hnext : q.next = c) :
    Driven c q := by
  have hsub : q.owned ⊆ List.range c := by
    intro p hp
    rw [List.mem_range, ← hnext]
    exact h.owns.lt_next hp
  have hperm : q.owned.Perm (List.range c) := by
    refine (List.subperm_of_subset h.owns.nodup hsub).perm_of_length_le ?_
    rw [List.length_range]
    calc c = q.owned.countP (FrameQueue.isPermanent q.heap) := h.owns.perm.symm
      _ ≤ q.owned.length := List.countP_le_length
  -- there are `c` buffers, and `c` of them are permanent
  have hall : ∀ p ∈ q.owned, FrameQueue.isPermanent q.heap p = true := by
    rw [← List.countP_eq_length, h.owns.perm, hperm.length_eq, List.length_range]
  refine ⟨hq, h.pending, ?_, fun p hp => ?_, hnext⟩
  · refine List.Perm.trans ?_ hperm
    simp only [FrameQueue.owned, hq, List.append_nil]
    exact List.perm_append_comm
  · have hmem : p ∈ q.owned := hperm.mem_iff.2 (List.mem_range.2 hp)
    obtain ⟨f, hf, -⟩ := h.owns.live p hmem
    refine ⟨f, hf, ?_⟩
    by_contra ht
    have := (FrameQueue.isTemporary_iff hf).1 (by simpa using ht)
    rw [hall p hmem] at this
    simp at this

/-- A slot that is neither queued nor pending is free. -/
lemma Driven.freeList_ne_nil (h : Driven c q) (hc : 1 ≤ c) (hp : q.pending = []) : q.freeList ≠ [] := by
  intro hnil
  have := h.buffers.length_eq
  simp only [hnil, hp, List.append_nil, List.length_nil, List.length_range] at this
  omega

lemma readFront_next (q : FrameQueue) : (readFront q).2.next = q.next := by
  unfold readFront
  split <;> rfl

/-- A read returns the front of the queue. -/
lemma readFront_head (q : FrameQueue) : (readFront q).1 = q.encodedFrameQueue.head? := by
  unfold readFront
  rcases q.encodedFrameQueue with _ | ⟨p, rest⟩ <;> rfl

/-- **One round of the callback.** -/
theorem round_driven (hw : pf.NoWrap b) (hc : 1 ≤ c) (h : FrameQueue.Inv c b q) (hq : Driven c q)
    (x : BufferHeader) : ReadsCompleted pf c q x := by
  obtain ⟨r, q', hwb, hinv, hempty⟩ := writeRead_ok hw hc h hq.encoded x
  have hnext : q'.next = c :=
    (writeBack_next h hwb (hq.freeList_ne_nil hc)).trans hq.allocated
  refine ⟨r, q', hwb, ?_, readFront_head q', ?_⟩
  · rcases hl : q'.encodedFrameQueue with _ | ⟨p, rest⟩
    · simp
    · rw [FrameQueue.readFront_eq p rest hl] at hempty
      simp [show rest = [] from hempty]
  · exact driven_of_inv hinv hempty ((readFront_next q').trans hnext)

end Round

/-! ### Every run -/

section Run

variable {κ : Type} [DecidableEq κ] {pf : FrameQueue.Platform} {b c : ℕ}

/-- A queue as `init` leaves it. -/
lemma fillFreeList_next (pf : FrameQueue.Platform) (n : ℕ) (q : FrameQueue) :
    (FrameQueue.fillFreeList pf n q).next = q.next + n := by
  induction n generalizing q with
  | zero => rfl
  | succ n ih =>
    simp only [FrameQueue.fillFreeList, ih, FrameQueue.newBuffer]
    omega

lemma driven_initialised (pf : FrameQueue.Platform) (c b : ℕ) : Driven c (initialised pf c b) := by
  refine driven_of_inv (FrameQueue.inv_initialised pf c b) ?_ ?_
  · exact (FrameQueue.fillFreeList_containers pf c (FrameQueue.construct true c b)).2
  · rw [initialised, fillFreeList_next]
    exact Nat.zero_add c

/-- The invariant of the streamer's queue. -/
def Drives (c b : ℕ) (s : Streamer κ) : Prop := FrameQueue.Inv c b s.frameQueue ∧ Driven c s.frameQueue

/-- Only the callback touches the queue, in one round for each buffer. -/
theorem drives_step (hw : pf.NoWrap b) (hc : 1 ≤ c) {s : Streamer κ} (h : Drives c b s) (e : Event κ) :
    ∃ o s', step pf s e = .ok (o, s') ∧ Drives c b s' := by
  cases e with
  | register id timestamp => exact ⟨_, _, rfl, h⟩
  | trackOpen d now =>
    rcases onOpen_cases s d now with ho | ⟨-, video', ho⟩
    · exact ⟨_, _, congrArg _ ho, h⟩
    · exact ⟨_, _, congrArg _ ho, h⟩
  | hangup k => exact ⟨_, _, rfl, h⟩
  | camBuffer x throws =>
    by_cases hcb : s.onCamBuffer = true
    · obtain ⟨r, q', hwb, -, -, hdriven⟩ := round_driven hw hc h.1 h.2 x
      have hinv := FrameQueue.inv_readFront (FrameQueue.inv_writeBack h.1 hwb)
      refine ⟨(sendAll x throws s.object s.tracks).1,
        { s with
          frameQueue := (readFront q').2
          object := (sendAll x throws s.object s.tracks).2 }, ?_, hinv, hdriven⟩
      simp only [step, hcb, if_true, camCallback, hwb]
    · exact ⟨_, _, step_camBuffer_unset hcb, h⟩

/-- **The streamer's drive of the queue.** Over every run of the streamer on a queue just initialised,
with at least one slot: no call faults, after each buffer the queue is empty and its buffers are those
of `init`, and the next round reads what it completes. -/
theorem drive_safe (hw : pf.NoWrap b) (hc : 1 ≤ c) (es : List (Event κ)) :
    ∃ os s, run (step pf) (start (initialised pf c b)) es = .ok (os, s) ∧ Driven c s.frameQueue ∧
      ∀ x, ReadsCompleted pf c s.frameQueue x := by
  have hI : Invariant (step pf) (Drives (κ := κ) c b) := by
    intro s e o s' hs hst
    obtain ⟨o', t, ht, hIt⟩ := drives_step hw hc hs e
    rw [ht, Except.ok.injEq, Prod.mk.injEq] at hst
    exact hst.2 ▸ hIt
  have h0 : Drives (κ := κ) c b (start (initialised pf c b)) :=
    ⟨FrameQueue.inv_initialised pf c b, driven_initialised pf c b⟩
  obtain ⟨os, s, h⟩ := run_total (κ := κ) hw hc es
  obtain ⟨hinv, hdriven⟩ := inv_run hI h0 h
  exact ⟨os, s, h, hdriven, round_driven hw hc hinv hdriven⟩

end Run

/-- One slot, a client, and a frame. -/
theorem drive_safe_oneSlot :
    ∃ os s, run (step (FrameQueue.Platform.ideal fun _ _ => 0))
        (start (initialised (FrameQueue.Platform.ideal fun _ _ => 0) 1 4))
        [.register "999" 0, .trackOpen 0 0, .camBuffer (FrameQueue.wholeFrame 1) fun _ => false] =
        .ok (os, s) ∧ Driven 1 s.frameQueue ∧
      ∀ x, ReadsCompleted (FrameQueue.Platform.ideal fun _ _ => 0) 1 s.frameQueue x :=
  drive_safe (Or.inl rfl) (le_refl 1) _

end RcControl.Streaming
