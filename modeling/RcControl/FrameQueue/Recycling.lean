import RcControl.FrameQueue.Invariant

/-!
# Recycling buffers

`write_back` takes the buffer of a new frame from the free list, and deletes the temporary buffers it
finds in front. It does not look whether a buffer is left: a free list of temporary buffers only is
drained, popped once more, and the buffer deleted last is written to. `recycling_safe_iff` says that
nothing else can go wrong, over any run: the calls are safe exactly if every frame starts while the
free list is empty or holds a permanent buffer. Keeping fewer than `capacity` frames queued is enough
for that (`canServe_of_keepsUp`).
-/

namespace RcControl.FrameQueue

open Mmal Lib.Run

variable {pf : Platform} {c b : ℕ} {s : FrameQueue} {call : Call}

/-- The buffer for a new frame is live, and nobody else's: it was on the free list and is there no
more, or it did not exist before. -/
def Obtains (pf : Platform) (s : FrameQueue) : Prop :=
  ∃ p s', takeBuffer pf s = .ok (p, s') ∧ (s'.heap p).isSome ∧ p ∉ s'.freeList ∧
    (p ∈ s.freeList ∨ s.heap p = none)

/-- The call starts a frame with a buffer properly obtained, if it starts one; it does not pop an
empty deque, and uses and deletes live buffers only. -/
def Recycles (pf : Platform) (s : FrameQueue) (call : Call) : Prop :=
  (∀ x, call = .writeBack (some x) → StartsFrame s x → Obtains pf s) ∧
    ∀ f, step pf s call = .error f → f = .overflow

/-- If the call starts a frame, the free list is empty or holds a permanent buffer. -/
def CanServe (s : FrameQueue) (call : Call) : Prop :=
  ∀ x, call = .writeBack (some x) → StartsFrame s x → CanTake s

/-- If the call starts a frame, fewer than `c` frames are queued. -/
def KeepsUp (c : ℕ) (s : FrameQueue) (call : Call) : Prop :=
  ∀ x, call = .writeBack (some x) → StartsFrame s x → s.encodedFrameQueue.length < c

/-! ### One call -/

theorem obtains_iff (h : Inv c b s) : Obtains pf s ↔ CanTake s := by
  constructor
  · rintro ⟨p, s', htake, -⟩
    by_contra hcan
    rw [takeBuffer_fault h hcan] at htake
    exact absurd htake (by simp)
  · intro hcan
    obtain ⟨p, s', htake, ht⟩ := takeBuffer_ok pf h hcan
    obtain ⟨f, hf, -⟩ := ht.owns.live p (by simp)
    have hnot : p ∉ s'.freeList := fun hp =>
      (List.nodup_cons.1 ht.owns.nodup).1 (List.mem_append_right _ hp)
    refine ⟨p, s', htake, by simp [hf], hnot, ?_⟩
    rcases ht.source with ⟨-, -, hnone⟩ | hdrop
    · exact Or.inr hnone
    · exact Or.inl ((List.dropWhile_sublist _).subset (hdrop ▸ List.mem_cons_self))

/-- The second half of `write_back` can only run over the block. -/
lemma extendFrame_error {p : ℕ} {x : BufferHeader} {f : Fault} (h : Inv c b s)
    (hp : s.pending = [p]) (hs : extendFrame pf s x p p = .error f) : f = .overflow := by
  obtain ⟨g, hg, -⟩ := h.owns.live p (by simp [owned, hp])
  simp only [extendFrame, hg] at hs
  by_cases hover : s.bufferSize < pf.add g.length x.length
  · simp [hover] at hs
  rw [if_neg hover] at hs
  simp only [FrameBuffer.append, FrameBuffer.memcpy] at hs
  by_cases hfit : g.length + x.payload.length ≤ g.capacity
  · simp only [dif_pos hfit] at hs
    split at hs <;> exact absurd hs (by simp)
  · simp only [dif_neg hfit, Except.error.injEq] at hs
    exact hs.symm

/-- A `write_back` that starts no frame, or finds a buffer for it, can only run over the block. -/
theorem writeBack_error {o : Option BufferHeader} {f : Fault} (h : Inv c b s)
    (hcan : ∀ x, o = some x → StartsFrame s x → CanTake s) (hs : writeBack pf s o = .error f) :
    f = .overflow := by
  rcases writeBack_shapes h o with rfl | ⟨x, rfl, hz | ⟨hz, hl⟩ | hst | ⟨hz, hl, p, hp⟩⟩
  · simp [writeBack] at hs
  · simp [writeBack_of_skipped h.inited hz] at hs
  · simp [writeBack_of_large h.inited hz (h.bufferSize ▸ hl)] at hs
  · obtain ⟨p, s₁, g, -, -, -, -, -, hstart⟩ :=
      startFrame_ok pf h (hcan x rfl hst) (h.bufferSize ▸ hst.2.2.1)
    rw [writeBack_of_starts hst, hstart] at hs
    exact absurd hs (by simp)
  · rw [writeBack_of_pending h.inited hz (h.bufferSize ▸ hl) hp] at hs
    exact extendFrame_error h hp hs

/-- What `read_front` returns is live. -/
lemma step_readFront_ok (pf : Platform) (h : Inv c b s) : ∃ o s', step pf s .readFront = .ok (o, s') := by
  rcases hq : s.encodedFrameQueue with _ | ⟨p, rest⟩
  · exact ⟨.frame none, s, by simp only [step, readFront_nil hq]⟩
  · obtain ⟨f, hf, -⟩ := h.owns.live p (by simp [owned, hq])
    refine ⟨.frame (some f.content), (readFront s).2, ?_⟩
    simp only [step, readFront_eq p rest hq, hf]

theorem recycles_iff (h : Inv c b s) : Recycles pf s call ↔ CanServe s call := by
  constructor
  · rintro ⟨hob, -⟩ x hx hst
    exact (obtains_iff h).1 (hob x hx hst)
  intro hcan
  refine ⟨fun x hx hst => (obtains_iff h).2 (hcan x hx hst), fun f hs => ?_⟩
  cases call with
  | writeBack o =>
    rcases hw : writeBack pf s o with g | ⟨r, s'⟩
    · simp only [step, hw, Except.error.injEq] at hs
      exact hs ▸ writeBack_error h (fun x hx => hcan x (hx ▸ rfl)) hw
    · simp [step, hw] at hs
  | readFront =>
    obtain ⟨o, s', hok⟩ := step_readFront_ok pf h
    rw [hok] at hs
    exact absurd hs (by simp)
  | clear => simp [step] at hs
  | size => simp [step] at hs

/-! ### Runs -/

/-- **Recycling safety.** The calls made on an initialised queue recycle its buffers safely exactly
if each frame starts while the free list is empty or holds a permanent buffer. -/
theorem recycling_safe_iff (pf : Platform) (c b : ℕ) (calls : List Call) :
    Along (step pf) (Recycles pf) (initialised pf c b) calls ↔
      Along (step pf) CanServe (initialised pf c b) calls :=
  along_congr (inv_step pf c b) (fun _ _ h => recycles_iff h) (inv_initialised pf c b) calls

/-- While fewer than `c` frames are queued, one of the `c` permanent buffers is free. -/
theorem canServe_of_keepsUp (h : Inv c b s) (hk : KeepsUp c s call) : CanServe s call := by
  intro x hx hst
  have hlt := hk x hx hst
  have hperm := h.owns.perm
  have hq := List.countP_le_length (p := isPermanent s.heap) (l := s.encodedFrameQueue)
  rw [owned, hst.2.2.2, List.nil_append, List.countP_append] at hperm
  right
  by_contra hnone
  have hzero : s.freeList.countP (isPermanent s.heap) = 0 :=
    List.countP_eq_zero.2 fun p hp hpp => hnone ⟨p, hp, hpp⟩
  omega

/-- A call that returns has found the buffer it needed. -/
lemma canServe_of_ok {o : Result} {s' : FrameQueue} (h : Inv c b s)
    (hs : step pf s call = .ok (o, s')) : CanServe s call := by
  rintro x rfl hst
  by_contra hno
  rw [step, writeBack_of_starts hst, startFrame, takeBuffer_fault h hno] at hs
  exact absurd hs (by simp)

/-! ### The run that goes wrong -/

/-- A fragment of one byte. -/
def fragment (flags : BitVec 32) (byte : UInt8) : BufferHeader where
  cmd := 0
  data := [byte]
  length := 1
  flags := flags
  dts := 0
  length_le := le_refl _
  length_lt := by decide

/-- A whole frame in one fragment: `FRAME_START` and `FRAME_END`. -/
abbrev wholeFrame (byte : UInt8) : BufferHeader := fragment 6 byte

/-- The reader falls one frame behind a queue of one slot, and catches up: the temporary buffer
allocated meanwhile comes back to the free list alone. -/
def fallBehind : List Call :=
  [.writeBack (some (wholeFrame 1)), .writeBack (some (wholeFrame 2)), .readFront,
    .writeBack (some (wholeFrame 3)), .readFront, .writeBack (some (wholeFrame 4))]

/-- The sixth call pops the free list it has just drained. -/
theorem fallBehind_unsafe :
    ¬ Along (step ⟨UInt32.size, fun _ _ => 0⟩) (Recycles ⟨UInt32.size, fun _ _ => 0⟩)
      (initialised ⟨UInt32.size, fun _ _ => 0⟩ 1 1) fallBehind := by
  refine not_along_of_run_error (f := .popFront) (fun s call hs hf => ?_) ?_
  · exact absurd (hs.2 _ hf) (by decide)
  · rfl

end RcControl.FrameQueue
