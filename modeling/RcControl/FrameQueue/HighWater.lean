import RcControl.FrameQueue.Recycling

/-!
# How many buffers there are

A buffer is allocated only when every other is queued or pending, so there are never more buffers than
the `c` of `init`, or than frames were queued and pending at one time (`live_le_run`).
-/

namespace RcControl.FrameQueue

open Mmal Lib.Run

/-- The frames that are queued or pending. -/
def inUse (s : FrameQueue) : ℕ := s.encodedFrameQueue.length + s.pending.length

/-- The most frames that were queued and pending at one time in a run. -/
def highWater (pf : Platform) : FrameQueue → List Call → ℕ
  | s, [] => s.inUse
  | s, call :: calls =>
    match step pf s call with
    | .error _ => s.inUse
    | .ok (_, s') => max s.inUse (highWater pf s' calls)

section HighWater

variable {pf : Platform} {c b p : ℕ} {s s' t : FrameQueue} {x : BufferHeader} {call : Call}
  {calls : List Call} {r : Bool} {o : Result} {os : List Result}

lemma length_owned (s : FrameQueue) : s.owned.length = s.inUse + s.freeList.length := by
  simp only [owned, List.length_append, inUse]
  omega

/-- The buffer of a new frame is one of those there are, or all of them are in use. -/
lemma Took.length_owned (h : Took c b s p s') :
    s'.owned.length + 1 ≤ s.owned.length ∨ s.freeList = [] ∧ s'.owned.length = s.inUse := by
  have hinUse : s'.inUse = s.inUse := by simp only [inUse, h.encoded, h.pending]
  rw [FrameQueue.length_owned, FrameQueue.length_owned, hinUse]
  rcases h.source with ⟨hnil, hnil', -⟩ | hdrop
  · exact Or.inr ⟨hnil, by rw [hnil']; rfl⟩
  · have hle : (s.freeList.dropWhile fun q => !isPermanent s.heap q).length ≤ s.freeList.length :=
      (List.dropWhile_sublist _).length_le
    rw [hdrop, List.length_cons] at hle
    exact Or.inl (by omega)

lemma length_owned_place (s : FrameQueue) (p : ℕ) (f : FrameBuffer) :
    (place s p f).owned.length = s.owned.length + 1 ∧ (place s p f).inUse = s.inUse + 1 := by
  unfold place
  split
  · simp only [owned, inUse, List.length_append, List.length_singleton]
    omega
  · simp only [owned, inUse, List.length_append, List.length_singleton]
    omega

/-- A frame that starts takes a buffer there is, or leaves as many as are in use. -/
lemma startFrame_length (h : Inv c b s) (hst : StartsFrame s x)
    (hs : startFrame pf s x = .ok (r, s')) :
    s'.owned.length ≤ s.owned.length ∨ s'.owned.length ≤ s'.inUse := by
  have hcan : CanTake s := by
    by_contra hno
    simp [startFrame, takeBuffer_fault h hno] at hs
  obtain ⟨p, s₁, f, -, ht, -, -, -, heq⟩ := startFrame_ok pf h hcan (h.bufferSize ▸ hst.2.2.1)
  rw [heq, Except.ok.injEq, Prod.mk.injEq] at hs
  obtain ⟨-, rfl⟩ := hs
  obtain ⟨hlen, huse⟩ := length_owned_place s₁ p f
  have hinUse : s₁.inUse = s.inUse := by simp only [inUse, ht.encoded, ht.pending]
  rcases ht.length_owned with hle | ⟨-, heq⟩
  · exact Or.inl (by omega)
  · exact Or.inr (by omega)

lemma extendFrame_length (h : Inv c b s) (hp : s.pending = [p])
    (hs : extendFrame pf s x p p = .ok (r, s')) : s'.owned.length = s.owned.length := by
  obtain ⟨f, hf, -⟩ := h.owns.live p (by simp [owned, hp])
  rcases extendFrame_cases hf hp hs with ⟨-, -, rfl⟩ | ⟨-, f', -, -, rfl⟩
  · simp only [owned, hp, List.length_append, List.length_singleton, List.length_nil]
    omega
  · split
    · simp only [owned, hp, List.length_append, List.length_singleton, List.length_nil]
      omega
    · rfl

/-- **One call adds a buffer only if all are in use.** -/
theorem step_length (h : Inv c b s) (hs : step pf s call = .ok (o, s')) :
    s'.owned.length ≤ s.owned.length ∨ s'.owned.length ≤ s'.inUse := by
  cases leaves_of_step hs with
  | writes hw =>
    rcases writeBack_cases h hw with rfl | ⟨y, -, hst, hstart⟩ | ⟨y, p, -, -, hp, hext⟩
    · exact Or.inl (le_refl _)
    · exact startFrame_length h hst hstart
    · exact Or.inl (extendFrame_length h hp hext).le
  | reads =>
    have hlen : (readFront s).2.owned.length = s.owned.length := by
      rcases hq : s.encodedFrameQueue with _ | ⟨p, rest⟩
      · rw [readFront_nil hq]
      · rw [readFront_eq p rest hq]
        simp only [owned, hq, List.length_append, List.length_cons, List.length_nil]
        omega
    exact Or.inl hlen.le
  | clears =>
    left
    simp only [owned, clear, List.length_append, List.length_nil]
    omega
  | sizes => exact Or.inl (le_refl _)

lemma inUse_le_highWater (pf : Platform) (s : FrameQueue) (calls : List Call) :
    s.inUse ≤ highWater pf s calls := by
  cases calls with
  | nil => exact le_refl _
  | cons call calls =>
    simp only [highWater]
    split
    · exact le_refl _
    · exact le_max_left _ _

/-- The run rule: what bounds the buffers at the start and bounds the frames in use bounds the buffers. -/
theorem live_le_run {n : ℕ} (h : Inv c b s) (hn : s.owned.length ≤ n)
    (hhigh : highWater pf s calls ≤ n) (hs : run (step pf) s calls = .ok (os, t)) :
    t.owned.length ≤ n := by
  induction calls generalizing s os with
  | nil =>
    simp only [run_nil, Except.ok.injEq, Prod.mk.injEq] at hs
    exact hs.2 ▸ hn
  | cons call calls ih =>
    obtain ⟨o, s', os', hstep, hrun, -⟩ := run_cons_eq_ok.1 hs
    simp only [highWater, hstep] at hhigh
    have hrest : highWater pf s' calls ≤ n := le_trans (le_max_right _ _) hhigh
    refine ih (inv_step pf c b s call o s' h hstep) ?_ hrest hrun
    rcases step_length h hstep with hle | hle
    · exact hle.trans hn
    · exact hle.trans ((inUse_le_highWater pf s' calls).trans hrest)

lemma length_freeList_fillFreeList (pf : Platform) (n : ℕ) (s : FrameQueue) :
    (fillFreeList pf n s).freeList.length = s.freeList.length + n := by
  induction n generalizing s with
  | zero => rfl
  | succ n ih =>
    simp only [fillFreeList, ih, newBuffer, List.length_append, List.length_singleton]
    omega

lemma length_owned_initialised (pf : Platform) (c b : ℕ) : (initialised pf c b).owned.length = c := by
  obtain ⟨hp, hq⟩ := fillFreeList_containers pf c (construct true c b)
  simp only [initialised, owned, List.length_append, hp, hq, length_freeList_fillFreeList]
  simp [construct]

end HighWater

/-- Who owns which buffer, and how many there are when `n` frames were in use at one time at most. -/
structure Accounted (c n : ℕ) (s : FrameQueue) : Prop where
  /-- The live buffers are those in the containers. -/
  live : ∀ p, (s.heap p).isSome ↔ p ∈ s.pending ++ s.encodedFrameQueue ++ s.freeList
  /-- Each is in one container, once. -/
  once : (s.pending ++ s.encodedFrameQueue ++ s.freeList).Nodup
  pending : s.pending.length ≤ 1
  permanent : (s.pending ++ s.encodedFrameQueue ++ s.freeList).countP (isPermanent s.heap) = c
  bound : (s.pending ++ s.encodedFrameQueue ++ s.freeList).length ≤ max c n

/-- **Ownership and the high-water mark.** After every run of calls on an initialised queue that does
not fault, each live buffer is in exactly one container, once, `c` of them are permanent, and there are
no more of them than `c`, or than frames were queued and pending at one time. -/
theorem accounted (pf : Platform) (c b : ℕ) {calls : List Call} {os : List Result} {t : FrameQueue}
    (h : run (step pf) (initialised pf c b) calls = .ok (os, t)) :
    Accounted c (highWater pf (initialised pf c b) calls) t := by
  have hinit := inv_initialised pf c b
  have hinv : Inv c b t := inv_run (inv_step pf c b) hinit h
  refine ⟨fun p => ⟨fun hp => ?_, fun hp => ?_⟩, hinv.owns.nodup, hinv.pending, hinv.owns.perm, ?_⟩
  · obtain ⟨f, hf⟩ := Option.isSome_iff_exists.1 hp
    exact hinv.owns.only p f hf
  · obtain ⟨f, hf, -⟩ := hinv.owns.live p hp
    rw [hf]
    rfl
  · refine live_le_run hinit ?_ (le_max_right _ _) h
    rw [length_owned_initialised]
    exact le_max_left _ _

/-- One slot and two frames, of which one is read. -/
theorem accounted_twoFrames :
    ∃ os t, run (step ⟨UInt32.size, fun _ _ => 0⟩) (initialised ⟨UInt32.size, fun _ _ => 0⟩ 1 1)
        [.writeBack (some (wholeFrame 1)), .writeBack (some (wholeFrame 2)), .readFront] = .ok (os, t) ∧
      Accounted 1 (highWater ⟨UInt32.size, fun _ _ => 0⟩ (initialised ⟨UInt32.size, fun _ _ => 0⟩ 1 1)
        [.writeBack (some (wholeFrame 1)), .writeBack (some (wholeFrame 2)), .readFront]) t :=
  ⟨_, _, rfl, accounted _ 1 1 rfl⟩

end RcControl.FrameQueue
