import RcControl.FrameQueue.Model
import RcControl.Lib.Run
import Mathlib.Data.List.Perm.Basic
import Mathlib.Data.List.TakeWhile
import Mathlib.Order.Basic

/-!
# Who owns which buffer

In every state the calls reach from an initialised queue, the three containers hold the live buffers,
each once, `capacity` of them permanent (`Inv`). `Owns` says it of a list of pointers, so that a
buffer in the hands of `write_back` is one more pointer at the head of that list; the order of the
list does not matter (`Owns.of_perm`).

What the calls do to the buffers is said once each: `copy_ok` and `append_ok` for the payload,
`drain_ok` and `takeBuffer_ok` for the buffer of a new frame, `takeBuffer_fault` for the case the
code does not look at, `startFrame_ok` and `extendFrame_cases` for the two halves of `write_back`.
-/

namespace RcControl.FrameQueue

open Mmal Lib.Run

/-! ### The payload of one buffer -/

section Payload

variable {pf : Platform} {b b' : FrameBuffer} {x : BufferHeader}

lemma Platform.add_le (pf : Platform) (m n : ℕ) : pf.add m n ≤ m + n := Nat.mod_le _ _

lemma FrameBuffer.length_content (h : b.length ≤ b.capacity) : b.content.2.length = b.length := by
  have := b.block
  simp only [content, List.length_take]
  omega

/-- `copy` fits whatever `write_back` lets through, and puts flags and bytes in the buffer. -/
theorem FrameBuffer.copy_ok (h : x.length ≤ b.capacity) :
    ∃ b', b.copy x = .ok b' ∧ b'.content = (Flags.ofHeader x, x.payload) ∧ b'.length = x.length ∧
      b'.capacity = b.capacity ∧ b'.temporary = b.temporary := by
  have hfit : 0 + x.payload.length ≤ b.capacity := by simpa using h
  unfold copy memcpy
  simp only [dif_pos hfit]
  refine ⟨_, rfl, ?_, rfl, rfl, rfl⟩
  simp only [content, List.take_zero, List.nil_append, Prod.mk.injEq, true_and]
  rw [List.take_append_of_le_length (by simp), List.take_of_length_le (by simp)]

/-- `append` puts the bytes behind the ones in use; the flags are those of the last fragment. -/
theorem FrameBuffer.append_ok (hl : b.length ≤ b.capacity)
    (h : b.length + x.length ≤ b.capacity) (hadd : pf.add b.length x.length = b.length + x.length) :
    ∃ b', b.append pf x = .ok b' ∧ b'.content = (Flags.ofHeader x, b.content.2 ++ x.payload) := by
  have hfit : b.length + x.payload.length ≤ b.capacity := by simpa using h
  have hblock := b.block
  unfold append memcpy
  simp only [dif_pos hfit]
  refine ⟨_, rfl, ?_⟩
  simp only [content, hadd, Prod.mk.injEq, true_and]
  have hlen : (b.data.take b.length ++ x.payload).length = b.length + x.length := by
    simp only [List.length_append, List.length_take, BufferHeader.length_payload]
    omega
  rw [List.take_append_of_le_length hlen.ge, List.take_of_length_le hlen.le]

/-- An `append` that returns has found room. -/
lemma FrameBuffer.append_fits (h : b.append pf x = .ok b') : b.length + x.length ≤ b.capacity := by
  unfold append memcpy at h
  by_cases hfit : b.length + x.payload.length ≤ b.capacity
  · rwa [BufferHeader.length_payload] at hfit
  · rw [dif_neg hfit] at h
    exact absurd h (by simp)

/-- What an `append` that does not run over the block leaves alone. -/
theorem FrameBuffer.append_frame (h : b.append pf x = .ok b') :
    b'.capacity = b.capacity ∧ b'.temporary = b.temporary ∧ b'.flags = Flags.ofHeader x ∧
      b'.length ≤ b.capacity := by
  unfold append memcpy at h
  by_cases hfit : b.length + x.payload.length ≤ b.capacity
  · simp only [dif_pos hfit, Except.ok.injEq] at h
    subst h
    rw [BufferHeader.length_payload] at hfit
    exact ⟨rfl, rfl, rfl, le_trans (pf.add_le _ _) hfit⟩
  · rw [dif_neg hfit] at h
    exact absurd h (by simp)

end Payload

/-! ### Ownership -/

/-- A live buffer that is not temporary. -/
def isPermanent (heap : Heap) (p : ℕ) : Bool :=
  match heap p with
  | none => false
  | some b => !b.isTemporary

/-- The pointers of `ps` are the live buffers, each once: `c` of them permanent, all with slots of
`b` bytes. -/
structure Owns (c b : ℕ) (heap : Heap) (next : ℕ) (ps : List ℕ) : Prop where
  nodup : ps.Nodup
  live : ∀ p ∈ ps, ∃ f, heap p = some f ∧ f.capacity = b ∧ f.length ≤ b
  only : ∀ p f, heap p = some f → p ∈ ps
  fresh : ∀ p, next ≤ p → heap p = none
  perm : ps.countP (isPermanent heap) = c

section Ownership

variable {c b next p : ℕ} {heap : Heap} {ps qs : List ℕ} {f f' : FrameBuffer}

theorem Owns.of_perm (h : Owns c b heap next ps) (hp : ps.Perm qs) : Owns c b heap next qs where
  nodup := hp.nodup_iff.1 h.nodup
  live q hq := h.live q (hp.mem_iff.2 hq)
  only q f hf := hp.mem_iff.1 (h.only q f hf)
  fresh := h.fresh
  perm := by rw [← hp.countP_eq]; exact h.perm

lemma Owns.lt_next (h : Owns c b heap next ps) (hp : p ∈ ps) : p < next := by
  obtain ⟨f, hf, -⟩ := h.live p hp
  by_contra hlt
  rw [h.fresh p (not_lt.1 hlt)] at hf
  exact absurd hf (by simp)

lemma isPermanent_update_of_ne {q : ℕ} (o : Option FrameBuffer) (h : q ≠ p) :
    isPermanent (Function.update heap p o) q = isPermanent heap q := by
  unfold isPermanent
  rw [Function.update_of_ne h]

/-- Two heaps that agree on a list agree on how many of its buffers are permanent. -/
lemma countP_isPermanent_congr {heap' : Heap} (h : ∀ q ∈ ps, heap' q = heap q) :
    ps.countP (isPermanent heap') = ps.countP (isPermanent heap) := by
  apply List.countP_congr
  intro q hq
  unfold isPermanent
  rw [h q hq]

/-- `new` hands out a buffer nobody owns. -/
theorem Owns.new (h : Owns c b heap next ps) (junk : ℕ → UInt8) (temporary : Bool) :
    Owns (c + if temporary then 0 else 1) b
      (Function.update heap next (some (FrameBuffer.new junk b temporary))) (next + 1)
      (next :: ps) where
  nodup := List.nodup_cons.2 ⟨fun hn => absurd (h.lt_next hn) (lt_irrefl _), h.nodup⟩
  live q hq := by
    rcases List.mem_cons.1 hq with rfl | hq
    · exact ⟨_, Function.update_self .., rfl, Nat.zero_le _⟩
    · rw [Function.update_of_ne (h.lt_next hq).ne]
      exact h.live q hq
  only q f hf := by
    by_cases hq : q = next
    · simp [hq]
    · rw [Function.update_of_ne hq] at hf
      exact List.mem_cons_of_mem _ (h.only q f hf)
  fresh q hq := by
    rw [Function.update_of_ne (by omega)]
    exact h.fresh q (by omega)
  perm := by
    rw [List.countP_cons, countP_isPermanent_congr fun q hq =>
      Function.update_of_ne (h.lt_next hq).ne .., h.perm]
    unfold isPermanent
    rw [Function.update_self]
    cases temporary <;> simp [FrameBuffer.new, FrameBuffer.isTemporary]

/-- Overwriting a buffer in place keeps who owns what. -/
theorem Owns.write (f' : FrameBuffer) (h : Owns c b heap next ps) (hp : heap p = some f) (hc : f'.capacity = b)
    (hl : f'.length ≤ b) (ht : f'.temporary = f.temporary) :
    Owns c b (Function.update heap p (some f')) next ps where
  nodup := h.nodup
  live q hq := by
    by_cases hqp : q = p
    · subst hqp
      exact ⟨f', Function.update_self .., hc, hl⟩
    · rw [Function.update_of_ne hqp]
      exact h.live q hq
  only q g hg := by
    by_cases hqp : q = p
    · subst hqp
      exact h.only q f hp
    · rw [Function.update_of_ne hqp] at hg
      exact h.only q g hg
  fresh q hq := by
    have hqp : q ≠ p := by
      rintro rfl
      rw [h.fresh q hq] at hp
      exact absurd hp (by simp)
    rw [Function.update_of_ne hqp]
    exact h.fresh q hq
  perm := by
    rw [← h.perm]
    apply List.countP_congr
    intro q _
    by_cases hqp : q = p
    · subst hqp
      unfold isPermanent
      rw [Function.update_self, hp]
      simp [FrameBuffer.isTemporary, ht]
    · rw [isPermanent_update_of_ne _ hqp]

/-- `delete` of a temporary buffer gives up its owner. -/
theorem Owns.delete (h : Owns c b heap next (p :: ps)) (hp : isPermanent heap p = false) :
    Owns c b (Function.update heap p none) next ps := by
  obtain ⟨hnot, hnd⟩ := List.nodup_cons.1 h.nodup
  have hne : ∀ q ∈ ps, q ≠ p := fun q hq hqp => hnot (hqp ▸ hq)
  refine ⟨hnd, fun q hq => ?_, fun q g hg => ?_, fun q hq => ?_, ?_⟩
  · rw [Function.update_of_ne (hne q hq)]
    exact h.live q (List.mem_cons_of_mem _ hq)
  · by_cases hqp : q = p
    · rw [hqp, Function.update_self] at hg
      exact absurd hg (by simp)
    · rw [Function.update_of_ne hqp] at hg
      exact (List.mem_cons.1 (h.only q g hg)).resolve_left hqp
  · by_cases hqp : q = p
    · rw [hqp, Function.update_self]
    · rw [Function.update_of_ne hqp]
      exact h.fresh q hq
  · rw [countP_isPermanent_congr fun q hq => Function.update_of_ne (hne q hq) .., ← h.perm,
      List.countP_cons_of_neg (by simp [hp])]

lemma isTemporary_iff (hf : heap p = some f) :
    f.isTemporary = true ↔ isPermanent heap p = false := by
  unfold isPermanent
  simp [hf]

end Ownership

/-! ### The buffer of a new frame -/

section Take

variable {c b next : ℕ} {heap : Heap}

lemma dropWhile_congr {α : Type*} {q r : α → Bool} {l : List α} (h : ∀ a ∈ l, q a = r a) :
    l.dropWhile q = l.dropWhile r := by
  induction l with
  | nil => rfl
  | cons a l ih =>
    rw [List.dropWhile_cons, List.dropWhile_cons, h a (by simp),
      ih fun a ha => h a (List.mem_cons_of_mem _ ha)]

/-- The loop of `write_back` deletes the temporary buffers in front of the first permanent one. -/
theorem drain_ok (l rest : List ℕ) (h : Owns c b heap next (l ++ rest)) :
    ∃ heap', drainTemporaries heap l = .ok (heap', l.dropWhile fun p => !isPermanent heap p) ∧
      Owns c b heap' next ((l.dropWhile fun p => !isPermanent heap p) ++ rest) ∧
      ∀ p ∈ (l.dropWhile fun p => !isPermanent heap p) ++ rest, heap' p = heap p := by
  induction l generalizing heap with
  | nil => exact ⟨heap, rfl, h, fun _ _ => rfl⟩
  | cons p l ih =>
    obtain ⟨f, hf, -⟩ := h.live p (by simp)
    have htemp := isTemporary_iff hf
    by_cases hp : isPermanent heap p
    · have ht : f.isTemporary = false := by simpa [hp] using htemp
      refine ⟨heap, ?_, ?_, fun q hq => rfl⟩
      · simp [drainTemporaries, hf, ht, hp]
      · simpa [hp] using h
    · have hp : isPermanent heap p = false := by simpa using hp
      have hdel : Owns c b (Function.update heap p none) next (l ++ rest) :=
        Owns.delete (by simpa using h) hp
      have hne : ∀ q ∈ l ++ rest, q ≠ p := by
        have hnot := (List.nodup_cons.1 h.nodup).1
        exact fun q hq hqp => hnot (hqp ▸ hq)
      -- deleting `p` does not change what the buffers behind it are
      have hdrop : (l.dropWhile fun q => !isPermanent (Function.update heap p none) q) =
          l.dropWhile fun q => !isPermanent heap q := by
        apply dropWhile_congr
        intro q hq
        rw [isPermanent_update_of_ne _ (hne q (by simp [hq]))]
      obtain ⟨heap', hd, hown, hsame⟩ := ih hdel
      rw [hdrop] at hd hown hsame
      refine ⟨heap', ?_, ?_, fun q hq => ?_⟩
      · simpa [drainTemporaries, hf, htemp.2 hp, hp] using hd
      · simpa [hp] using hown
      · have hq' : q ∈ (l.dropWhile fun q => !isPermanent heap q) ++ rest := by simpa [hp] using hq
        have hmem : q ∈ l ++ rest := by
          rcases List.mem_append.1 hq' with hq' | hq'
          · exact List.mem_append_left _ ((List.dropWhile_sublist _).subset hq')
          · exact List.mem_append_right _ hq'
        rw [hsame q hq', Function.update_of_ne (hne q hmem)]

end Take

/-- The pointers in the three containers. -/
def owned (s : FrameQueue) : List ℕ := s.pending ++ s.encodedFrameQueue ++ s.freeList

/-- **The invariant of an initialised queue** with `c` slots of `b` bytes. -/
structure Inv (c b : ℕ) (s : FrameQueue) : Prop where
  inited : s.inited = true
  bufferSize : s.bufferSize = b
  pending : s.pending.length ≤ 1
  owns : Owns c b s.heap s.next s.owned

/-- The free list is empty or holds a permanent buffer: what `takeBuffer` needs. -/
def CanTake (s : FrameQueue) : Prop :=
  s.freeList = [] ∨ ∃ p ∈ s.freeList, isPermanent s.heap p = true

instance (s : FrameQueue) : Decidable (CanTake s) := by unfold CanTake; infer_instance

/-- What a successful `takeBuffer` does: the buffer `p` is now outside the three containers. -/
structure Took (c b : ℕ) (s : FrameQueue) (p : ℕ) (s' : FrameQueue) : Prop where
  inited : s'.inited = s.inited
  bufferSize : s'.bufferSize = s.bufferSize
  pending : s'.pending = s.pending
  encoded : s'.encodedFrameQueue = s.encodedFrameQueue
  owns : Owns c b s'.heap s'.next (p :: s'.owned)
  same : ∀ q ∈ s'.owned, s'.heap q = s.heap q
  /-- The buffer is freshly allocated, or the first permanent one of the free list. -/
  source : (s.freeList = [] ∧ s'.freeList = [] ∧ s.heap p = none) ∨
    (s.freeList.dropWhile (fun q => !isPermanent s.heap q) = p :: s'.freeList)

section Calls

variable {pf : Platform} {c b : ℕ} {s s' : FrameQueue} {x : BufferHeader} {r : Bool}

lemma Inv.pending_cases (h : Inv c b s) : s.pending = [] ∨ ∃ p, s.pending = [p] := by
  have := h.pending
  rcases hp : s.pending with _ | ⟨p, _ | ⟨q, l⟩⟩
  · exact Or.inl rfl
  · exact Or.inr ⟨p, rfl⟩
  · simp [hp] at this

theorem takeBuffer_ok (pf : Platform) (h : Inv c b s) (hcan : CanTake s) :
    ∃ p s', takeBuffer pf s = .ok (p, s') ∧ Took c b s p s' := by
  rcases hfree : s.freeList with _ | ⟨q, rest⟩
  · -- nothing to recycle: a new temporary buffer
    have htake : takeBuffer pf s = .ok (s.next, (newBuffer pf s true).2) := by
      simp only [takeBuffer, hfree, newBuffer]
    refine ⟨s.next, _, htake, rfl, rfl, rfl, rfl, ?_, ?_, ?_⟩
    · have := h.owns.new (pf.malloc s.next) true
      simpa [owned, newBuffer, h.bufferSize] using this
    · intro q hq
      exact Function.update_of_ne (h.owns.lt_next hq).ne ..
    · exact Or.inl ⟨hfree, hfree, h.owns.fresh _ (le_refl _)⟩
  · have hperm : (q :: rest) ++ (s.pending ++ s.encodedFrameQueue) |>.Perm s.owned := by
      rw [owned, hfree]
      exact List.perm_append_comm
    obtain ⟨heap, hd, hown, hsame⟩ := drain_ok _ _ (h.owns.of_perm hperm.symm)
    -- a permanent buffer in the list stops the loop
    have hne : (q :: rest).dropWhile (fun p => !isPermanent s.heap p) ≠ [] := by
      rcases hcan with hnil | ⟨p, hp, hpp⟩
      · simp [hfree] at hnil
      · rw [hfree] at hp
        intro hnil
        simpa [hpp] using List.dropWhile_eq_nil_iff.1 hnil p hp
    obtain ⟨p, rest', hdrop⟩ := List.exists_cons_of_ne_nil hne
    rw [hdrop] at hd hown hsame
    have htake : takeBuffer pf s = .ok (p, { s with heap := heap, freeList := rest' }) := by
      simp only [takeBuffer, hfree, hd]
    refine ⟨p, _, htake, rfl, rfl, rfl, rfl, ?_, ?_, ?_⟩
    · refine hown.of_perm ?_
      rw [List.cons_append]
      exact List.Perm.cons _ List.perm_append_comm
    · intro q hq
      exact hsame q (List.mem_cons_of_mem _ (List.perm_append_comm.mem_iff.1 hq))
    · exact Or.inr (hfree ▸ hdrop)

/-- A free list of temporary buffers only is drained, and then popped. -/
theorem takeBuffer_fault (h : Inv c b s) (hcan : ¬ CanTake s) :
    takeBuffer pf s = .error .popFront := by
  simp only [CanTake, not_or, not_exists, not_and, Bool.not_eq_true] at hcan
  obtain ⟨hne, htemp⟩ := hcan
  obtain ⟨q, rest, hfree⟩ := List.exists_cons_of_ne_nil hne
  have hperm : (q :: rest) ++ (s.pending ++ s.encodedFrameQueue) |>.Perm s.owned := by
    rw [owned, hfree]
    exact List.perm_append_comm
  obtain ⟨heap, hd, -⟩ := drain_ok _ _ (h.owns.of_perm hperm.symm)
  have hnil : (q :: rest).dropWhile (fun p => !isPermanent s.heap p) = [] := by
    rw [List.dropWhile_eq_nil_iff]
    intro p hp
    simp [htemp p (hfree ▸ hp)]
  rw [hnil] at hd
  simp only [takeBuffer, hfree, hd]

/-- A fragment without bytes and flags, which `write_back` skips. -/
abbrev Skipped (x : BufferHeader) : Prop := x.length = 0 ∧ x.flags = 0

/-- A fragment that is neither refused nor skipped and finds no pending frame. -/
def StartsFrame (s : FrameQueue) (x : BufferHeader) : Prop :=
  s.inited = true ∧ ¬ Skipped x ∧ x.length ≤ s.bufferSize ∧ s.pending = []

instance (s : FrameQueue) (x : BufferHeader) : Decidable (StartsFrame s x) := by
  unfold StartsFrame; infer_instance

lemma writeBack_of_skipped (h : s.inited = true) (hx : Skipped x) :
    writeBack pf s (some x) = .ok (true, s) := by
  simp only [writeBack, h, Bool.not_true, Bool.false_eq_true, if_false]
  rw [if_pos hx]

lemma writeBack_of_large (h : s.inited = true) (hx : ¬ Skipped x) (hl : s.bufferSize < x.length) :
    writeBack pf s (some x) = .ok (false, s) := by
  simp only [writeBack, h, Bool.not_true, Bool.false_eq_true, if_false]
  rw [if_neg hx, if_pos hl]

theorem writeBack_of_starts (h : StartsFrame s x) :
    writeBack pf s (some x) = startFrame pf s x := by
  obtain ⟨hi, hz, hl, hp⟩ := h
  simp only [writeBack, hi, Bool.not_true, Bool.false_eq_true, if_false]
  rw [if_neg hz, if_neg (not_lt.2 hl)]
  simp only [hp]

theorem writeBack_of_pending {p : ℕ} (h : s.inited = true) (hx : ¬ Skipped x)
    (hl : x.length ≤ s.bufferSize) (hp : s.pending = [p]) :
    writeBack pf s (some x) = extendFrame pf s x p p := by
  simp only [writeBack, h, Bool.not_true, Bool.false_eq_true, if_false]
  rw [if_neg hx, if_neg (not_lt.2 hl)]
  simp only [hp, List.getLast_singleton]

/-- The five ways through the tests of `write_back`. -/
theorem writeBack_shapes (h : Inv c b s) (o : Option BufferHeader) :
    o = none ∨ ∃ x, o = some x ∧ (Skipped x ∨ (¬ Skipped x ∧ b < x.length) ∨ StartsFrame s x ∨
      (¬ Skipped x ∧ x.length ≤ b ∧ ∃ p, s.pending = [p])) := by
  rcases o with _ | x
  · exact Or.inl rfl
  refine Or.inr ⟨x, rfl, ?_⟩
  by_cases hz : Skipped x
  · exact Or.inl hz
  by_cases hl : b < x.length
  · exact Or.inr (Or.inl ⟨hz, hl⟩)
  have hl := not_lt.1 hl
  rcases h.pending_cases with hp | hp
  · exact Or.inr (Or.inr (Or.inl ⟨h.inited, hz, h.bufferSize ▸ hl, hp⟩))
  · exact Or.inr (Or.inr (Or.inr ⟨hz, hl, hp⟩))

/-- The buffer `p`, now holding `f`, goes where its flags say. -/
def place (s : FrameQueue) (p : ℕ) (f : FrameBuffer) : FrameQueue :=
  if f.isConfig then
    { s with heap := Function.update s.heap p (some f), pending := s.pending ++ [p] }
  else
    { s with
      heap := Function.update s.heap p (some f)
      encodedFrameQueue := s.encodedFrameQueue ++ [p] }

theorem startFrame_ok (pf : Platform) (h : Inv c b s) (hcan : CanTake s) (hx : x.length ≤ b) :
    ∃ p s₁ f, takeBuffer pf s = .ok (p, s₁) ∧ Took c b s p s₁ ∧
      f.content = (Flags.ofHeader x, x.payload) ∧ f.length = x.length ∧
      Owns c b (Function.update s₁.heap p (some f)) s₁.next (p :: s₁.owned) ∧
      startFrame pf s x = .ok (true, place s₁ p f) := by
  obtain ⟨p, s₁, htake, htook⟩ := takeBuffer_ok pf h hcan
  obtain ⟨f₀, hf₀, hcap, -⟩ := htook.owns.live p (by simp)
  obtain ⟨f, hcopy, hcont, hlen, hfcap, htemp⟩ :=
    FrameBuffer.copy_ok (b := f₀.reset) (x := x) (hx.trans (hcap ▸ le_refl _))
  have hown := htook.owns.write f hf₀ (hfcap.trans hcap) (hlen ▸ hx) htemp
  refine ⟨p, s₁, f, htake, htook, hcont, hlen, hown, ?_⟩
  simp only [startFrame, htake, hf₀, hcopy, place]
  split <;> rfl

/-- What a fragment that meets the pending frame `p` can do. -/
theorem extendFrame_cases {p : ℕ} {f : FrameBuffer} (hf : s.heap p = some f) (hp : s.pending = [p])
    (hs : extendFrame pf s x p p = .ok (r, s')) :
    (s.bufferSize < pf.add f.length x.length ∧ r = false ∧
      s' = { s with freeList := s.freeList ++ [p], pending := [] }) ∨
    (pf.add f.length x.length ≤ s.bufferSize ∧ ∃ f', f.append pf x = .ok f' ∧ r = true ∧
      s' = if f'.isFrameEnd then
        { s with
          heap := Function.update s.heap p (some f')
          pending := []
          encodedFrameQueue := s.encodedFrameQueue ++ [p] }
        else { s with heap := Function.update s.heap p (some f') }) := by
  simp only [extendFrame, hf] at hs
  by_cases hover : s.bufferSize < pf.add f.length x.length
  · left
    simp only [hover, if_true, Except.ok.injEq, Prod.mk.injEq] at hs
    exact ⟨hover, hs.1.symm, hs.2.symm⟩
  · right
    refine ⟨not_lt.1 hover, ?_⟩
    rw [if_neg hover] at hs
    rcases happ : f.append pf x with g | f'
    · simp [happ] at hs
    · simp only [happ, hp, List.dropLast_singleton] at hs
      refine ⟨f', rfl, ?_⟩
      split at hs <;> simp_all

/-- The three kinds of `write_back` that return. -/
theorem writeBack_cases {o : Option BufferHeader} (h : Inv c b s)
    (hs : writeBack pf s o = .ok (r, s')) :
    s' = s ∨
    (∃ x, o = some x ∧ StartsFrame s x ∧ startFrame pf s x = .ok (r, s')) ∨
    (∃ x p, o = some x ∧ x.length ≤ b ∧ s.pending = [p] ∧ extendFrame pf s x p p = .ok (r, s')) := by
  rcases writeBack_shapes h o with rfl | ⟨x, rfl, hz | ⟨hz, hl⟩ | hst | ⟨hz, hl, p, hp⟩⟩
  · simp only [writeBack, Except.ok.injEq, Prod.mk.injEq] at hs
    exact Or.inl hs.2.symm
  · rw [writeBack_of_skipped h.inited hz, Except.ok.injEq, Prod.mk.injEq] at hs
    exact Or.inl hs.2.symm
  · rw [writeBack_of_large h.inited hz (h.bufferSize ▸ hl), Except.ok.injEq, Prod.mk.injEq] at hs
    exact Or.inl hs.2.symm
  · exact Or.inr (Or.inl ⟨x, rfl, hst, writeBack_of_starts hst ▸ hs⟩)
  · rw [writeBack_of_pending h.inited hz (h.bufferSize ▸ hl) hp] at hs
    exact Or.inr (Or.inr ⟨x, p, rfl, hl, hp, hs⟩)

/-! ### The invariant is kept -/

theorem Inv.place {p : ℕ} {s₁ : FrameQueue} {f : FrameBuffer} (h : Inv c b s)
    (hp : s.pending = []) (ht : Took c b s p s₁)
    (hown : Owns c b (Function.update s₁.heap p (some f)) s₁.next (p :: s₁.owned)) :
    Inv c b (place s₁ p f) := by
  have hp₁ : s₁.pending = [] := ht.pending.trans hp
  unfold FrameQueue.place
  split
  · refine ⟨ht.inited.trans h.inited, ht.bufferSize.trans h.bufferSize, by simp [hp₁], ?_⟩
    simpa [owned, hp₁] using hown
  · refine ⟨ht.inited.trans h.inited, ht.bufferSize.trans h.bufferSize, by simp [hp₁], ?_⟩
    refine hown.of_perm ?_
    simp only [owned, hp₁, List.nil_append, List.append_assoc, List.singleton_append]
    exact List.perm_middle.symm

/-- `Took` and `startFrame_ok` for a `write_back` that has started a frame. -/
theorem inv_startFrame (h : Inv c b s) (hst : StartsFrame s x)
    (hs : startFrame pf s x = .ok (r, s')) : Inv c b s' := by
  by_cases hcan : CanTake s
  · obtain ⟨p, s₁, f, -, ht, -, -, hown, hstart⟩ :=
      startFrame_ok pf h hcan (h.bufferSize ▸ hst.2.2.1)
    rw [hstart, Except.ok.injEq, Prod.mk.injEq] at hs
    exact hs.2 ▸ h.place hst.2.2.2 ht hown
  · simp [startFrame, takeBuffer_fault h hcan] at hs

theorem inv_extendFrame {p : ℕ} (h : Inv c b s) (hp : s.pending = [p])
    (hs : extendFrame pf s x p p = .ok (r, s')) : Inv c b s' := by
  obtain ⟨f, hf, hcap, hlen⟩ := h.owns.live p (by simp [owned, hp])
  have hown := h.owns
  rcases extendFrame_cases hf hp hs with ⟨-, -, rfl⟩ | ⟨-, f', happ, -, rfl⟩
  · refine ⟨h.inited, h.bufferSize, by simp, hown.of_perm ?_⟩
    simp only [owned, hp, List.nil_append, ← List.append_assoc]
    exact (List.perm_append_singleton _ _).symm
  · obtain ⟨hcap', htemp', -, hlen'⟩ := FrameBuffer.append_frame happ
    have hown' := hown.write f' hf (hcap'.trans hcap) (hcap ▸ hlen') htemp'
    split
    · refine ⟨h.inited, h.bufferSize, by simp, hown'.of_perm ?_⟩
      simp only [owned, hp, List.nil_append, List.append_assoc, List.singleton_append]
      exact List.perm_middle.symm
    · exact ⟨h.inited, h.bufferSize, h.pending, hown'⟩

theorem inv_writeBack {o : Option BufferHeader} (h : Inv c b s)
    (hs : writeBack pf s o = .ok (r, s')) : Inv c b s' := by
  rcases writeBack_cases h hs with rfl | ⟨x, -, hst, hs⟩ | ⟨x, p, -, -, hp, hs⟩
  · exact h
  · exact inv_startFrame h hst hs
  · exact inv_extendFrame h hp hs

lemma readFront_nil (hq : s.encodedFrameQueue = []) : readFront s = (none, s) := by
  simp only [readFront, hq]

lemma readFront_eq (p : ℕ) (rest : List ℕ) (hq : s.encodedFrameQueue = p :: rest) :
    readFront s = (some p, { s with encodedFrameQueue := rest, freeList := s.freeList ++ [p] }) := by
  simp [readFront, hq]

theorem inv_readFront (h : Inv c b s) : Inv c b (readFront s).2 := by
  rcases hq : s.encodedFrameQueue with _ | ⟨p, rest⟩
  · rwa [readFront_nil hq]
  · rw [readFront_eq p rest hq]
    refine ⟨h.inited, h.bufferSize, h.pending, h.owns.of_perm ?_⟩
    simp only [owned, hq, List.append_assoc]
    refine List.Perm.append_left _ ?_
    rw [← List.append_assoc, List.cons_append]
    exact (List.perm_append_singleton _ _).symm

theorem inv_clear (h : Inv c b s) : Inv c b s.clear := by
  refine ⟨h.inited, h.bufferSize, h.pending, h.owns.of_perm ?_⟩
  simp only [owned, clear, List.append_nil, List.append_assoc]
  exact List.Perm.append_left _ List.perm_append_comm

/-- What a call that returns leaves of the queue. -/
inductive Leaves (pf : Platform) (s : FrameQueue) : Call → FrameQueue → Prop
  | writes {x : Option BufferHeader} {r : Bool} {s' : FrameQueue}
      (h : writeBack pf s x = .ok (r, s')) : Leaves pf s (.writeBack x) s'
  | reads : Leaves pf s .readFront (readFront s).2
  | clears : Leaves pf s .clear s.clear
  | sizes : Leaves pf s .size s

theorem leaves_of_step {call : Call} {o : Result} (hs : step pf s call = .ok (o, s')) :
    Leaves pf s call s' := by
  cases call with
  | writeBack x =>
    rcases hw : writeBack pf s x with g | ⟨r, t⟩
    · simp [step, hw] at hs
    · simp only [step, hw, Except.ok.injEq, Prod.mk.injEq] at hs
      exact hs.2 ▸ .writes hw
  | readFront =>
    have hreads : Leaves pf s .readFront (readFront s).2 := .reads
    rcases hr : readFront s with ⟨_ | p, t⟩ <;> rw [hr] at hreads
    · simp only [step, hr, Except.ok.injEq, Prod.mk.injEq] at hs
      exact hs.2 ▸ hreads
    · rcases hh : t.heap p with _ | f
      · simp [step, hr, hh] at hs
      · simp only [step, hr, hh, Except.ok.injEq, Prod.mk.injEq] at hs
        exact hs.2 ▸ hreads
  | clear =>
    simp only [step, Except.ok.injEq, Prod.mk.injEq] at hs
    exact hs.2 ▸ .clears
  | size =>
    simp only [step, Except.ok.injEq, Prod.mk.injEq] at hs
    exact hs.2 ▸ .sizes

/-- **Every call that returns keeps the invariant.** -/
theorem inv_step (pf : Platform) (c b : ℕ) : Invariant (step pf) (Inv c b) := by
  intro s call o s' h hs
  cases leaves_of_step hs with
  | writes hw => exact inv_writeBack h hw
  | reads => exact inv_readFront h
  | clears => exact inv_clear h
  | sizes => exact h

/-! ### After `init` -/

/-- The state `init` leaves of a queue whose containers were empty. -/
def initialised (pf : Platform) (c b : ℕ) : FrameQueue := fillFreeList pf c (construct true c b)

/-- `init` on a new object does not depend on what its memory held. -/
theorem init_construct (pf : Platform) (g : Bool) (m n c b : ℕ) :
    init pf c b (construct g m n) = .ok (initialised pf c b) := rfl

theorem inv_fillFreeList (pf : Platform) (n : ℕ) (h : Inv c b s) : Inv (c + n) b (fillFreeList pf n s) := by
  induction n generalizing c s with
  | zero => exact h
  | succ n ih =>
    have hnew := h.owns.new (pf.malloc s.next) false
    rw [show c + (n + 1) = (c + 1) + n by omega]
    refine ih ⟨h.inited, h.bufferSize, h.pending, ?_⟩
    refine (show Owns (c + 1) b _ _ _ by simpa [newBuffer, h.bufferSize] using hnew).of_perm ?_
    simp only [owned, ← List.append_assoc]
    exact (List.perm_append_singleton _ _).symm

/-- **`init` establishes the invariant.** -/
theorem inv_initialised (pf : Platform) (c b : ℕ) : Inv c b (initialised pf c b) := by
  have h0 : Inv 0 b (construct true c b) :=
    ⟨rfl, rfl, by simp [construct], ⟨by simp [owned, construct], by simp [owned, construct],
      by simp [construct], by simp [construct], by simp [owned, construct]⟩⟩
  have := inv_fillFreeList pf c h0
  rwa [Nat.zero_add] at this

lemma fillFreeList_containers (pf : Platform) (n : ℕ) (s : FrameQueue) :
    (fillFreeList pf n s).pending = s.pending ∧
      (fillFreeList pf n s).encodedFrameQueue = s.encodedFrameQueue := by
  induction n generalizing s with
  | zero => exact ⟨rfl, rfl⟩
  | succ n ih => exact ih _

end Calls

end RcControl.FrameQueue
