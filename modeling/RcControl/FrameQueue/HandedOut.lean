import RcControl.FrameQueue.Reinit

/-!
# How long a frame handed out lives

`read_front` puts the buffer it returns on the free list before the caller has looked at it. It is the
last one there, and each `write_back` takes no more than the first permanent buffer and the temporary
ones in front of it. So the buffer waits behind the permanent buffers that were free (`Behind`), and
as many writes as these are have no effect on it (`handed_out_kept`).
-/

namespace RcControl.FrameQueue

open Mmal Lib.Run

/-- The buffer `p` is on the free list, with `k` permanent ones in front of it. -/
def Behind (k p : ℕ) (s : FrameQueue) : Prop :=
  ∃ front back, s.freeList = front ++ p :: back ∧ k ≤ front.countP (isPermanent s.heap)

def Call.isWrite : Call → Bool
  | .writeBack _ => true
  | _ => false

/-- What is dropped up to the first one of a kind is in front of whatever is behind another. -/
lemma dropWhile_front {α : Type*} {q : α → Bool} {front : List α} {k : ℕ}
    (h : k + 1 ≤ front.countP q) (back : List α) :
    ∃ a rest, (front ++ back).dropWhile (fun x => !q x) = a :: (rest ++ back) ∧ k ≤ rest.countP q := by
  induction front with
  | nil => simp at h
  | cons a front ih =>
    rcases ha : q a
    · rw [List.countP_cons_of_neg (by simp [ha])] at h
      obtain ⟨a', rest, hdrop, hk⟩ := ih h
      refine ⟨a', rest, ?_, hk⟩
      rw [List.cons_append, List.dropWhile_cons_of_pos (by simp [ha]), hdrop]
    · rw [List.countP_cons_of_pos ha] at h
      refine ⟨a, front, ?_, by omega⟩
      rw [List.cons_append, List.dropWhile_cons_of_neg (by simp [ha])]

section Behind

variable {pf : Platform} {c b k p : ℕ} {s s' : FrameQueue} {x : BufferHeader} {r : Bool}

lemma Behind.mem (h : Behind k p s) : p ∈ s.freeList := by
  obtain ⟨front, back, hfree, -⟩ := h
  rw [hfree]
  exact List.mem_append_right _ List.mem_cons_self

lemma Behind.mono {k' : ℕ} (h : Behind k p s) (hk : k' ≤ k) : Behind k' p s := by
  obtain ⟨front, back, hfree, hcount⟩ := h
  exact ⟨front, back, hfree, hk.trans hcount⟩

/-- What is pushed onto the free list is behind it. -/
lemma Behind.push (h : Behind k p s) (l : List ℕ) (hfree' : s'.freeList = s.freeList ++ l)
    (hheap : ∀ q ∈ s.freeList, s'.heap q = s.heap q) : Behind k p s' ∧ s'.heap p = s.heap p := by
  obtain ⟨front, back, hfree, hcount⟩ := id h
  refine ⟨⟨front, back ++ l, ?_, ?_⟩, hheap p h.mem⟩
  · rw [hfree', hfree, List.append_assoc]
    rfl
  · rw [countP_isPermanent_congr fun q hq => hheap q (hfree ▸ List.mem_append_left _ hq)]
    exact hcount

/-- A frame that starts takes one of the permanent buffers in front. -/
lemma behind_startFrame (h : Inv c b s) (hb : Behind (k + 1) p s) (hst : StartsFrame s x)
    (hs : startFrame pf s x = .ok (r, s')) : Behind k p s' ∧ s'.heap p = s.heap p := by
  obtain ⟨front, back, hfree, hcount⟩ := id hb
  obtain ⟨q, rest, hdrop, hk⟩ := dropWhile_front hcount (p :: back)
  have hcan : CanTake s := by
    obtain ⟨a, ha, hperm⟩ := List.countP_pos_iff.1 (Nat.lt_of_lt_of_le (Nat.succ_pos k) hcount)
    exact Or.inr ⟨a, hfree ▸ List.mem_append_left _ ha, hperm⟩
  obtain ⟨q', s₁, f, -, ht, -, -, hown, heq⟩ := startFrame_ok pf h hcan (h.bufferSize ▸ hst.2.2.1)
  rw [heq, Except.ok.injEq, Prod.mk.injEq] at hs
  obtain ⟨-, rfl⟩ := hs
  -- the first permanent buffer is taken, and what is behind it stays
  obtain ⟨rfl, hfree₁⟩ : q = q' ∧ rest ++ p :: back = s₁.freeList := by
    rcases ht.source with ⟨hnil, -⟩ | hsource
    · rw [hnil] at hfree
      simp at hfree
    · rw [hfree, hdrop] at hsource
      exact List.cons.inj hsource
  have hheap : ∀ a ∈ s₁.freeList, (place s₁ q f).heap a = s.heap a := by
    intro a ha
    have hmem : a ∈ s₁.owned := List.mem_append_right _ ha
    have hne : a ≠ q := by
      rintro rfl
      exact (List.nodup_cons.1 hown.nodup).1 hmem
    have hplace : (place s₁ q f).heap = Function.update s₁.heap q (some f) := by
      unfold place
      split <;> rfl
    rw [hplace, Function.update_of_ne hne, ht.same a hmem]
  have hfree' : (place s₁ q f).freeList = s₁.freeList := by
    unfold place
    split <;> rfl
  refine ⟨⟨rest, back, hfree'.trans hfree₁.symm, ?_⟩, hheap p ?_⟩
  · rw [countP_isPermanent_congr fun a ha => hheap a (hfree₁ ▸ List.mem_append_left _ ha)]
    exact hk
  · rw [← hfree₁]
    exact List.mem_append_right _ List.mem_cons_self

/-- A fragment for the pending frame leaves the free list alone, or pushes a buffer onto it. -/
lemma behind_extendFrame {q : ℕ} (h : Inv c b s) (hb : Behind k p s) (hp : s.pending = [q])
    (hs : extendFrame pf s x q q = .ok (r, s')) : Behind k p s' ∧ s'.heap p = s.heap p := by
  obtain ⟨f, hf, -⟩ := h.owns.live q (by simp [owned, hp])
  have hne : ∀ a ∈ s.freeList, a ≠ q := by
    have hnd := h.owns.nodup
    simp only [owned, hp, List.cons_append, List.nodup_cons] at hnd
    rintro a ha rfl
    exact hnd.1 (List.mem_append_right _ ha)
  rcases extendFrame_cases hf hp hs with ⟨-, -, rfl⟩ | ⟨-, f', -, -, rfl⟩
  · exact hb.push [q] rfl fun _ _ => rfl
  · split
    · exact hb.push [] (List.append_nil _).symm fun a ha => Function.update_of_ne (hne a ha) ..
    · exact hb.push [] (List.append_nil _).symm fun a ha => Function.update_of_ne (hne a ha) ..

/-- **One call** uses up no more than one of the buffers in front, and only if it is a write. -/
theorem behind_step {call : Call} {o : Result} (h : Inv c b s) (hb : Behind k p s)
    (hk : call.isWrite = true → 1 ≤ k) (hs : step pf s call = .ok (o, s')) :
    Behind (if call.isWrite then k - 1 else k) p s' ∧ s'.heap p = s.heap p := by
  cases leaves_of_step hs with
  | writes hw =>
    have hmono : ∀ {t}, Behind k p t → Behind (k - 1) p t := fun ht => ht.mono (Nat.sub_le k 1)
    rcases writeBack_cases h hw with rfl | ⟨y, -, hst, hstart⟩ | ⟨y, q, -, -, hp, hext⟩
    · exact ⟨hmono hb, rfl⟩
    · have hsucc : k - 1 + 1 = k := Nat.sub_add_cancel (hk rfl)
      exact behind_startFrame h (hsucc.symm ▸ hb) hst hstart
    · obtain ⟨hb', hheap⟩ := behind_extendFrame h hb hp hext
      exact ⟨hmono hb', hheap⟩
  | reads =>
    rcases hq : s.encodedFrameQueue with _ | ⟨q, rest⟩
    · rw [readFront_nil hq]
      exact ⟨hb, rfl⟩
    · rw [readFront_eq q rest hq]
      exact hb.push [q] rfl fun _ _ => rfl
  | clears => exact hb.push _ rfl fun _ _ => rfl
  | sizes => exact ⟨hb, rfl⟩

/-- A call does not fault for want of a buffer, while one is left in front. -/
lemma canServe_of_behind {call : Call} (hb : Behind k p s) (hk : call.isWrite = true → 1 ≤ k) :
    CanServe s call := by
  rintro x rfl -
  obtain ⟨front, back, hfree, hcount⟩ := hb
  obtain ⟨a, ha, hperm⟩ := List.countP_pos_iff.1 (Nat.lt_of_lt_of_le (hk rfl) hcount)
  exact Or.inr ⟨a, hfree ▸ List.mem_append_left _ ha, hperm⟩

/-- The run rule: each write uses up one of the buffers in front. -/
theorem kept_of_behind (pf : Platform) {calls : List Call} (h : Inv c b s) (hb : Behind k p s)
    (hk : calls.countP Call.isWrite ≤ k) :
    (∀ os t, run (step pf) s calls = .ok (os, t) → t.heap p = s.heap p) ∧
      (pf.NoWrap b → ∃ os t, run (step pf) s calls = .ok (os, t)) := by
  induction calls generalizing s k with
  | nil =>
    refine ⟨fun os t ht => ?_, fun _ => ⟨[], s, rfl⟩⟩
    obtain ⟨-, rfl⟩ := Prod.mk.inj (Except.ok.inj ht)
    rfl
  | cons call calls ih =>
    have hone : call.isWrite = true → 1 ≤ k := by
      intro hw
      rw [List.countP_cons_of_pos hw] at hk
      omega
    have hrest : calls.countP Call.isWrite ≤ if call.isWrite then k - 1 else k := by
      rw [List.countP_cons] at hk
      split <;> simp_all
      omega
    have hnext : ∀ {o s'}, step pf s call = .ok (o, s') →
        (∀ os t, run (step pf) s' calls = .ok (os, t) → t.heap p = s.heap p) ∧
          (pf.NoWrap b → ∃ os t, run (step pf) s' calls = .ok (os, t)) := by
      intro o s' hs
      obtain ⟨hb', hheap⟩ := behind_step h hb hone hs
      rw [← hheap]
      exact ih (inv_step pf c b s call o s' h hs) hb' hrest
    refine ⟨fun os t ht => ?_, fun hw => ?_⟩
    · obtain ⟨o, s', os', hs, hrun, -⟩ := run_cons_eq_ok.1 ht
      exact (hnext hs).1 os' t hrun
    · obtain ⟨o, s', hs, -⟩ := step_refines hw h (canServe_of_behind hb hone)
      obtain ⟨os, t, hrun⟩ := (hnext hs).2 hw
      exact ⟨o :: os, t, run_cons_ok hs hrun⟩

end Behind

/-- **A frame handed out** stays as it is, live and with its bytes, through as many writes as there
were permanent buffers on the free list, and any reads and clears in between; and these calls do not
fault, if two lengths can be added. -/
theorem handed_out_kept {pf : Platform} {g : Bool} {m n p : ℕ} {ops : List Op} {calls : List Call}
    {os₀ : List (Option Result)} {s s' : FrameQueue}
    (h₀ : run (opStep pf) (construct g m n) ops = .ok (os₀, s)) (hread : readFront s = (some p, s'))
    (hcalls : calls.countP Call.isWrite ≤ s.freeList.countP (isPermanent s.heap)) :
    (∃ f, s'.heap p = some f ∧
      ∀ os t, run (step pf) s' calls = .ok (os, t) → t.heap p = some f) ∧
    (pf.NoWrap s.bufferSize → ∃ os t, run (step pf) s' calls = .ok (os, t)) := by
  rcases hq : s.encodedFrameQueue with _ | ⟨q, rest⟩
  · simp [readFront_nil hq] at hread
  rw [readFront_eq q rest hq, Prod.mk.injEq, Option.some.injEq] at hread
  obtain ⟨rfl, hs'⟩ := hread
  obtain ⟨-, hblank⟩ | ⟨c, b, hinv⟩ := inv_run (held_step pf) (held_construct g m n) h₀
  · have hnil := hblank.owned
    simp [owned, hq] at hnil
  have hinv' : Inv c b s' := by
    have hread := inv_readFront hinv
    rwa [readFront_eq q rest hq, hs'] at hread
  obtain ⟨f, hf, -⟩ := hinv.owns.live q (by simp [owned, hq])
  have hbehind : Behind (s.freeList.countP (isPermanent s.heap)) q s' := by
    subst hs'
    exact ⟨s.freeList, [], rfl, le_refl _⟩
  have hf' : s'.heap q = some f := by rw [← hs', hf]
  obtain ⟨hkept, hok⟩ := kept_of_behind pf hinv' hbehind hcalls
  refine ⟨⟨f, hf', fun os t ht => ?_⟩, hinv.bufferSize ▸ hok⟩
  rw [hkept os t ht, hf']

/-- Two slots: a frame is written and read, and one more write leaves it alone. -/
theorem handed_out_kept_oneWrite :
    ∃ s s' os₀, run (opStep (Platform.ideal fun _ _ => 0)) (construct false 0 0)
        [.init 2 4, .call (.writeBack (some (wholeFrame 1)))] = .ok (os₀, s) ∧
      readFront s = (some 0, s') ∧
      ((∃ f, s'.heap 0 = some f ∧ ∀ os t, run (step (Platform.ideal fun _ _ => 0)) s'
          [.clear, .writeBack (some (wholeFrame 2)), .readFront] = .ok (os, t) → t.heap 0 = some f) ∧
        ((Platform.ideal fun _ _ => 0).NoWrap s.bufferSize →
          ∃ os t, run (step (Platform.ideal fun _ _ => 0)) s'
            [.clear, .writeBack (some (wholeFrame 2)), .readFront] = .ok (os, t))) := by
  obtain ⟨os₀, s, h₀, hread, hcount⟩ : ∃ os₀ s, run (opStep (Platform.ideal fun _ _ => 0))
      (construct false 0 0) [.init 2 4, .call (.writeBack (some (wholeFrame 1)))] = .ok (os₀, s) ∧
      readFront s = (some 0, (readFront s).2) ∧ s.freeList.countP (isPermanent s.heap) = 1 :=
    ⟨_, _, rfl, rfl, rfl⟩
  exact ⟨s, _, os₀, h₀, hread, handed_out_kept h₀ hread (by rw [hcount]; decide)⟩

end RcControl.FrameQueue
