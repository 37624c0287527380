import RcControl.FrameQueue.Ledger
import RcControl.FrameQueue.Reinit

/-!
# What `clear` forgets

`clear` gives up the queued frames and leaves the pending one as it is. What is written afterwards is
appended to it, and comes out behind bytes from before. `forgets_iff` says that this is all that survives:
after `clear` only later fragments are delivered exactly if the pending frame has no bytes.
-/

namespace RcControl.FrameQueue

open Mmal Lib.Run

/-- The bytes of the frame are of fragments that were written after the first `n`. -/
def OnlySince (n : ℕ) (l : List Fragment) : Prop := ∀ f ∈ l, f.header.length ≠ 0 → n ≤ f.nth

/-- `clear`, of fragments. -/
def Ledger.clear (u : Ledger) : Ledger := { u with fifo := [] }

/-- Whatever is called after `clear`, the frames delivered have no bytes from before. -/
def Forgets (pf : Platform) (b : ℕ) (s : FrameQueue) (u : Ledger) : Prop :=
  ∀ calls os t, run (step pf) s.clear calls = .ok (os, t) →
    ∃ ts v, run (Ledger.step b) u.clear calls = .ok (ts, v) ∧ os = ts.map Entry.result ∧
      ∀ l, .delivered l ∈ ts → OnlySince u.nth l

/-! ### Where fragments come from -/

section Held

variable {b n : ℕ} {u v : Ledger} {e : Entry} {call : Call} {calls : List Call} {ts : List Entry}
  {f : Fragment} {l : List Fragment}

/-- A fragment that is held was held before, or has just been written. -/
structure HeldFrom (u v : Ledger) : Prop where
  nth : u.nth ≤ v.nth
  held : ∀ f ∈ v.held, f ∈ u.held ∨ u.nth = f.nth ∧ u.nth < v.nth

lemma Moves.heldFrom (h : Moves u e v) : HeldFrom u v := by
  cases e with
  | accepted f =>
    obtain ⟨hf, hv, hheld⟩ := h
    refine ⟨by omega, fun g hg => ?_⟩
    rw [hheld] at hg
    rcases List.mem_append.1 hg with hg | hg
    · exact Or.inl hg
    · have hgf : g = f := by
        unfold enters at hg
        split at hg
        · simp at hg
        · exact List.mem_singleton.1 hg
      exact Or.inr ⟨by rw [hgf, hf], by omega⟩
  | refused f l =>
    obtain ⟨hv, hheld⟩ := h
    exact ⟨by omega, fun g hg => Or.inl (hheld ▸ List.mem_append_left l hg)⟩
  | delivered l =>
    obtain ⟨hv, hheld⟩ := h
    exact ⟨hv.ge, fun g hg => Or.inl (hheld ▸ List.mem_append_right l hg)⟩
  | noFragment | noFrame | cleared | size =>
    obtain ⟨hv, hheld⟩ := h
    exact ⟨hv.ge, fun g hg => Or.inl (hheld ▸ hg)⟩

lemma heldFrom_clear (u : Ledger) : HeldFrom u u.clear :=
  ⟨le_refl _, fun _ hf => Or.inl (List.mem_append_right _ hf)⟩

/-- **One call.** -/
lemma heldFrom_step (hs : Ledger.step b u call = .ok (e, v)) : HeldFrom u v := by
  by_cases hcall : call = .clear
  · subst hcall
    obtain ⟨-, rfl⟩ := Prod.mk.inj (Except.ok.inj hs)
    exact heldFrom_clear u
  · exact (moves_step hcall hs).heldFrom

/-- What is held was written before. -/
lemma held_lt_nth (h : run (Ledger.step b) .empty calls = .ok (ts, u)) : ∀ f ∈ u.held, f.nth < u.nth := by
  refine inv_run (I := fun u : Ledger => ∀ f ∈ u.held, f.nth < u.nth) ?_ ?_ h
  · intro u call e v hu hs f hf
    have hfrom := heldFrom_step hs
    rcases hfrom.held f hf with hf | ⟨hnth, hlt⟩
    · exact Nat.lt_of_lt_of_le (hu f hf) hfrom.nth
    · omega
  · exact fun f hf => absurd hf List.not_mem_nil

/-- If what is held has only later bytes, only those are delivered. -/
lemma onlySince_run (hn : n ≤ u.nth) (hheld : OnlySince n u.held)
    (h : run (Ledger.step b) u calls = .ok (ts, v)) : ∀ l, .delivered l ∈ ts → OnlySince n l := by
  refine delivered_run (I := fun u => n ≤ u.nth ∧ OnlySince n u.held) ?_ ?_ ⟨hn, hheld⟩ h
  · rintro u call e v ⟨hn, hheld⟩ hs
    have hfrom := heldFrom_step hs
    refine ⟨hn.trans hfrom.nth, fun f hf hne => ?_⟩
    rcases hfrom.held f hf with hf | ⟨hnth, -⟩
    · exact hheld f hf hne
    · omega
  · rintro u l ⟨-, hheld⟩ hl f hf
    exact hheld f (List.mem_append_left _ (List.mem_flatten_of_mem hl hf))

lemma bytes_eq_nil : bytes l = [] ↔ ∀ f ∈ l, f.header.length = 0 := by
  unfold bytes
  rw [List.flatMap_eq_nil_iff]
  refine forall₂_congr fun f _ => ?_
  rw [← List.length_eq_zero_iff, BufferHeader.length_payload]

end Held

/-! ### After `clear` -/

section Clear

variable {pf : Platform} {b c : ℕ} {s : FrameQueue} {u : Ledger} {l : List Fragment}

/-- A fragment that ends a unit and brings nothing. -/
def unitEnd : BufferHeader where
  cmd := 0
  data := []
  length := 0
  flags := 4
  dts := 0
  length_le := le_refl _
  length_lt := by decide

/-- It completes the pending frame, which is then read. -/
lemma deliver_pending (hp : u.pending = some l) (hlen : (bytes l).length ≤ b) :
    ∃ ts v, run (Ledger.step b) u.clear [.writeBack (some unitEnd), .readFront] = .ok (ts, v) ∧
      .delivered (l ++ [u.next unitEnd]) ∈ ts := by
  have hz : ¬ Skipped unitEnd := by decide
  have hwrite : Ledger.writeBack b u.clear (some unitEnd) = (.accepted (u.next unitEnd),
      { u.clear.count unitEnd with fifo := [l ++ [u.next unitEnd]], pending := none }) := by
    have hpend : u.clear.pending = some l := hp
    have hsmall : ¬ b < unitEnd.length := Nat.not_lt_zero b
    have hroom : ¬ b < (bytes l).length + unitEnd.length := not_lt.2 hlen
    simp only [Ledger.writeBack, hpend]
    rw [if_neg hz, if_neg hsmall, if_neg hroom, if_pos (by decide)]
    rfl
  refine ⟨_, _, run_cons_ok (congrArg _ hwrite) (run_cons_ok rfl run_nil), ?_⟩
  exact List.mem_cons_of_mem _ (List.mem_singleton_self _)

/-- What a queue holds in its pending frame fits a slot. -/
lemma length_pendingBytes (h : Inv c b s) : (pendingBytes s).length ≤ b := by
  rcases h.pending_cases with hp | ⟨p, hp⟩
  · simp [pendingBytes, hp]
  · obtain ⟨f, hf, hcap, hlen⟩ := h.owns.live p (by simp [owned, hp])
    rw [pendingBytes, hp, List.flatMap_singleton, frameAt_of_eq hf,
      FrameBuffer.length_content (hlen.trans hcap.ge)]
    exact hlen

lemma abs_clear (h : abs s = u.forget) : abs s.clear = u.clear.forget := by
  have hpend : (abs s).pending = u.forget.pending := congrArg Plain.pending h
  have hclear : abs s.clear = ⟨[], (abs s).pending⟩ := rfl
  rw [hclear, hpend]
  rfl

/-- Nothing is added up that could wrap. -/
lemma run_unitEnd (hb : pf.SizeT b) (h : Inv c b s) :
    run (step pf) s [.writeBack (some unitEnd), .readFront] =
      run (step (Platform.ideal pf.malloc)) s [.writeBack (some unitEnd), .readFront] := by
  have hwrite : writeBack (Platform.ideal pf.malloc) s (some unitEnd) = writeBack pf s (some unitEnd) := by
    refine writeBack_ideal h fun x p f hx _ _ hp hf => ?_
    obtain ⟨f', hf', -, hlen⟩ := h.owns.live p (by simp [owned, hp])
    obtain rfl : f' = f := Option.some.inj (hf'.symm.trans hf)
    obtain rfl := Option.some.inj hx
    exact extendFrame_ideal hf (hb.add hlen)
  simp only [run, step, hwrite]

theorem forgets_iff_of_inv (hb : pf.SizeT b) (h : Inv c b s) (habs : abs s = u.forget)
    (hlt : ∀ f ∈ u.held, f.nth < u.nth) : Forgets pf b s u ↔ pendingBytes s = [] := by
  have hbytes := pendingBytes_eq h habs
  constructor
  · intro hforgets
    by_contra hne
    obtain ⟨l, hl⟩ : ∃ l, u.pending = some l := by
      rcases hp : u.pending with _ | l
      · rw [hbytes, hp] at hne
        exact absurd rfl hne
      · exact ⟨l, rfl⟩
    rw [hl, Option.getD_some] at hbytes
    -- the pending frame is completed and read
    have hpend : s.clear.pending ≠ [] := by
      intro hnil
      exact hne (by rw [pendingBytes, show s.pending = [] from hnil]; rfl)
    have hcan : Along (step (Platform.ideal pf.malloc)) CanServe s.clear
        [.writeBack (some unitEnd), .readFront] := by
      refine ⟨fun x _ hst => absurd hst.2.2.2 hpend, fun o s' _ => ⟨fun x hx => ?_, fun _ _ _ => trivial⟩⟩
      exact absurd hx (by simp)
    obtain ⟨os, t, -, -, hrun, -⟩ := run_ledger (Or.inl rfl) (inv_clear h) (abs_clear habs) hcan
    rw [← run_unitEnd hb (inv_clear h)] at hrun
    obtain ⟨ts, v, hledger, -, honly⟩ := hforgets _ os t hrun
    obtain ⟨ts', v', hledger', hmem⟩ := deliver_pending hl (hbytes ▸ length_pendingBytes h)
    obtain ⟨rfl, rfl⟩ := Prod.mk.inj (Except.ok.inj (hledger.symm.trans hledger'))
    refine hne (hbytes.trans (bytes_eq_nil.2 fun f hf => ?_))
    by_contra hlen
    have hge := honly _ hmem f (List.mem_append_left _ hf) hlen
    have := hlt f (List.mem_append_right _ (by rw [hl]; exact hf))
    omega
  · intro hnil calls os t hrun
    obtain ⟨ts, v, hledger, hres, -⟩ := ledger_of_run hb (inv_clear h) (abs_clear habs) hrun
    refine ⟨ts, v, hledger, hres, onlySince_run (u := u.clear) (le_refl _) ?_ hledger⟩
    intro f hf hlen
    exact absurd (bytes_eq_nil.1 (hbytes.symm.trans hnil) f hf) hlen

/-- **What `clear` forgets.** An object is initialised, any number of times, and used: after `clear` no
frame is delivered that has bytes from before exactly if none are pending. -/
theorem forgets_iff {g : Bool} {m n : ℕ} {ops : List Op} {os₀ : List (Option Result)}
    {s₀ : FrameQueue} {calls : List Call} {os : List Result}
    (h₀ : run (opStep pf) (construct g m n) (ops ++ [.init c b]) = .ok (os₀, s₀)) (hb : pf.SizeT b)
    (h : run (step pf) s₀ calls = .ok (os, s)) :
    ∃ ts u, run (Ledger.step b) .empty calls = .ok (ts, u) ∧ os = ts.map Entry.result ∧
      (Forgets pf b s u ↔ pendingBytes s = []) := by
  obtain ⟨hinv, habs⟩ := init_fresh h₀
  obtain ⟨ts, u, hledger, hres, habs', hinv'⟩ := ledger_of_run (u := .empty) hb hinv habs h
  exact ⟨ts, u, hledger, hres, forgets_iff_of_inv hb hinv' habs' (held_lt_nth hledger)⟩

end Clear

/-- A configuration fragment, and after `clear` the end of the unit. -/
theorem forgets_iff_pendingConfig :
    ∃ os₀ s₀ os s, run (opStep (Platform.ideal fun _ _ => 0)) (construct false 0 0) ([] ++ [.init 1 4]) =
        .ok (os₀, s₀) ∧
      run (step (Platform.ideal fun _ _ => 0)) s₀ [.writeBack (some (fragment 32 1))] = .ok (os, s) ∧
      ∃ ts u, run (Ledger.step 4) .empty [.writeBack (some (fragment 32 1))] = .ok (ts, u) ∧
        os = ts.map Entry.result ∧
        (Forgets (Platform.ideal fun _ _ => 0) 4 s u ↔ pendingBytes s = []) := by
  obtain ⟨os₀, s₀, os, s, h₀, h⟩ : ∃ os₀ s₀ os s,
      run (opStep (Platform.ideal fun _ _ => 0)) (construct false 0 0) ([] ++ [.init 1 4]) =
        .ok (os₀, s₀) ∧
      run (step (Platform.ideal fun _ _ => 0)) s₀ [.writeBack (some (fragment 32 1))] = .ok (os, s) :=
    ⟨_, _, _, _, rfl, rfl⟩
  exact ⟨os₀, s₀, os, s, h₀, h, forgets_iff h₀ (Or.inl rfl) h⟩

/-- The frame delivered after `clear` begins with the byte from before. -/
theorem pendingConfig_survives :
    ¬ ∀ (pf : Platform) (g : Bool) (m n : ℕ) (ops : List Op) (c b : ℕ) (os₀ : List (Option Result))
      (s₀ : FrameQueue) (calls : List Call) (os : List Result) (s : FrameQueue) (ts : List Entry)
      (u : Ledger), pf.SizeT b →
      run (opStep pf) (construct g m n) (ops ++ [.init c b]) = .ok (os₀, s₀) →
      run (step pf) s₀ calls = .ok (os, s) → run (Ledger.step b) .empty calls = .ok (ts, u) →
      Forgets pf b s u := by
  intro hclaim
  have hforgets := hclaim (Platform.ideal fun _ _ => 0) false 0 0 [] 1 4 _ _
    [.writeBack (some (fragment 32 1))] _ _ _ _ (Or.inl rfl) rfl rfl rfl
  obtain ⟨ts, v, hledger, -, honly⟩ :=
    hforgets [.writeBack (some (fragment 4 2)), .readFront] _ _ rfl
  obtain ⟨rfl, rfl⟩ := Prod.mk.inj (Except.ok.inj hledger)
  have hmem := honly [⟨0, 0, fragment 32 1⟩, ⟨1, 0, fragment 4 2⟩]
    (List.mem_cons_of_mem _ (List.mem_singleton_self _)) ⟨0, 0, fragment 32 1⟩ List.mem_cons_self
  exact absurd (hmem (by decide)) (by decide)

end RcControl.FrameQueue
