import Mathlib.Data.Nat.Notation

/-!
# While loops

A loop is a test and a body that may fault. `loop` runs it on fuel, one for each test, and has no
outcome where the fuel is used up. More fuel does not change an outcome (`loop_mono`), and a loop whose
body keeps an invariant and lowers a variant comes to its end (`loop_total`).
-/

namespace RcControl.Lib.While

variable {σ φ : Type*} {test : σ → Bool} {body : σ → Except φ σ} {s : σ}

/-- The loop from `s`: the state at its end, or the first fault. -/
def loop (test : σ → Bool) (body : σ → Except φ σ) : ℕ → σ → Option (Except φ σ)
  | 0, _ => none
  | fuel + 1, s =>
    if test s then
      match body s with
      | .error f => some (.error f)
      | .ok s' => loop test body fuel s'
    else some (.ok s)

lemma loop_done (fuel : ℕ) (h : test s = false) : loop test body (fuel + 1) s = some (.ok s) := by
  simp [loop, h]

lemma loop_round {s' : σ} (fuel : ℕ) (h : test s = true) (h' : body s = .ok s') :
    loop test body (fuel + 1) s = loop test body fuel s' := by
  simp [loop, h, h']

theorem loop_mono {fuel fuel' : ℕ} {r : Except φ σ} (h : loop test body fuel s = some r)
    (hle : fuel ≤ fuel') : loop test body fuel' s = some r := by
  induction fuel generalizing s fuel' with
  | zero => simp [loop] at h
  | succ fuel ih =>
    obtain ⟨fuel', rfl⟩ : ∃ n, fuel' = n + 1 := ⟨fuel' - 1, by omega⟩
    rw [loop] at h ⊢
    split
    · rename_i htest
      rw [if_pos htest] at h
      rcases hbody : body s with f | s'
      · rw [hbody] at h
        exact h
      · rw [hbody] at h
        exact ih h (by omega)
    · rename_i htest
      rwa [if_neg htest] at h

/-- **The rule for a loop that ends.** Where the test holds, the body keeps the invariant and lowers the
variant. -/
theorem loop_total {I : σ → Prop} (variant : σ → ℕ)
    (hbody : ∀ s, I s → test s = true → ∃ s', body s = .ok s' ∧ I s' ∧ variant s' < variant s)
    (hs : I s) :
    ∃ t, I t ∧ test t = false ∧ ∀ fuel, variant s < fuel → loop test body fuel s = some (.ok t) := by
  obtain ⟨n, hn⟩ : ∃ n, variant s = n := ⟨_, rfl⟩
  induction n using Nat.strongRecOn generalizing s with
  | ind n ih =>
    rcases htest : test s
    · exact ⟨s, hs, htest, fun fuel hfuel => loop_mono (loop_done 0 htest) (by omega)⟩
    · obtain ⟨s', hs', hI, hlt⟩ := hbody s hs htest
      obtain ⟨t, ht, hend, hloop⟩ := ih (variant s') (hn ▸ hlt) hI rfl
      refine ⟨t, ht, hend, fun fuel hfuel => ?_⟩
      have hround := (loop_round (variant s' + 1) htest hs').trans (hloop _ (Nat.lt_succ_self _))
      exact loop_mono hround (by omega)

end RcControl.Lib.While
