import RcControl.Lib.Run

/-!
# Runs with some of their events taken out

An observer sees part of what a component puts out (`seen`). It is undisturbed by a kind of events if
over every prefix of a run it sees what it would see without them (`Undisturbed`). The usual proof is
by unwinding: the run and the run without the events go hand in hand through related states.

`undisturbed_iff` has both directions. `P` says of a step that it does not disturb; if the relation is
kept by the steps of which `P` holds, and the observer sees a difference at a step of which it does
not, then `P` along the run is exactly what it takes. `E` restricts the events of the run.
-/

namespace RcControl.Lib.Unwinding

open Run

variable {σ ε ο φ α : Type*}

/-- What an observer sees of the run from `s` over `es`. -/
def seen (step : σ → ε → Except φ (ο × σ)) (obs : ο → List α) (s : σ) (es : List ε) :
    Except φ (List α) :=
  match run step s es with
  | .error f => .error f
  | .ok (os, _) => .ok (os.flatMap obs)

/-- Over every prefix of `es` the observer sees from `s` what it sees from `t` over the events that
are kept. -/
def Undisturbed (step : σ → ε → Except φ (ο × σ)) (obs : ο → List α) (keep : ε → Bool) (s t : σ)
    (es : List ε) : Prop :=
  ∀ es', es' <+: es → seen step obs s es' = seen step obs t (es'.filter keep)

/-- `R` ties a run to the run without the events that are not kept, at the steps of which `P` holds;
the others are seen. -/
structure Unwinds (step : σ → ε → Except φ (ο × σ)) (obs : ο → List α) (keep : ε → Bool)
    (E : ε → Prop) (R : σ → σ → Prop) (P : σ → ε → Prop) : Prop where
  removed : ∀ {s t e}, R s t → E e → keep e = false → P s e →
    ∃ o s', step s e = .ok (o, s') ∧ obs o = [] ∧ R s' t
  kept : ∀ {s t e}, R s t → E e → keep e = true → P s e →
    (∃ f, step s e = .error f ∧ step t e = .error f) ∨
      ∃ o o' s' t', step s e = .ok (o, s') ∧ step t e = .ok (o', t') ∧ obs o = obs o' ∧ R s' t'
  seen_removed : ∀ {s t e}, R s t → E e → keep e = false → ¬ P s e → seen step obs s [e] ≠ .ok []
  seen_kept : ∀ {s t e}, R s t → E e → keep e = true → ¬ P s e →
    seen step obs s [e] ≠ seen step obs t [e]

section Seen

variable {step : σ → ε → Except φ (ο × σ)} {obs : ο → List α} {s s' : σ} {e : ε} {es : List ε}

theorem seen_cons_error {f : φ} (h : step s e = .error f) :
    seen step obs s (e :: es) = .error f := by
  simp only [seen, run_cons_error h]

theorem seen_cons_ok {o : ο} (h : step s e = .ok (o, s')) :
    seen step obs s (e :: es) = (seen step obs s' es).map (obs o ++ ·) := by
  unfold seen
  rcases hr : run step s' es with f | ⟨os, t⟩
  · simp [run, h, hr, Except.map]
  · simp [run_cons_ok h hr, Except.map]

theorem seen_singleton {o : ο} (h : step s e = .ok (o, s')) :
    seen step obs s [e] = .ok (obs o) := by
  rw [seen_cons_ok h]
  exact congrArg Except.ok (List.append_nil (obs o))

end Seen

section Iff

variable {step : σ → ε → Except φ (ο × σ)} {obs : ο → List α} {keep : ε → Bool}
  {E : ε → Prop} {R : σ → σ → Prop} {P : σ → ε → Prop} {s t s' t' : σ} {e : ε} {es : List ε}

/-- The prefixes of `e :: es` are `[]`, of which nothing is seen, and those that begin with `e`. -/
lemma undisturbed_cons :
    Undisturbed step obs keep s t (e :: es) ↔
      ∀ es', es' <+: es → seen step obs s (e :: es') = seen step obs t ((e :: es').filter keep) := by
  constructor
  · exact fun h es' hp => h _ (List.prefix_cons_inj e |>.2 hp)
  · intro h es' hp
    rcases es' with _ | ⟨d, es'⟩
    · rfl
    · obtain ⟨rfl, hrest⟩ := List.cons_prefix_cons.1 hp
      exact h es' hrest

lemma undisturbed_removed {o : ο} (hk : keep e = false) (h : step s e = .ok (o, s'))
    (ho : obs o = []) :
    Undisturbed step obs keep s t (e :: es) ↔ Undisturbed step obs keep s' t es := by
  rw [undisturbed_cons]
  apply forall₂_congr
  intro es' _
  rw [seen_cons_ok h, ho, List.filter_cons_of_neg (by rw [hk]; decide)]
  have hid : (seen step obs s' es').map ([] ++ ·) = seen step obs s' es' := by
    rcases seen step obs s' es' with f | l <;> rfl
  rw [hid]

lemma undisturbed_kept {o o' : ο} (hk : keep e = true) (h : step s e = .ok (o, s'))
    (h' : step t e = .ok (o', t')) (ho : obs o = obs o') :
    Undisturbed step obs keep s t (e :: es) ↔ Undisturbed step obs keep s' t' es := by
  rw [undisturbed_cons]
  apply forall₂_congr
  intro es' _
  rw [List.filter_cons_of_pos hk, seen_cons_ok h, seen_cons_ok h', ho]
  rcases seen step obs s' es' with f | l <;> rcases seen step obs t' (es'.filter keep) with f' | l' <;>
    simp [Except.map]

/-- **Unwinding.** The observer is undisturbed exactly if no step of the run disturbs it. -/
theorem undisturbed_iff (h : Unwinds step obs keep E R P) (hR : R s t) (hE : ∀ e ∈ es, E e) :
    Undisturbed step obs keep s t es ↔ Along step P s es := by
  induction es generalizing s t with
  | nil =>
    refine ⟨fun _ => trivial, fun _ es' hp => ?_⟩
    rw [List.prefix_nil.1 hp]
    rfl
  | cons e es ih =>
    have he : E e := hE e List.mem_cons_self
    have hrest : ∀ d ∈ es, E d := fun d hd => hE d (List.mem_cons_of_mem e hd)
    by_cases hP : P s e
    · rcases hk : keep e
      · obtain ⟨o, s', hs, ho, hR'⟩ := h.removed hR he hk hP
        rw [undisturbed_removed hk hs ho, ih hR' hrest]
        refine ⟨fun ha => along_cons_ok hs hP ha, fun ha => ha.2 o s' hs⟩
      · rcases h.kept hR he hk hP with ⟨f, hs, ht⟩ | ⟨o, o', s', t', hs, ht, ho, hR'⟩
        · -- both runs stop here
          refine ⟨fun _ => ⟨hP, fun o s' hs' => absurd (hs.symm.trans hs') (by simp)⟩, fun _ => ?_⟩
          rw [undisturbed_cons]
          intro es' _
          rw [List.filter_cons_of_pos hk, seen_cons_error hs, seen_cons_error ht]
        · rw [undisturbed_kept hk hs ht ho, ih hR' hrest]
          constructor
          · intro ha
            exact along_cons_ok hs hP ha
          · intro ha
            exact ha.2 o s' hs
    · -- the first step is seen
      refine ⟨fun hu => ?_, fun ha => absurd ha.1 hP⟩
      have hone := hu [e] (List.prefix_cons_inj e |>.2 List.nil_prefix)
      rcases hk : keep e
      · rw [List.filter_cons_of_neg (by rw [hk]; decide)] at hone
        exact absurd hone (h.seen_removed hR he hk hP)
      · rw [List.filter_cons_of_pos hk] at hone
        exact absurd hone (h.seen_kept hR he hk hP)

end Iff

end RcControl.Lib.Unwinding
