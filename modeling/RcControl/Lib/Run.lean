import Mathlib.Algebra.Ring.Nat
import Mathlib.Data.List.Basic
import Mathlib.Data.List.Induction

/-!
# Runs of a step function that may fault

A component is a step function `σ → ε → Except φ (ο × σ)`: an event takes a state to an output and
a new state, or to a fault. `run` folds it over a list of events, stopping at the first fault.

`Along step P s es` says that `P` holds at every step the run from `s` over `es` takes. The rules:

* `inv_run` — what one step preserves, a run preserves; `inv_run_along` — what the steps with a property
  preserve, a run of such steps preserves;
* `history_run` — the same for what is said of a state and the run that led to it;
* `pipeline_run`, `perm_run` — the same for what passes through, in its order or in any;
* `out_run`, `budget_run`, `progress_run` — the same for what the steps put out, for how many there can be,
  and for how soon what is inside comes out;
* `until_run` — the same for what the steps keep until one of them does something;
* `along_of_inv`, `along_mono`, `along_congr` — what holds of a step under an invariant holds along
  a run;
* `along_iff_prefixes` — what is kept exactly by the steps with a property is kept after every part of
  a run exactly if they all have it;
* `along_of_run_ok` — what no step can do without holds along a run that does not fault;
* `run_map`, `run_refines`, `run_same` — a step-wise simulation is a simulation of runs;
* `trace_of_run` — the same for a relation that leaves open what a step may do;
* `run_part` — what a run of the whole is to one of its parts.
-/

namespace RcControl.Lib.Run

variable {σ τ ε ο ο' φ ψ : Type*}

/-- The run from `s` over `es`: the outputs in order and the last state, or the first fault. -/
def run (step : σ → ε → Except φ (ο × σ)) : σ → List ε → Except φ (List ο × σ)
  | s, [] => .ok ([], s)
  | s, e :: es =>
    match step s e with
    | .error f => .error f
    | .ok (o, s') =>
      match run step s' es with
      | .error f => .error f
      | .ok (os, t) => .ok (o :: os, t)

/-- `P` holds at every step of the run from `s` over `es`. -/
def Along (step : σ → ε → Except φ (ο × σ)) (P : σ → ε → Prop) : σ → List ε → Prop
  | _, [] => True
  | s, e :: es => P s e ∧ ∀ o s', step s e = .ok (o, s') → Along step P s' es

/-- `I` is kept by every step that does not fault. -/
def Invariant (step : σ → ε → Except φ (ο × σ)) (I : σ → Prop) : Prop :=
  ∀ s e o s', I s → step s e = .ok (o, s') → I s'

section Runs

variable {step : σ → ε → Except φ (ο × σ)} {s t : σ} {e : ε} {es fs : List ε} {os : List ο}

@[simp] theorem run_nil : run step s [] = .ok ([], s) := rfl

theorem run_cons_ok {o : ο} {s' : σ} (h : step s e = .ok (o, s')) (h' : run step s' es = .ok (os, t)) :
    run step s (e :: es) = .ok (o :: os, t) := by
  simp [run, h, h']

theorem run_cons_error {f : φ} (h : step s e = .error f) : run step s (e :: es) = .error f := by
  simp [run, h]

theorem along_cons_ok {P : σ → ε → Prop} {o : ο} {s' : σ} (h : step s e = .ok (o, s')) (hP : P s e)
    (h' : Along step P s' es) : Along step P s (e :: es) := by
  refine ⟨hP, fun o' t ht => ?_⟩
  rw [h, Except.ok.injEq, Prod.mk.injEq] at ht
  exact ht.2 ▸ h'

theorem along_cons_iff {P : σ → ε → Prop} {o : ο} {s' : σ} (h : step s e = .ok (o, s')) :
    Along step P s (e :: es) ↔ P s e ∧ Along step P s' es :=
  ⟨fun ha => ⟨ha.1, ha.2 o s' h⟩, fun ha => along_cons_ok h ha.1 ha.2⟩

/-- Events that change nothing, and of which `P` always holds, can be left out. -/
theorem along_filter {P : σ → ε → Prop} {keep : ε → Bool}
    (hskip : ∀ s e, keep e = false → P s e ∧ ∃ o, step s e = .ok (o, s)) :
    Along step P s es ↔ Along step P s (es.filter keep) := by
  induction es generalizing s with
  | nil => rfl
  | cons e es ih =>
    rcases hk : keep e
    · obtain ⟨hP, o, hstep⟩ := hskip s e hk
      rw [along_cons_iff hstep, List.filter_cons_of_neg (by rw [hk]; decide), ← ih]
      exact and_iff_right hP
    · rw [List.filter_cons_of_pos hk]
      exact and_congr_right fun _ => forall₃_congr fun _ _ _ => ih

/-- What a run over `e :: es` that does not fault is made of. -/
theorem run_cons_eq_ok : run step s (e :: es) = .ok (os, t) ↔
    ∃ o s' os', step s e = .ok (o, s') ∧ run step s' es = .ok (os', t) ∧ os = o :: os' := by
  constructor
  · intro h
    rcases hs : step s e with f | ⟨o, s'⟩
    · simp [run, hs] at h
    rcases hr : run step s' es with f | ⟨os', t'⟩
    · simp [run, hs, hr] at h
    · simp only [run, hs, hr, Except.ok.injEq, Prod.mk.injEq] at h
      obtain ⟨rfl, rfl⟩ := h
      exact ⟨o, s', os', rfl, hr, rfl⟩
  · rintro ⟨o, s', os', hs, hr, rfl⟩
    exact run_cons_ok hs hr

/-- One output for each event. -/
theorem length_run (h : run step s es = .ok (os, t)) : os.length = es.length := by
  induction es generalizing s os with
  | nil =>
    simp only [run_nil, Except.ok.injEq, Prod.mk.injEq] at h
    rw [← h.1]
    rfl
  | cons e es ih =>
    obtain ⟨o, s', os', -, hrun, rfl⟩ := run_cons_eq_ok.1 h
    rw [List.length_cons, List.length_cons, ih hrun]

theorem run_append_eq_ok : run step s (es ++ fs) = .ok (os, t) ↔
    ∃ os₁ m os₂, run step s es = .ok (os₁, m) ∧ run step m fs = .ok (os₂, t) ∧ os = os₁ ++ os₂ := by
  induction es generalizing s os with
  | nil => simp
  | cons e es ih =>
    simp only [List.cons_append, run_cons_eq_ok, ih]
    constructor
    · rintro ⟨o, s', _, hs, ⟨os₁, m, os₂, h₁, h₂, rfl⟩, rfl⟩
      exact ⟨o :: os₁, m, os₂, ⟨o, s', os₁, hs, h₁, rfl⟩, h₂, rfl⟩
    · rintro ⟨_, m, os₂, ⟨o, s', os₁, hs, h₁, rfl⟩, h₂, rfl⟩
      exact ⟨o, s', os₁ ++ os₂, hs, ⟨os₁, m, os₂, h₁, h₂, rfl⟩, rfl⟩

theorem run_append_ok {os₁ os₂ : List ο} {m : σ} (h : run step s es = .ok (os₁, m))
    (h' : run step m fs = .ok (os₂, t)) : run step s (es ++ fs) = .ok (os₁ ++ os₂, t) :=
  run_append_eq_ok.2 ⟨os₁, m, os₂, h, h', rfl⟩

theorem run_append_error {m : σ} {f : φ} (h : run step s es = .ok (os, m))
    (h' : run step m fs = .error f) : run step s (es ++ fs) = .error f := by
  induction es generalizing s os with
  | nil =>
    simp only [run_nil, Except.ok.injEq, Prod.mk.injEq] at h
    exact h.2 ▸ h'
  | cons e es ih =>
    obtain ⟨o, s', os', hs, hrun, -⟩ := run_cons_eq_ok.1 h
    simp [run, hs, ih hrun]

/-- A fault comes at some step, after a run that goes through. -/
theorem run_eq_error {f : φ} (h : run step s es = .error f) : ∃ es₁ e es₂ os s₁,
    es = es₁ ++ e :: es₂ ∧ run step s es₁ = .ok (os, s₁) ∧ step s₁ e = .error f := by
  induction es generalizing s with
  | nil => cases h
  | cons e es ih =>
    rcases hs : step s e with g | ⟨o, s'⟩
    · rw [run_cons_error hs, Except.error.injEq] at h
      exact ⟨[], e, es, [], s, rfl, rfl, h ▸ hs⟩
    · rcases hr : run step s' es with g | ⟨os, t⟩
      · have hg : g = f := by simpa [run, hs, hr] using h
        obtain ⟨es₁, e', es₂, os₁, s₁, rfl, hrun, hstep⟩ := ih (hg ▸ hr)
        exact ⟨e :: es₁, e', es₂, o :: os₁, s₁, rfl, run_cons_ok hs hrun, hstep⟩
      · rw [run_cons_ok hs hr] at h
        cases h

/-- **The invariant rule.** -/
theorem inv_run {I : σ → Prop} (hI : Invariant step I) (hs : I s) (h : run step s es = .ok (os, t)) :
    I t := by
  induction es generalizing s os with
  | nil =>
    simp only [run_nil, Except.ok.injEq, Prod.mk.injEq] at h
    exact h.2 ▸ hs
  | cons e es ih =>
    obtain ⟨o, s', os', hstep, hrun, -⟩ := run_cons_eq_ok.1 h
    exact ih (hI s e o s' hs hstep) hrun

/-- The same of what only the steps with a property keep. -/
theorem inv_run_along {I : σ → Prop} {P : σ → ε → Prop}
    (hI : ∀ s e o s', I s → P s e → step s e = .ok (o, s') → I s') (hs : I s)
    (hP : Along step P s es) (h : run step s es = .ok (os, t)) : I t := by
  induction es generalizing s os with
  | nil =>
    simp only [run_nil, Except.ok.injEq, Prod.mk.injEq] at h
    exact h.2 ▸ hs
  | cons e es ih =>
    obtain ⟨o, s', os', hstep, hrun, -⟩ := run_cons_eq_ok.1 h
    exact ih (hI s e o s' hs hP.1 hstep) (hP.2 o s' hstep) hrun

/-- A run over two parts has a property along both. -/
theorem along_append_iff {P : σ → ε → Prop} (h : run step s es = .ok (os, t)) :
    Along step P s (es ++ fs) ↔ Along step P s es ∧ Along step P t fs := by
  induction es generalizing s os with
  | nil =>
    simp only [run_nil, Except.ok.injEq, Prod.mk.injEq] at h
    obtain ⟨-, rfl⟩ := h
    exact (and_iff_right trivial).symm
  | cons e es ih =>
    obtain ⟨o, s', os', hstep, hrun, -⟩ := run_cons_eq_ok.1 h
    rw [List.cons_append, along_cons_iff hstep, along_cons_iff hstep, ih hrun, and_assoc]

/-- **The history rule.** An invariant that also speaks about the events so far and their outputs. -/
theorem history_run {J : List ε → List ο → σ → Prop} {s₀ : σ} (h₀ : J [] [] s₀)
    (hstep : ∀ {es os s e o s'}, run step s₀ es = .ok (os, s) → J es os s →
      step s e = .ok (o, s') → J (es ++ [e]) (os ++ [o]) s')
    (h : run step s₀ es = .ok (os, t)) : J es os t := by
  induction es using List.reverseRecOn generalizing os t with
  | nil =>
    simp only [run_nil, Except.ok.injEq, Prod.mk.injEq] at h
    obtain ⟨rfl, rfl⟩ := h
    exact h₀
  | append_singleton es e ih =>
    obtain ⟨os₁, m, os₂, hm, hlast, rfl⟩ := run_append_eq_ok.1 h
    obtain ⟨o, s', os', hs, hnil, rfl⟩ := run_cons_eq_ok.1 hlast
    simp only [run_nil, Except.ok.injEq, Prod.mk.injEq] at hnil
    obtain ⟨rfl, rfl⟩ := hnil
    exact hstep hm (ih hm) hs

/-- **The pipeline rule.** If at each step what is inside, followed by what comes in, is what goes out
followed by what is inside then, nothing is lost, doubled or overtaken in a run. -/
theorem pipeline_run {α : Type*} {I : σ → Prop} {inside : σ → List α} {enters leaves : ο → List α}
    (hI : Invariant step I)
    (hstep : ∀ s e o s', I s → step s e = .ok (o, s') → inside s ++ enters o = leaves o ++ inside s')
    (hs : I s) (h : run step s es = .ok (os, t)) :
    inside s ++ os.flatMap enters = os.flatMap leaves ++ inside t := by
  induction es generalizing s os with
  | nil =>
    simp only [run_nil, Except.ok.injEq, Prod.mk.injEq] at h
    obtain ⟨rfl, rfl⟩ := h
    simp
  | cons e es ih =>
    obtain ⟨o, s', os', hst, hrun, rfl⟩ := run_cons_eq_ok.1 h
    rw [List.flatMap_cons, List.flatMap_cons, ← List.append_assoc, hstep s e o s' hs hst,
      List.append_assoc, ih (hI s e o s' hs hst) hrun, List.append_assoc]

/-- The same of what only the steps with a property keep. -/
theorem pipeline_run_along {α : Type*} {I : σ → Prop} {P : σ → ε → Prop} {inside : σ → List α}
    {enters leaves : ο → List α} (hI : ∀ s e o s', I s → P s e → step s e = .ok (o, s') → I s')
    (hstep : ∀ s e o s', I s → step s e = .ok (o, s') → inside s ++ enters o = leaves o ++ inside s')
    (hs : I s) (hP : Along step P s es) (h : run step s es = .ok (os, t)) :
    inside s ++ os.flatMap enters = os.flatMap leaves ++ inside t := by
  suffices hall : Along step P s es → I t ∧ inside s ++ os.flatMap enters = os.flatMap leaves ++ inside t
    from (hall hP).2
  refine history_run (J := fun es os t => Along step P s es →
    I t ∧ inside s ++ os.flatMap enters = os.flatMap leaves ++ inside t) (fun _ => ⟨hs, by simp⟩) ?_ h
  intro es os u e o u' hrun hJ hst hes
  obtain ⟨halong, hlast⟩ := (along_append_iff hrun).1 hes
  obtain ⟨hu, hpipe⟩ := hJ halong
  refine ⟨hI u e o u' hu hlast.1 hst, ?_⟩
  rw [List.flatMap_append, List.flatMap_singleton, ← List.append_assoc, hpipe, List.append_assoc,
    hstep u e o u' hu hst, List.flatMap_append, List.flatMap_singleton, List.append_assoc]

/-- The pipeline rule where the order does not count. -/
theorem perm_run {α : Type*} {inside : σ → List α} {enters leaves : ο → List α}
    (hstep : ∀ s e o s', step s e = .ok (o, s') → (inside s ++ enters o).Perm (leaves o ++ inside s'))
    (h : run step s es = .ok (os, t)) :
    (inside s ++ os.flatMap enters).Perm (os.flatMap leaves ++ inside t) := by
  refine history_run (J := fun _ os t =>
    (inside s ++ os.flatMap enters).Perm (os.flatMap leaves ++ inside t)) (by simp) ?_ h
  intro es os u e o u' _ hperm hst
  simp only [List.flatMap_append, List.flatMap_singleton]
  rw [← List.append_assoc (inside s), List.append_assoc (os.flatMap leaves)]
  refine (hperm.append_right _).trans ?_
  rw [List.append_assoc]
  exact (hstep u e o u' hst).append_left _

/-- What every step of the invariant puts out, a run puts out. -/
theorem out_run {I : σ → Prop} {Q : ο → Prop} (hI : Invariant step I)
    (hQ : ∀ s e o s', I s → step s e = .ok (o, s') → Q o) (hs : I s) (h : run step s es = .ok (os, t)) :
    ∀ o ∈ os, Q o := by
  induction es generalizing s os with
  | nil =>
    simp only [run_nil, Except.ok.injEq, Prod.mk.injEq] at h
    obtain ⟨rfl, -⟩ := h
    exact fun _ ho => nomatch ho
  | cons e es ih =>
    obtain ⟨o, s', os', hst, hrun, rfl⟩ := run_cons_eq_ok.1 h
    exact List.forall_mem_cons.2 ⟨hQ s e o s' hs hst, ih (hI s e o s' hs hst) hrun⟩

/-- **The until rule.** What each step keeps, or else does something with `P`, holds at the end of a run,
or something in the run has had `P`. -/
theorem until_run {I Q : σ → Prop} {P : ε → ο → Prop} (hI : Invariant step I)
    (hstep : ∀ s e o s', I s → Q s → step s e = .ok (o, s') → Q s' ∨ P e o) (hs : I s) (hQ : Q s)
    (h : run step s es = .ok (os, t)) : Q t ∨ ∃ e ∈ es, ∃ o ∈ os, P e o := by
  induction es generalizing s os with
  | nil =>
    simp only [run_nil, Except.ok.injEq, Prod.mk.injEq] at h
    obtain ⟨-, rfl⟩ := h
    exact .inl hQ
  | cons e es ih =>
    obtain ⟨o, s', os', hst, hrun, rfl⟩ := run_cons_eq_ok.1 h
    rcases hstep s e o s' hs hQ hst with hQ' | hP
    · rcases ih (hI s e o s' hs hst) hQ' hrun with hQt | ⟨e', he', o', ho', hP⟩
      · exact .inl hQt
      · exact .inr ⟨e', List.mem_cons_of_mem e he', o', List.mem_cons_of_mem o ho', hP⟩
    · exact .inr ⟨e, List.mem_cons_self, o, List.mem_cons_self, hP⟩

/-- **The budget rule.** If each step with `p` is paid out of a budget to which only gains add, a run has
no more of these steps than there was to spend at first and has been gained. -/
theorem budget_run {I : σ → Prop} {μ : σ → ℕ} {p : ε → Bool} {gain : ε → ℕ} (hI : Invariant step I)
    (hstep : ∀ s e o s', I s → step s e = .ok (o, s') → μ s' + (if p e then 1 else 0) ≤ μ s + gain e)
    (hs : I s) (h : run step s es = .ok (os, t)) :
    μ t + es.countP p ≤ μ s + (es.map gain).sum := by
  induction es generalizing s os with
  | nil =>
    simp only [run_nil, Except.ok.injEq, Prod.mk.injEq] at h
    obtain ⟨-, rfl⟩ := h
    exact Nat.le_refl _
  | cons e es ih =>
    obtain ⟨o, s', os', hst, hrun, -⟩ := run_cons_eq_ok.1 h
    have hone := hstep s e o s' hs hst
    have hrest := ih (hI s e o s' hs hst) hrun
    rw [List.map_cons, List.sum_cons, List.countP_cons]
    omega

/-- **The progress rule.** If each step with `p` is paid, as long as something is inside, out of a budget to
which gains add, and `w` for each item that leaves, then enough of these steps bring out what was inside, in
its order. -/
theorem progress_run {α : Type*} {I : σ → Prop} {P : ε → Prop} {inside : σ → List α}
    {enters leaves : ο → List α} {μ : σ → ℕ} {p : ε → Bool} {gain : ε → ℕ} {w k : ℕ}
    (hI : ∀ s e o s', I s → P e → step s e = .ok (o, s') → I s')
    (hpipe : ∀ s e o s', step s e = .ok (o, s') → inside s ++ enters o = leaves o ++ inside s')
    (hstep : ∀ s e o s', I s → P e → inside s ≠ [] → step s e = .ok (o, s') →
      μ s' + (if p e then 1 else 0) ≤ μ s + gain e + w * (leaves o).length)
    (hs : I s) (hP : ∀ e ∈ es, P e) (h : run step s es = .ok (os, t))
    (hcount : μ s + (es.map gain).sum + w * k < es.countP p + w) :
    (inside s).take k <+: os.flatMap leaves := by
  have hbudget : (os.flatMap leaves).length < (inside s).length →
      μ t + es.countP p ≤ μ s + (es.map gain).sum + w * (os.flatMap leaves).length := by
    clear hcount
    induction es generalizing s os with
    | nil =>
      simp only [run_nil, Except.ok.injEq, Prod.mk.injEq] at h
      obtain ⟨rfl, rfl⟩ := h
      simp
    | cons e es ih =>
      obtain ⟨o, s', os', hst, hrun, rfl⟩ := run_cons_eq_ok.1 h
      obtain ⟨he, hes⟩ := List.forall_mem_cons.1 hP
      intro hlt
      have hlength := congrArg List.length (hpipe s e o s' hst)
      rw [List.flatMap_cons, List.length_append] at hlt ⊢
      rw [List.length_append, List.length_append] at hlength
      have hone := hstep s e o s' hs he (List.ne_nil_of_length_pos (by omega)) hst
      have hrest := ih (hI s e o s' hs he hst) hes hrun (by omega)
      rw [List.map_cons, List.sum_cons, List.countP_cons, Nat.mul_add]
      omega
  have hpass : inside s ++ os.flatMap enters = os.flatMap leaves ++ inside t :=
    pipeline_run (I := fun _ => True) (fun _ _ _ _ _ _ => trivial)
      (fun s e o s' _ hst => hpipe s e o s' hst) trivial h
  have htake : (inside s).take k <+: os.flatMap leaves ++ inside t :=
    hpass ▸ (List.take_prefix k _).trans (List.prefix_append _ _)
  refine List.prefix_of_prefix_length_le htake (List.prefix_append _ _) ?_
  rw [List.length_take]
  by_contra hshort
  have hk := Nat.mul_le_mul_left w (show (os.flatMap leaves).length + 1 ≤ k by omega)
  have hspent := hbudget (by omega)
  rw [Nat.mul_add] at hk
  omega

end Runs

section Steps

variable {step : σ → ε → Except φ (ο × σ)} {I : σ → Prop} {P Q : σ → ε → Prop} {s : σ}

/-- What these events have at every state of the invariant holds along the run over them. -/
theorem along_of_inv_mem {es : List ε} (hI : Invariant step I) (hP : ∀ e ∈ es, ∀ s, I s → P s e)
    (hs : I s) : Along step P s es := by
  induction es generalizing s with
  | nil => trivial
  | cons e es ih =>
    refine ⟨hP e List.mem_cons_self s hs, fun o s' h => ?_⟩
    exact ih (fun e' he' => hP e' (List.mem_cons_of_mem e he')) (hI s e o s' hs h)

/-- What holds at a step of every state of the invariant holds along every run. -/
theorem along_of_inv (hI : Invariant step I) (hP : ∀ s e, I s → P s e) (hs : I s) (es : List ε) :
    Along step P s es :=
  along_of_inv_mem hI (fun e _ s hs => hP s e hs) hs

/-- Under an invariant, what implies a property at each step implies it along each run. -/
theorem along_mono (hI : Invariant step I) (hPQ : ∀ s e, I s → P s e → Q s e) (hs : I s)
    {es : List ε} (h : Along step P s es) : Along step Q s es := by
  induction es generalizing s with
  | nil => trivial
  | cons e es ih => exact ⟨hPQ s e hs h.1, fun o s' hst => ih (hI s e o s' hs hst) (h.2 o s' hst)⟩

/-- Under an invariant, two properties equal at each step are equal along each run. -/
theorem along_congr (hI : Invariant step I) (hPQ : ∀ s e, I s → (P s e ↔ Q s e)) (hs : I s)
    (es : List ε) : Along step P s es ↔ Along step Q s es :=
  ⟨along_mono hI (fun s e h => (hPQ s e h).1) hs, along_mono hI (fun s e h => (hPQ s e h).2) hs⟩

/-- A run that faults breaks every property of steps that excludes the fault. -/
theorem not_along_of_run_error {f : φ} (hP : ∀ s e, P s e → step s e ≠ .error f) {es : List ε}
    (h : run step s es = .error f) : ¬ Along step P s es := by
  induction es generalizing s with
  | nil => simp at h
  | cons e es ih =>
    rintro ⟨hs, hrest⟩
    rcases hstep : step s e with g | ⟨o, s'⟩
    · rw [run_cons_error hstep, Except.error.injEq] at h
      exact hP s e hs (h ▸ hstep)
    · rcases hr : run step s' es with g | ⟨os, t⟩
      · have hg : g = f := by simpa [run, hstep, hr] using h
        exact ih (hg ▸ hr) (hrest o s' hstep)
      · simp [run_cons_ok hstep hr] at h

/-- `J` is what is known while `Q` has held. A step with `P` keeps `J`, and one without loses `Q`. -/
theorem along_iff_prefixes {J Q : List ο → σ → Prop} {P : σ → ε → Prop} (hQ : ∀ os s, J os s → Q os s)
    (hkeeps : ∀ os s e o s', J os s → step s e = .ok (o, s') → P s e → J (os ++ [o]) s')
    (hloses : ∀ os s e o s', J os s → step s e = .ok (o, s') → Q (os ++ [o]) s' → P s e)
    (hfaults : ∀ os s e f, J os s → step s e = .error f → P s e) {os : List ο} (h : J os s) :
    (∀ fs, fs <+: es → ∀ os' t, run step s fs = .ok (os', t) → Q (os ++ os') t) ↔
      Along step P s es := by
  induction es generalizing s os with
  | nil =>
    refine iff_of_true (fun fs hfs os' t hrun => ?_) trivial
    obtain rfl := List.prefix_nil.1 hfs
    obtain ⟨rfl, rfl⟩ := Prod.mk.inj (Except.ok.inj hrun)
    rw [List.append_nil]
    exact hQ os s h
  | cons e es ih =>
    rcases hs : step s e with f | ⟨o, s'⟩
    · refine iff_of_true (fun fs hfs os' t hrun => ?_) ⟨hfaults os s e f h hs, by simp [hs]⟩
      rcases fs with _ | ⟨e', fs⟩
      · obtain ⟨rfl, rfl⟩ := Prod.mk.inj (Except.ok.inj hrun)
        rw [List.append_nil]
        exact hQ os s h
      · obtain ⟨rfl, -⟩ := List.cons_prefix_cons.1 hfs
        simp [run_cons_error hs] at hrun
    · rw [along_cons_iff hs]
      constructor
      · intro hall
        have hP : P s e := by
          refine hloses os s e o s' h hs ?_
          exact hall [e] (List.prefix_append [e] es) [o] s' (run_cons_ok hs run_nil)
        refine ⟨hP, (ih (hkeeps os s e o s' h hs hP)).1 fun fs hfs os' t hrun => ?_⟩
        rw [List.append_assoc]
        exact hall (e :: fs) (List.cons_prefix_cons.2 ⟨rfl, hfs⟩) (o :: os') t (run_cons_ok hs hrun)
      · rintro ⟨hP, halong⟩ fs hfs os' t hrun
        rcases fs with _ | ⟨e', fs⟩
        · obtain ⟨rfl, rfl⟩ := Prod.mk.inj (Except.ok.inj hrun)
          rw [List.append_nil]
          exact hQ os s h
        · obtain ⟨rfl, htail⟩ := List.cons_prefix_cons.1 hfs
          obtain ⟨o', t', os'', hs', hrest, rfl⟩ := run_cons_eq_ok.1 hrun
          obtain ⟨rfl, rfl⟩ := Prod.mk.inj (Except.ok.inj (hs.symm.trans hs'))
          have hkept := (ih (hkeeps os s e' o s' h hs hP)).2 halong fs htail os'' t hrest
          rwa [List.append_assoc] at hkept

/-- A run all of whose steps go through does not fault. -/
theorem run_ok_of_along (hI : Invariant step I)
    (hP : ∀ s e, I s → P s e → ∃ o s', step s e = .ok (o, s')) (hs : I s) {es : List ε}
    (h : Along step P s es) : ∃ os t, run step s es = .ok (os, t) := by
  induction es generalizing s with
  | nil => exact ⟨[], s, rfl⟩
  | cons e es ih =>
    obtain ⟨hPs, hrest⟩ := h
    obtain ⟨o, s', hstep⟩ := hP s e hs hPs
    obtain ⟨os, t, hrun⟩ := ih (hI s e o s' hs hstep) (hrest o s' hstep)
    exact ⟨o :: os, t, run_cons_ok hstep hrun⟩

end Steps

/-- What every step that goes through needs holds along a run that goes through. -/
theorem along_of_run_ok {step : σ → ε → Except φ (ο × σ)} {I : σ → Prop} {P : σ → ε → Prop} {s t : σ}
    {es : List ε} {os : List ο} (hI : Invariant step I)
    (hP : ∀ s e o s', I s → step s e = .ok (o, s') → P s e) (hs : I s)
    (h : run step s es = .ok (os, t)) : Along step P s es := by
  induction es generalizing s os with
  | nil => trivial
  | cons e es ih =>
    obtain ⟨o, s', os', hstep, hrun, -⟩ := run_cons_eq_ok.1 h
    exact along_cons_ok hstep (hP s e o s' hs hstep) (ih (hI s e o s' hs hstep) hrun)

/-- **Simulation by a projection.** If `g` takes each step of one component to a step of another, and
`f` its output to the other's, then so it does with runs. -/
theorem run_map {step : σ → ε → Except φ (ο × σ)} {step' : τ → ε → Except ψ (ο' × τ)} (f : ο' → ο)
    (g : τ → σ)
    (hstep : ∀ u e, ∃ o u', step' u e = .ok (o, u') ∧ step (g u) e = .ok (f o, g u')) (u : τ)
    (es : List ε) :
    ∃ os v, run step' u es = .ok (os, v) ∧ run step (g u) es = .ok (os.map f, g v) := by
  induction es generalizing u with
  | nil => exact ⟨[], u, rfl, rfl⟩
  | cons e es ih =>
    obtain ⟨o, u', h, h'⟩ := hstep u e
    obtain ⟨os, v, hr, hr'⟩ := ih u'
    exact ⟨o :: os, v, run_cons_ok h hr, run_cons_ok h' hr'⟩

/-- The same outcome: the same fault, or the same output and related states. -/
inductive Same (R : σ → τ → Prop) : Except φ (ο × σ) → Except φ (ο × τ) → Prop
  | ok {o : ο} {s : σ} {u : τ} (hR : R s u) : Same R (.ok (o, s)) (.ok (o, u))
  | error (f : φ) : Same R (.error f) (.error f)

/-- **Simulation of runs.** If from related states each step has the same outcome in both, then so has
each run. -/
theorem run_same {step : σ → ε → Except φ (ο × σ)} {step' : τ → ε → Except φ (ο × τ)}
    {R : σ → τ → Prop} {G : τ → ε → Prop}
    (hstep : ∀ s u e, R s u → G u e → Same R (step s e) (step' u e))
    {s : σ} {u : τ} (hR : R s u) {es : List ε} (hG : Along step' G u es) :
    Same R (run step s es) (run step' u es) := by
  induction es generalizing s u with
  | nil => exact .ok hR
  | cons e es ih =>
    have hsame := hstep s u e hR hG.1
    rcases hs : step s e with f | ⟨o, s'⟩ <;> rcases hu : step' u e with g | ⟨o', u'⟩ <;>
      rw [hs, hu] at hsame
    · obtain ⟨⟩ := hsame
      rw [run_cons_error hs, run_cons_error hu]
      exact .error f
    · cases hsame
    · cases hsame
    · obtain ⟨hR'⟩ := hsame
      have hrest := ih hR' (hG.2 o u' hu)
      rcases hr : run step s' es with f | ⟨os, t⟩ <;> rcases hv : run step' u' es with g | ⟨os', v⟩ <;>
        rw [hr, hv] at hrest
      · obtain ⟨⟩ := hrest
        simp only [run, hs, hu, hr, hv]
        exact .error f
      · cases hrest
      · cases hrest
      · obtain ⟨hRt⟩ := hrest
        rw [run_cons_ok hs hr, run_cons_ok hu hv]
        exact .ok hRt

/-- **A part of a whole.** If each step of the whole is a run of the part, then so is a run of the whole. -/
theorem run_part {step : σ → ε → Except φ (ο × σ)} {ε' : Type*} {step' : τ → ε' → Except ψ (ο' × τ)}
    (g : τ → σ) (events : ο' → List ε) (outs : ο' → List ο)
    (hstep : ∀ u e o u', step' u e = .ok (o, u') → run step (g u) (events o) = .ok (outs o, g u'))
    {u v : τ} {es : List ε'} {os : List ο'} (h : run step' u es = .ok (os, v)) :
    run step (g u) (os.flatMap events) = .ok (os.flatMap outs, g v) := by
  induction es generalizing u os with
  | nil =>
    simp only [run_nil, Except.ok.injEq, Prod.mk.injEq] at h
    obtain ⟨rfl, rfl⟩ := h
    rfl
  | cons e es ih =>
    obtain ⟨o, u', os', hst, hrun, rfl⟩ := run_cons_eq_ok.1 h
    rw [List.flatMap_cons, List.flatMap_cons]
    exact run_append_ok (hstep u e o u' hst) (ih hrun)

/-- **Refinement of runs.** If from related states each guarded concrete step does what the abstract
step does, with the same output and into related states, then so does each guarded run. -/
theorem run_refines {step : σ → ε → Except φ (ο × σ)} {step' : τ → ε → Except ψ (ο × τ)}
    {R : σ → τ → Prop} {G : σ → ε → Prop}
    (hstep : ∀ s u e, R s u → G s e →
      ∃ o s' u', step s e = .ok (o, s') ∧ step' u e = .ok (o, u') ∧ R s' u')
    {s : σ} {u : τ} (hR : R s u) {es : List ε} (hG : Along step G s es) :
    ∃ os t v, run step s es = .ok (os, t) ∧ run step' u es = .ok (os, v) ∧ R t v := by
  induction es generalizing s u with
  | nil => exact ⟨[], s, u, rfl, rfl, hR⟩
  | cons e es ih =>
    obtain ⟨hGs, hrest⟩ := hG
    obtain ⟨o, s', u', h, h', hR'⟩ := hstep s u e hR hGs
    obtain ⟨os, t, v, hr, hr', hRt⟩ := ih hR' (hrest o s' h)
    exact ⟨o :: os, t, v, run_cons_ok h hr, run_cons_ok h' hr', hRt⟩

/-- The relation leads from one state to another over the events, with these outputs. -/
inductive Trace (T : τ → ε → ο → τ → Prop) : τ → List ε → List ο → τ → Prop
  | nil (u : τ) : Trace T u [] [] u
  | cons {u u' v : τ} {e : ε} {o : ο} {es : List ε} {os : List ο} (hT : T u e o u')
      (hrest : Trace T u' es os v) : Trace T u (e :: es) (o :: os) v

/-- **Refinement of a relation.** If from related states each step does what the relation allows, into
related states, then so does each run. -/
theorem trace_of_run {step : σ → ε → Except φ (ο × σ)} {T : τ → ε → ο → τ → Prop} {R : σ → τ → Prop}
    (hstep : ∀ s u e o s', R s u → step s e = .ok (o, s') → ∃ u', T u e o u' ∧ R s' u') {s t : σ} {u : τ}
    {es : List ε} {os : List ο} (hR : R s u) (h : run step s es = .ok (os, t)) :
    ∃ v, Trace T u es os v ∧ R t v := by
  induction es generalizing s u os with
  | nil =>
    simp only [run_nil, Except.ok.injEq, Prod.mk.injEq] at h
    obtain ⟨rfl, rfl⟩ := h
    exact ⟨u, .nil u, hR⟩
  | cons e es ih =>
    obtain ⟨o, s', os', hst, hrun, rfl⟩ := run_cons_eq_ok.1 h
    obtain ⟨u', hT, hR'⟩ := hstep s u e o s' hR hst
    obtain ⟨v, htrace, hRt⟩ := ih hR' hrun
    exact ⟨v, .cons hT htrace, hRt⟩

end RcControl.Lib.Run
