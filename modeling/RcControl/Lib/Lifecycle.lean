import Mathlib.Data.List.Nodup

/-!
# Acquired and released

A log says in which order resources were acquired and released. It is `Balanced` if every resource
acquired was released exactly once, and no release came before the acquisition. `settle` decides it,
reading the log from the front with the resources that are held: a release must find its resource held,
and nothing may be held at the end. For a log in which no resource is acquired twice the two agree
(`balanced_iff_settle`).
-/

namespace RcControl.Lib.Lifecycle

variable {ρ : Type*}

inductive Step (ρ : Type*) where
  | acquire (r : ρ)
  | release (r : ρ)
  deriving DecidableEq

/-- The resources a log acquires. -/
def acquired : List (Step ρ) → List ρ
  | [] => []
  | .acquire r :: log => r :: acquired log
  | .release _ :: log => acquired log

section Settle

variable {held : List ρ} {log : List (Step ρ)} {r : ρ}

lemma mem_acquired : r ∈ acquired log ↔ .acquire r ∈ log := by
  induction log with
  | nil => simp [acquired]
  | cons s log ih => cases s <;> simp [acquired, ih]

lemma acquired_append (log log' : List (Step ρ)) :
    acquired (log ++ log') = acquired log ++ acquired log' := by
  induction log with
  | nil => rfl
  | cons s log ih => cases s <;> simp [acquired, ih]

variable [DecidableEq ρ]

/-- Each resource acquired is released once, and after its acquisition. -/
structure Balanced (log : List (Step ρ)) : Prop where
  once : ∀ r, .acquire r ∈ log → log.count (.release r) = 1
  after : ∀ pre post r, log = pre ++ .release r :: post → .acquire r ∈ pre

/-- The resources held after the log, `none` if one was released that was not held. -/
def settle : List ρ → List (Step ρ) → Option (List ρ)
  | held, [] => some held
  | held, .acquire r :: log => settle (r :: held) log
  | held, .release r :: log => if r ∈ held then settle (held.erase r) log else none

/-- What is held after one log is what the next begins with. -/
lemma settle_append (held : List ρ) (log log' : List (Step ρ)) :
    settle held (log ++ log') = (settle held log).bind fun held => settle held log' := by
  induction log generalizing held with
  | nil => rfl
  | cons s log ih =>
    cases s with
    | acquire r => exact ih (r :: held)
    | release r =>
      rw [List.cons_append, settle, settle]
      split
      · exact ih (held.erase r)
      · rfl

/-- `Balanced`, when some resources are held already. -/
structure BalancedFrom (held : List ρ) (log : List (Step ρ)) : Prop where
  once : ∀ r, r ∈ held ∨ .acquire r ∈ log → log.count (.release r) = 1
  after : ∀ pre post r, log = pre ++ .release r :: post → r ∈ held ∨ .acquire r ∈ pre

lemma balancedFrom_nil : BalancedFrom held ([] : List (Step ρ)) ↔ held = [] := by
  constructor
  · intro h
    apply List.eq_nil_iff_forall_not_mem.2
    intro r hr
    simpa using h.once r (Or.inl hr)
  · rintro rfl
    exact ⟨by simp, by simp⟩

lemma balancedFrom_acquire :
    BalancedFrom held (.acquire r :: log) ↔ BalancedFrom (r :: held) log := by
  constructor
  · rintro ⟨honce, hafter⟩
    refine ⟨fun x hx => ?_, fun pre post x heq => ?_⟩
    · have := honce x (by simpa [or_assoc, or_left_comm, eq_comm] using hx)
      simpa using this
    · have := hafter (.acquire r :: pre) post x (by rw [heq, List.cons_append])
      simpa [or_assoc, or_left_comm, eq_comm] using this
  · rintro ⟨honce, hafter⟩
    refine ⟨fun x hx => ?_, fun pre post x heq => ?_⟩
    · have := honce x (by simpa [or_assoc, or_left_comm, eq_comm] using hx)
      simpa using this
    · rcases pre with _ | ⟨s, pre⟩
      · simp at heq
      · obtain ⟨rfl, htail⟩ := List.cons.inj heq
        have := hafter pre post x htail
        simpa [or_assoc, or_left_comm, eq_comm] using this

/-- What is released is not released again. -/
lemma BalancedFrom.release_notMem (h : BalancedFrom held (.release r :: log)) (hin : r ∈ held) :
    .release r ∉ log := by
  have hone := h.once r (Or.inl hin)
  rw [List.count_cons_self] at hone
  exact List.count_eq_zero.1 (Nat.succ.inj hone)

lemma BalancedFrom.tail_release (h : BalancedFrom held (.release r :: log)) (hnodup : held.Nodup)
    (hin : r ∈ held) (hfresh : .acquire r ∉ log) : BalancedFrom (held.erase r) log := by
  have hzero := h.release_notMem hin
  constructor
  · intro x hx
    have hxr : x ≠ r := by
      rintro rfl
      exact hx.elim (fun hx => (hnodup.mem_erase_iff.1 hx).1 rfl) hfresh
    have hone := h.once x (hx.imp List.mem_of_mem_erase (List.mem_cons_of_mem _))
    rwa [List.count_cons_of_ne (by simpa using Ne.symm hxr)] at hone
  · intro pre post x heq
    have hxr : x ≠ r := by
      rintro rfl
      exact hzero (heq ▸ List.mem_append_right _ List.mem_cons_self)
    rcases h.after (.release r :: pre) post x (by rw [heq, List.cons_append]) with hx | hx
    · exact Or.inl (hnodup.mem_erase_iff.2 ⟨hxr, hx⟩)
    · exact Or.inr (by simpa using hx)

lemma BalancedFrom.cons_release (h : BalancedFrom (held.erase r) log) (hnodup : held.Nodup)
    (hin : r ∈ held) (hfresh : .acquire r ∉ log) : BalancedFrom held (.release r :: log) := by
  have hzero : .release r ∉ log := by
    intro hrel
    obtain ⟨pre, post, heq⟩ := List.append_of_mem hrel
    rcases h.after pre post r heq with hx | hx
    · exact (hnodup.mem_erase_iff.1 hx).1 rfl
    · exact hfresh (heq ▸ List.mem_append_left _ hx)
  constructor
  · intro x hx
    by_cases hxr : x = r
    · subst hxr
      rw [List.count_cons_self, List.count_eq_zero.2 hzero]
    · rw [List.count_cons_of_ne (by simpa using Ne.symm hxr)]
      apply h.once x
      rcases hx with hx | hx
      · exact Or.inl (hnodup.mem_erase_iff.2 ⟨hxr, hx⟩)
      · exact Or.inr (by simpa using hx)
  · intro pre post x heq
    rcases pre with _ | ⟨s, pre⟩
    · obtain ⟨hs, -⟩ := List.cons.inj heq
      exact Or.inl (Step.release.inj hs ▸ hin)
    · obtain ⟨rfl, htail⟩ := List.cons.inj heq
      exact (h.after pre post x htail).imp List.mem_of_mem_erase (List.mem_cons_of_mem _)

lemma balancedFrom_release (hnodup : held.Nodup) (hin : r ∈ held) (hfresh : .acquire r ∉ log) :
    BalancedFrom held (.release r :: log) ↔ BalancedFrom (held.erase r) log :=
  ⟨fun h => h.tail_release hnodup hin hfresh, fun h => h.cons_release hnodup hin hfresh⟩

/-- Settling, when some resources are held already. -/
theorem settle_iff (held : List ρ) (hnodup : (held ++ acquired log).Nodup) :
    settle held log = some [] ↔ BalancedFrom held log := by
  induction log generalizing held with
  | nil => rw [settle, Option.some.injEq, balancedFrom_nil]
  | cons s log ih =>
    cases s with
    | acquire r =>
      rw [settle, balancedFrom_acquire]
      refine ih _ ?_
      rw [acquired] at hnodup
      exact List.perm_middle.nodup_iff.1 hnodup
    | release r =>
      rw [acquired] at hnodup
      by_cases hin : r ∈ held
      · have hfresh : .acquire r ∉ log := fun hacq =>
          (List.nodup_append.1 hnodup).2.2 r hin r (mem_acquired.2 hacq) rfl
        rw [settle, if_pos hin, balancedFrom_release hnodup.of_append_left hin hfresh]
        exact ih _ (hnodup.sublist (List.erase_sublist.append_right _))
      · rw [settle, if_neg hin]
        apply iff_of_false (by simp)
        intro h
        rcases h.after [] log r rfl with hx | hx
        · exact hin hx
        · simp at hx

/-- **Settling decides balance**, if no resource is acquired twice. -/
theorem balanced_iff_settle (hnodup : (acquired log).Nodup) :
    Balanced log ↔ settle [] log = some [] := by
  rw [settle_iff [] hnodup]
  constructor
  · rintro ⟨honce, hafter⟩
    constructor
    · intro r hr
      exact honce r (by simpa using hr)
    · intro pre post r heq
      exact Or.inr (hafter pre post r heq)
  · rintro ⟨honce, hafter⟩
    constructor
    · intro r hr
      exact honce r (Or.inr hr)
    · intro pre post r heq
      exact by simpa using hafter pre post r heq

end Settle

end RcControl.Lib.Lifecycle
