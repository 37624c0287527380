import Mathlib.Data.List.Basic
import Mathlib.Data.List.Nodup
import Mathlib.Logic.Function.Basic
import Mathlib.Logic.Relation
import Mathlib.Order.WellFounded
import Mathlib.Data.Fintype.EquivFin

/-!
# Lists linked through a field of their members

`next` gives the link of each cell. `Linked next first l` says that the links lead from `first` through
the cells of `l`, in this order, to the null link. The links determine the list (`linked_unique`), so no
cell comes twice (`linked_nodup`), and only the links of its own cells matter (`linked_congr`).

Among finitely many cells the links lead to each one from a cell that no link leads to, unless it is on a
ring (`origin_or_ring`).
-/

namespace RcControl.Lib.Links

variable {α : Type*} {next next' : α → Option α} {first : Option α} {b x : α} {l m : List α}

/-- The links lead from `first` through `l`. -/
def Linked (next : α → Option α) : Option α → List α → Prop
  | first, [] => first = none
  | first, b :: l => first = some b ∧ Linked next (next b) l

@[simp] lemma linked_nil : Linked next first [] ↔ first = none := Iff.rfl

lemma linked_head (h : Linked next first l) : first = l.head? := by
  cases l with
  | nil => exact h
  | cons b l => exact h.1

theorem linked_unique (h : Linked next first l) (h' : Linked next first m) : l = m := by
  induction l generalizing first m with
  | nil =>
    cases m with
    | nil => rfl
    | cons c m => cases h.symm.trans h'.1
  | cons b l ih =>
    cases m with
    | nil => cases h'.symm.trans h.1
    | cons c m =>
      obtain rfl : b = c := Option.some.inj (h.1.symm.trans h'.1)
      rw [ih h.2 h'.2]

/-- From a cell on, the links lead through the rest of the list. -/
lemma linked_suffix (h : Linked next first (l ++ b :: m)) : Linked next (next b) m := by
  induction l generalizing first with
  | nil => exact h.2
  | cons c l ih => exact ih h.2

theorem linked_nodup (h : Linked next first l) : l.Nodup := by
  induction l generalizing first with
  | nil => exact List.nodup_nil
  | cons b l ih =>
    refine List.nodup_cons.2 ⟨fun hb => ?_, ih h.2⟩
    -- a second `b` would have the rest of its own rest behind it
    obtain ⟨l₁, l₂, rfl⟩ := List.append_of_mem hb
    have hlen := congrArg List.length (linked_unique h.2 (linked_suffix h.2))
    simp at hlen
    omega

theorem linked_congr (heq : ∀ c ∈ l, next' c = next c) (h : Linked next first l) :
    Linked next' first l := by
  induction l generalizing first with
  | nil => exact h
  | cons b l ih =>
    refine ⟨h.1, ?_⟩
    rw [heq b List.mem_cons_self]
    exact ih (fun c hc => heq c (List.mem_cons_of_mem b hc)) h.2

/-- The link of `a` leads to `b`. -/
def Follows (next : α → Option α) (a b : α) : Prop := next a = some b

/-- What a ring leads to is on it, since each cell has one link. -/
lemma ring_of_reflTransGen (h : Relation.ReflTransGen (Follows next) b x)
    (hring : Relation.TransGen (Follows next) b b) : Relation.TransGen (Follows next) x x := by
  induction h using Relation.ReflTransGen.head_induction_on with
  | refl => exact hring
  | head hstep _ ih =>
    obtain ⟨c, hc, hback⟩ := Relation.TransGen.head'_iff.1 hring
    obtain rfl := Option.some.inj (hc.symm.trans hstep)
    exact ih (Relation.TransGen.tail' hback hc)

theorem origin_or_ring [Finite α] (next : α → Option α) (x : α) :
    (∃ b, Relation.ReflTransGen (Follows next) b x ∧ ∀ a, next a ≠ some b) ∨
      Relation.TransGen (Follows next) x x := by
  by_cases hring : Relation.TransGen (Follows next) x x
  · exact .inr hring
  left
  -- among the cells that lead to `x` the links have no ring, so one of them comes first
  let before := fun a b : {b // Relation.ReflTransGen (Follows next) b x} =>
    Relation.TransGen (Follows next) (a : α) b
  have htrans : IsTrans _ before := ⟨fun _ _ _ h h' => h.trans h'⟩
  have hirrefl : Std.Irrefl before := ⟨fun b hb => hring (ring_of_reflTransGen b.2 hb)⟩
  obtain ⟨b, -, hfirst⟩ :=
    (Finite.wellFounded_of_trans_of_irrefl before).has_min Set.univ ⟨⟨x, .refl⟩, trivial⟩
  refine ⟨b, b.2, fun a ha => ?_⟩
  exact hfirst ⟨a, .head ha b.2⟩ trivial (.single ha)

variable [DecidableEq α]

/-- A cell in front of the list. -/
theorem linked_front (h : Linked next first l) (hb : b ∉ l) :
    Linked (Function.update next b first) (some b) (b :: l) := by
  refine ⟨rfl, ?_⟩
  rw [Function.update_self]
  refine linked_congr (fun c hc => ?_) h
  have hcb : c ≠ b := fun hcb => hb (hcb ▸ hc)
  rw [Function.update_of_ne hcb]

/-- A cell behind the last one. -/
theorem linked_behind (h : Linked next first (l ++ [x])) (hb : b ∉ l ++ [x]) :
    Linked (Function.update (Function.update next x (some b)) b none) first (l ++ [x] ++ [b]) := by
  have hnodup := linked_nodup h
  induction l generalizing first with
  | nil =>
    have hxb : x ≠ b := fun hxb => hb (by simp [hxb])
    refine ⟨h.1, ?_, ?_⟩
    · rw [Function.update_of_ne hxb, Function.update_self]
    · rw [Function.update_self, linked_nil]
  | cons c l ih =>
    obtain ⟨hc, hnodup⟩ := List.nodup_cons.1 hnodup
    have hcx : c ≠ x := fun hcx => hc (by simp [hcx])
    have hcb : c ≠ b := fun hcb => hb (by simp [hcb])
    refine ⟨h.1, ?_⟩
    rw [Function.update_of_ne hcb, Function.update_of_ne hcx]
    exact ih h.2 (fun hmem => hb (List.mem_cons_of_mem c hmem)) hnodup

end RcControl.Lib.Links
