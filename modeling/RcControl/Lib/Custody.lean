import Mathlib.Data.List.Perm.Basic
import Mathlib.Logic.Function.Basic

/-!
# Tokens that change hands

A board says, for each place, which tokens are there. A token `HeldAt` a place is there once, and at
no other place. `Moves` is a step that takes one token from one place to another and leaves the rest
as it is; it may put the token anywhere among those that are there.

`Keeps` is the invariant: every token issued is held at a place on its route, and no other token is on
the board. `Keeps.moves` and `Keeps.perm` are the rules for a step, `moves_update` is how a step is
seen to be a move.
-/

namespace RcControl.Lib.Custody

variable {π τ : Type*} {b b' : π → List τ} {t u : τ} {p q r : π}

section Held

variable [DecidableEq τ]

/-- `t` is at `p`, once, and nowhere else. -/
def HeldAt (b : π → List τ) (t : τ) (p : π) : Prop :=
  (b p).count t = 1 ∧ ∀ q, q ≠ p → t ∉ b q

theorem HeldAt.mem (h : HeldAt b t p) : t ∈ b p :=
  List.count_pos_iff.1 (by rw [h.1]; exact Nat.one_pos)

theorem HeldAt.eq_of_mem (h : HeldAt b t p) (hq : t ∈ b q) : q = p := by
  by_contra hne
  exact h.2 q hne hq

end Held

/-- `t` goes from `p` to `q`. -/
structure Moves (b b' : π → List τ) (t : τ) (p q : π) : Prop where
  ne : p ≠ q
  leaves : (b p).Perm (t :: b' p)
  arrives : (b' q).Perm (t :: b q)
  others : ∀ r, r ≠ p → r ≠ q → b' r = b r

namespace Moves

lemma mem_iff (h : Moves b b' t p q) (hu : u ≠ t) (r : π) : u ∈ b' r ↔ u ∈ b r := by
  by_cases hp : r = p
  · subst hp
    rw [h.leaves.mem_iff, List.mem_cons, or_iff_right hu]
  by_cases hq : r = q
  · subst hq
    rw [h.arrives.mem_iff, List.mem_cons, or_iff_right hu]
  · rw [h.others r hp hq]

variable [DecidableEq τ]

lemma count_eq (h : Moves b b' t p q) (hu : u ≠ t) (r : π) : (b' r).count u = (b r).count u := by
  by_cases hp : r = p
  · subst hp
    rw [h.leaves.count_eq, List.count_cons_of_ne (Ne.symm hu)]
  by_cases hq : r = q
  · subst hq
    rw [h.arrives.count_eq, List.count_cons_of_ne (Ne.symm hu)]
  · rw [h.others r hp hq]

/-- The other tokens stay. -/
theorem heldAt_of_ne (h : Moves b b' t p q) (hu : u ≠ t) (hr : HeldAt b u r) : HeldAt b' u r :=
  ⟨(h.count_eq hu r).trans hr.1, fun r' hne hmem => hr.2 r' hne ((h.mem_iff hu r').1 hmem)⟩

/-- The token that moves is where it came to. -/
theorem heldAt_self (h : Moves b b' t p q) (hr : HeldAt b t r) : HeldAt b' t q := by
  have hp : p = r := hr.eq_of_mem (h.leaves.mem_iff.2 List.mem_cons_self)
  subst hp
  refine ⟨?_, fun r hne hmem => ?_⟩
  · rw [h.arrives.count_eq, List.count_cons_self, List.count_eq_zero.2 (hr.2 q (Ne.symm h.ne))]
  by_cases hp : r = p
  · subst hp
    have hcount := hr.1
    rw [h.leaves.count_eq, List.count_cons_self] at hcount
    exact List.count_eq_zero.1 (Nat.succ.inj hcount) hmem
  · rw [h.others r hp hne] at hmem
    exact hr.2 r hp hmem

end Moves

/-- A change of the board at two places. -/
theorem moves_update [DecidableEq π] {l m : List τ} (hne : p ≠ q) (hl : (b p).Perm (t :: l))
    (hm : m.Perm (t :: b q)) : Moves b (Function.update (Function.update b p l) q m) t p q where
  ne := hne
  leaves := by rwa [Function.update_of_ne hne, Function.update_self]
  arrives := by rwa [Function.update_self]
  others r hp hq := by rw [Function.update_of_ne hq, Function.update_of_ne hp]

section Keeps

variable [DecidableEq τ] {issued : τ → Prop} {route : τ → π → Prop}

/-- Every token issued is held at a place of its route, and nothing else is on the board. -/
structure Keeps (issued : τ → Prop) (route : τ → π → Prop) (b : π → List τ) : Prop where
  held : ∀ t, issued t → ∃ p, route t p ∧ HeldAt b t p
  issued : ∀ p, ∀ t ∈ b p, issued t

/-- A token on the board is on its route. -/
theorem Keeps.on_route (h : Keeps issued route b) (ht : t ∈ b p) : route t p := by
  obtain ⟨q, hroute, hq⟩ := h.held t (h.issued p t ht)
  exact hq.eq_of_mem ht ▸ hroute

/-- **A move along the route keeps custody.** -/
theorem Keeps.moves (h : Keeps issued route b) (hm : Moves b b' t p q) (hq : route t q) :
    Keeps issued route b' := by
  constructor
  · intro u hu
    obtain ⟨r, hroute, hr⟩ := h.held u hu
    by_cases hut : u = t
    · subst hut
      exact ⟨q, hq, hm.heldAt_self hr⟩
    · exact ⟨r, hroute, hm.heldAt_of_ne hut hr⟩
  · intro r u hu
    by_cases hut : u = t
    · subst hut
      exact h.issued p u (hm.leaves.mem_iff.2 List.mem_cons_self)
    · exact h.issued r u ((hm.mem_iff hut r).1 hu)

/-- The order at a place is free. -/
theorem Keeps.perm (h : Keeps issued route b) (hb : ∀ r, (b' r).Perm (b r)) : Keeps issued route b' := by
  constructor
  · intro t ht
    obtain ⟨p, hroute, hcount, hother⟩ := h.held t ht
    exact ⟨p, hroute, ((hb p).count_eq t).trans hcount,
      fun q hne hmem => hother q hne ((hb q).mem_iff.1 hmem)⟩
  · exact fun p t ht => h.issued p t ((hb p).mem_iff.1 ht)

end Keeps

end RcControl.Lib.Custody
