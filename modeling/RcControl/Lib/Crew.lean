import Mathlib.Algebra.Ring.Nat
import Mathlib.Algebra.BigOperators.Group.List.Basic
import Mathlib.Data.List.Perm.Basic
import Mathlib.Data.List.Nodup
import Mathlib.Data.List.Forall2

/-!
# A crew

The places of the members of a crew are a list; at a step one member goes from one place to another
(`List.set`). What the crew has in all, counted or collected over its members, then changes by what that
member had before and has after: `perm_set` says so of the list itself, and `countP_set`, `sum_set` and
`flatMap_set` of what is drawn from it; `flow_set` says so of what passes through. Two crews whose members
match do so after matching moves (`forall₂_set`).
-/

namespace RcControl.Lib.Crew

variable {π β : Type*} {l : List π} {i : ℕ} {a : π}

/-- **One member moves.** -/
theorem perm_set (h : l[i]? = some a) (b : π) : (a :: l.set i b).Perm (b :: l) := by
  obtain ⟨hi, rfl⟩ := List.getElem?_eq_some_iff.1 h
  have hrest : (b :: l[i] :: l.eraseIdx i).Perm (b :: l) :=
    (List.getElem_cons_eraseIdx_perm hi).cons b
  refine List.Perm.trans ?_ hrest
  exact ((List.set_perm_cons_eraseIdx hi b).cons l[i]).trans (List.Perm.swap ..)

lemma getElem?_set (h : l[i]? = some a) (b : π) (j : ℕ) :
    (l.set i b)[j]? = if i = j then some b else l[j]? := by
  rw [List.getElem?_set, if_pos (List.getElem?_eq_some_iff.1 h).1]

lemma countP_set (h : l[i]? = some a) (b : π) (p : π → Bool) :
    (l.set i b).countP p + (if p a then 1 else 0) = l.countP p + if p b then 1 else 0 := by
  have hperm := (perm_set h b).countP_eq p
  rwa [List.countP_cons, List.countP_cons] at hperm

lemma countP_set_toNat (h : l[i]? = some a) (b : π) (p : π → Bool) :
    (l.set i b).countP p + (p a).toNat = l.countP p + (p b).toNat := by
  have hset := countP_set h b p
  rwa [← Bool.cond_eq_ite, ← Bool.cond_eq_ite] at hset

lemma sum_set (h : l[i]? = some a) (b : π) (f : π → ℕ) :
    ((l.set i b).map f).sum + f a = (l.map f).sum + f b := by
  have hperm := ((perm_set h b).map f).sum_eq
  rw [List.map_cons, List.map_cons, List.sum_cons, List.sum_cons] at hperm
  omega

lemma flatMap_set (h : l[i]? = some a) (b : π) (f : π → List β) :
    (f a ++ (l.set i b).flatMap f).Perm (f b ++ l.flatMap f) := by
  have hperm := (perm_set h b).flatMap_right f
  rwa [List.flatMap_cons, List.flatMap_cons] at hperm

lemma flatMap_set_of_eq (h : l[i]? = some a) {b : π} {f : π → List β} (hab : f b = f a) :
    (l.set i b).flatMap f = l.flatMap f := by
  induction l generalizing i with
  | nil => rfl
  | cons c l ih =>
    cases i with
    | zero =>
      obtain rfl : c = a := Option.some.inj h
      rw [List.set_cons_zero, List.flatMap_cons, List.flatMap_cons, hab]
    | succ i => rw [List.set_cons_succ, List.flatMap_cons, List.flatMap_cons, ih h]

/-- What the one who moves takes up and gives off, the crew does. -/
theorem flow_set (h : l[i]? = some a) {b : π} {f : π → List β} {enters leaves : List β}
    (hab : (f a ++ enters).Perm (leaves ++ f b)) :
    (l.flatMap f ++ enters).Perm (leaves ++ (l.set i b).flatMap f) := by
  refine (List.perm_append_left_iff (f a)).1 ?_
  calc f a ++ (l.flatMap f ++ enters)
    _ = (f a ++ l.flatMap f) ++ enters := (List.append_assoc ..).symm
    _ |>.Perm ((f a ++ enters) ++ l.flatMap f) := by
      rw [List.append_assoc, List.append_assoc]
      exact List.perm_append_comm.append_left _
    _ |>.Perm (leaves ++ (f b ++ l.flatMap f)) := by
      rw [← List.append_assoc leaves]
      exact hab.append_right _
    _ |>.Perm (leaves ++ (f a ++ (l.set i b).flatMap f)) := (flatMap_set h b f).symm.append_left _
    _ |>.Perm (f a ++ (leaves ++ (l.set i b).flatMap f)) := List.perm_append_comm_assoc ..

/-- What no two members share. -/
lemma disjoint_of_ne {f : π → List β} {j : ℕ} {b : π} (h : (l.flatMap f).Nodup) (hi : l[i]? = some a)
    (hj : l[j]? = some b) (hij : i ≠ j) : (f a).Disjoint (f b) := by
  have hpair := (List.nodup_flatMap.1 h).2
  obtain ⟨hil, rfl⟩ := List.getElem?_eq_some_iff.1 hi
  obtain ⟨hjl, rfl⟩ := List.getElem?_eq_some_iff.1 hj
  rcases Nat.lt_or_gt_of_ne hij with hlt | hlt
  · exact List.pairwise_iff_getElem.1 hpair i j hil hjl hlt
  · exact fun x ha hb => List.pairwise_iff_getElem.1 hpair j i hjl hil hlt hb ha

lemma mem_set_cases {b c : π} (h : c ∈ l.set i b) : c = b ∨ ∃ j, j ≠ i ∧ l[j]? = some c := by
  obtain ⟨j, hj⟩ := List.mem_iff_getElem?.1 h
  rw [List.getElem?_set] at hj
  split at hj
  · split at hj
    · exact .inl (Option.some.inj hj).symm
    · cases hj
  · exact .inr ⟨j, Ne.symm ‹_›, hj⟩

/-! ### Two crews in step -/

section Two

variable {ρ : Type*} {R : π → ρ → Prop} {m : List ρ} {c : ρ}

lemma forall₂_set (h : List.Forall₂ R l m) (i : ℕ) (hac : R a c) :
    List.Forall₂ R (l.set i a) (m.set i c) := by
  induction h generalizing i with
  | nil => exact .nil
  | cons hbd h ih =>
    cases i with
    | zero => exact .cons hac h
    | succ i => exact .cons hbd (ih i)

lemma rel_getElem? (h : List.Forall₂ R l m) (i : ℕ) : Option.Rel R l[i]? m[i]? := by
  induction h generalizing i with
  | nil => exact .none
  | cons hbd h ih =>
    cases i with
    | zero => exact .some hbd
    | succ i => exact ih i

end Two

end RcControl.Lib.Crew
