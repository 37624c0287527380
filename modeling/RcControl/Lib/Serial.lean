import Mathlib.Algebra.Ring.Int.Defs
import Mathlib.Algebra.Ring.Nat
import Mathlib.Data.List.Chain

/-!
# Serial arithmetic

Counters of `w` bits that wrap around. One is ahead of another if it is less than half the circle on
from it, so that a sequence runs forwards as long as none of its steps goes half way around. And who
is told to act whenever more than a limit has passed since the last time, and sees only the counter,
keeps the cadence as long as no step and the limit together go around (`counterCadence_ofInt`).
-/

namespace RcControl.Lib.Serial

variable {w : ℕ}

/-- `b` is `a`, or less than half the circle ahead of it. -/
def Forward (a b : BitVec w) : Prop := 2 * (b - a).toNat < 2 ^ w

/-- The sequence does not run backwards. -/
def NeverBackwards (l : List (BitVec w)) : Prop := l.IsChain Forward

lemma add_sub_add_left (c a b : BitVec w) : c + b - (c + a) = b - a := by
  rw [BitVec.sub_eq_add_neg, BitVec.sub_eq_add_neg, BitVec.neg_add, BitVec.sub_eq_add_neg,
    BitVec.add_comm c b, BitVec.add_assoc, ← BitVec.add_assoc c, ← BitVec.sub_eq_add_neg c c,
    BitVec.sub_self, BitVec.zero_add]

/-- Where the circle starts does not matter. -/
theorem forward_add_left (c a b : BitVec w) : Forward (c + a) (c + b) ↔ Forward a b := by
  unfold Forward
  rw [add_sub_add_left]

/-- The distance of two numbers on the circle. -/
theorem toNat_ofInt_sub (m n : ℤ) :
    ((BitVec.ofInt w n - BitVec.ofInt w m).toNat : ℤ) = (n - m) % 2 ^ w := by
  have hsub : BitVec.ofInt w n - BitVec.ofInt w m = BitVec.ofInt w (n - m) := by
    rw [BitVec.sub_eq_add_neg, ← BitVec.ofInt_neg, ← BitVec.ofInt_add, Int.sub_eq_add_neg]
  rw [hsub, BitVec.toNat_ofInt, Int.toNat_of_nonneg]
  · push_cast
    rfl
  · refine Int.emod_nonneg _ ?_
    exact_mod_cast (Nat.two_pow_pos w).ne'

/-- Two numbers at the same place. -/
theorem ofInt_inj (m n : ℤ) : BitVec.ofInt w m = BitVec.ofInt w n ↔ 2 ^ w ∣ m - n := by
  have hdist := toNat_ofInt_sub (w := w) n m
  constructor
  · intro h
    rw [h, BitVec.sub_self] at hdist
    exact Int.dvd_of_emod_eq_zero hdist.symm
  · intro h
    rw [Int.emod_eq_zero_of_dvd h] at hdist
    have hzero : BitVec.ofInt w m - BitVec.ofInt w n = 0#w := by
      refine BitVec.eq_of_toNat_eq ?_
      exact_mod_cast hdist
    rw [← BitVec.sub_add_cancel (BitVec.ofInt w m) (BitVec.ofInt w n), hzero, BitVec.zero_add]

/-- One number is ahead of another if the way from it, modulo the circle, is less than half of it. -/
theorem forward_ofInt (m n : ℤ) :
    Forward (BitVec.ofInt w m) (BitVec.ofInt w n) ↔ 2 * ((n - m) % 2 ^ w) < 2 ^ w := by
  unfold Forward
  rw [← toNat_ofInt_sub]
  norm_cast

/-- The same of a way that does not lead around. -/
theorem forward_ofInt_of_le {m n : ℤ} (h : m ≤ n) (h' : n - m < 2 ^ w) :
    Forward (BitVec.ofInt w m) (BitVec.ofInt w n) ↔ 2 * (n - m) < 2 ^ w := by
  rw [forward_ofInt, Int.emod_eq_of_lt (by omega) h']

theorem forward_self (a : BitVec w) : Forward a a := by
  unfold Forward
  rw [BitVec.sub_self]
  exact Nat.two_pow_pos w

/-! ### Cadence -/

/-- Which of the times are more than `limit` after the last one that was, the last before them being
`last`. -/
def cadence (limit : ℤ) : ℤ → List ℤ → List Bool
  | _, [] => []
  | last, t :: ts =>
    if last + limit < t then true :: cadence limit t ts else false :: cadence limit last ts

/-- The same of the readings of a counter, as far as they show it. -/
def counterCadence (limit : ℕ) : BitVec w → List (BitVec w) → List Bool
  | _, [] => []
  | last, t :: ts =>
    if limit < (t - last).toNat then true :: counterCadence limit t ts
    else false :: counterCadence limit last ts

theorem counterCadence_add_left (c : BitVec w) (limit : ℕ) (last : BitVec w) (ts : List (BitVec w)) :
    counterCadence limit (c + last) (ts.map (c + ·)) = counterCadence limit last ts := by
  induction ts generalizing last with
  | nil => rfl
  | cons t ts ih => simp only [List.map_cons, counterCadence, add_sub_add_left, ih]

/-- **The counter keeps the cadence** if no step and the limit together lead around. What has passed
since the last time is then never a whole turn: up to the step before it is at most the limit. -/
theorem counterCadence_ofInt {limit : ℕ} {last : ℤ} {ts : List ℤ}
    (hfirst : ∀ t ∈ ts.head?, last ≤ t ∧ t - last < 2 ^ w)
    (hsteps : ts.IsChain fun (a b : ℤ) => a ≤ b ∧ b - a + limit < 2 ^ w) :
    counterCadence limit (BitVec.ofInt w last) (ts.map (BitVec.ofInt w)) = cadence limit last ts := by
  induction ts generalizing last with
  | nil => rfl
  | cons t ts ih =>
    obtain ⟨hle, hlt⟩ := hfirst t rfl
    have hpassed : ((BitVec.ofInt w t - BitVec.ofInt w last).toNat : ℤ) = t - last := by
      rw [toNat_ofInt_sub, Int.emod_eq_of_lt (by omega) hlt]
    have hnext : ∀ u ∈ ts.head?, t ≤ u ∧ u - t + limit < 2 ^ w := by
      intro u hu
      obtain ⟨us, rfl⟩ := List.head?_eq_some_iff.1 hu
      exact (List.isChain_cons_cons.1 hsteps).1
    simp only [List.map_cons, counterCadence, cadence]
    by_cases hdue : last + limit < t
    · rw [if_pos hdue, if_pos (by omega), ih _ hsteps.tail]
      intro u hu
      obtain ⟨hle, hlt⟩ := hnext u hu
      exact ⟨hle, by omega⟩
    · rw [if_neg hdue, if_neg (by omega), ih _ hsteps.tail]
      intro u hu
      obtain ⟨hle', hlt'⟩ := hnext u hu
      exact ⟨by omega, by omega⟩

end RcControl.Lib.Serial
