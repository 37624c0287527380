import Mathlib.Data.List.AList

/-!
# A registry filled with `emplace`

`std::unordered_map`, as an association list with each key once. `emplace` does not touch a key that
is there: the value it was given is dropped, and the caller is not told.
-/

namespace RcControl.Lib

/-- A registry of values under keys. -/
abbrev Registry (κ ν : Type*) := AList fun _ : κ => ν

namespace Registry

variable {κ ν : Type*} [DecidableEq κ] {r : Registry κ ν} {k k' : κ} {v : ν}

/-- Insertion that gives way to an entry already there. -/
def emplace (r : Registry κ ν) (k : κ) (v : ν) : Registry κ ν :=
  if k ∈ r then r else r.insert k v

theorem emplace_of_mem (h : k ∈ r) : r.emplace k v = r := if_pos h

theorem emplace_of_lookup {w : ν} (h : r.lookup k = some w) : r.emplace k v = r :=
  emplace_of_mem (AList.lookup_isSome.1 (by rw [h]; rfl))

theorem emplace_of_lookup_none (h : r.lookup k = none) : r.emplace k v = r.insert k v :=
  if_neg (AList.lookup_eq_none.1 h)

theorem lookup_emplace_ne (h : k ≠ k') : (r.emplace k' v).lookup k = r.lookup k := by
  unfold emplace
  split
  · rfl
  · exact AList.lookup_insert_ne h

theorem lookup_emplace (r : Registry κ ν) (k : κ) (v : ν) :
    (r.emplace k v).lookup k = some ((r.lookup k).getD v) := by
  rcases h : r.lookup k with _ | w
  · rw [emplace_of_lookup_none h]
    exact AList.lookup_insert r
  · rw [emplace_of_lookup h]
    exact h

/-- There is nothing to erase. -/
theorem erase_of_lookup_none (h : r.lookup k = none) : r.erase k = r :=
  AList.ext (List.kerase_of_notMem_keys (AList.lookup_eq_none.1 h))

end Registry

end RcControl.Lib
