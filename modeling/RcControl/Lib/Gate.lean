import Mathlib.Data.List.Basic

/-!
# A queue behind a gate

While the gate is closed, what is put in waits; when it is lifted, all of that passes in its order, and
from then on what is put in passes at once. The gate stays open. So what has been put in has either not
passed at all or passed as a whole (`content_foldl`, `isOpen_foldl`), and no state says otherwise.
-/

namespace RcControl.Lib

/-- Closed, with what waits, or open, with what has passed. -/
inductive Gate (α : Type*) where
  | closed (waiting : List α)
  | opened (passed : List α)

namespace Gate

variable {α : Type*}

/-- What is done to a gate. -/
inductive Event (α : Type*) where
  | put (xs : List α)
  | lift

/-- What has been put in. -/
def content : Gate α → List α
  | closed waiting => waiting
  | opened passed => passed

def isOpen : Gate α → Bool
  | closed _ => false
  | opened _ => true

def put : Gate α → List α → Gate α
  | closed waiting, xs => closed (waiting ++ xs)
  | opened passed, xs => opened (passed ++ xs)

def step (g : Gate α) : Event α → Gate α
  | .put xs => g.put xs
  | .lift => opened g.content

/-- What these events put in. -/
def puts (es : List (Event α)) : List α :=
  es.flatMap fun
    | .put xs => xs
    | .lift => []

@[simp] lemma put_nil (g : Gate α) : g.put [] = g := by
  cases g with
  | closed waiting => exact congrArg closed (List.append_nil waiting)
  | opened passed => exact congrArg opened (List.append_nil passed)

lemma content_put (g : Gate α) (xs : List α) : (g.put xs).content = g.content ++ xs := by
  cases g <;> rfl

lemma isOpen_put (g : Gate α) (xs : List α) : (g.put xs).isOpen = g.isOpen := by
  cases g <;> rfl

/-- **Nothing is lost, doubled or overtaken.** -/
theorem content_foldl (g : Gate α) (es : List (Event α)) :
    (es.foldl step g).content = g.content ++ puts es := by
  induction es generalizing g with
  | nil => exact (List.append_nil _).symm
  | cons e es ih =>
    rw [List.foldl_cons, ih]
    cases e with
    | put xs =>
      rw [step, content_put, List.append_assoc]
      rfl
    | lift => rfl

/-- **The gate is open** exactly if it was, or has been lifted. -/
theorem isOpen_foldl (g : Gate α) (es : List (Event α)) :
    (es.foldl step g).isOpen = true ↔ g.isOpen = true ∨ .lift ∈ es := by
  induction es generalizing g with
  | nil => simp
  | cons e es ih =>
    rw [List.foldl_cons, ih]
    cases e with
    | put xs => simp [step, isOpen_put]
    | lift => simp [step, isOpen]

end Gate

end RcControl.Lib
