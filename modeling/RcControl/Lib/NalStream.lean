import Mathlib.Data.List.Basic
import Mathlib.Data.List.Infix

/-!
# Two framings of NAL units

An Annex B byte stream separates NAL units by start codes (`AnnexB`); a length-prefixed one puts the
length of each unit in front of it, in four bytes, most significant first (`Frames`, and its reader
`splitLength`). The bytes that are both, with the same units, are few: `annexB_frames` and
`annexB_oneByte` say that they are the sequences of units of a single byte each, behind start codes
of four bytes, which read as the length one.
-/

namespace RcControl.Lib.NalStream

/-- A NAL unit: it does not end in a zero byte, and nothing in it looks like a start code. -/
structure IsNal (n : List UInt8) : Prop where
  ne : n ≠ []
  last : n.getLast ne ≠ 0
  noStartCode : ∀ b : UInt8, b ≤ 2 → ¬ [0, 0, b] <:+: n

/-- The byte stream `bs` is made of the NAL units `ns`: each behind a start code `00 00 01`, with any
number of zero bytes before it and at the end. -/
inductive AnnexB : List (List UInt8) → List UInt8 → Prop
  | done (k : ℕ) : AnnexB [] (List.replicate k 0)
  | nal {ns bs} (k : ℕ) (n : List UInt8) :
      IsNal n → AnnexB ns bs → AnnexB (n :: ns) (List.replicate k 0 ++ ([0, 0, 1] ++ (n ++ bs)))

/-- Four bytes as a number. -/
def lengthOf (a b c d : UInt8) : ℕ :=
  ((a.toNat * 256 + b.toNat) * 256 + c.toNat) * 256 + d.toNat

/-- The reader of length-prefixed units: four bytes of length, which must not be the last of the
sample, and that many bytes, which must be there. -/
def splitLength : List UInt8 → Option (List (List UInt8))
  | [] => some []
  | a :: b :: c :: d :: e :: rest =>
    if lengthOf a b c d ≤ rest.length + 1 then
      (splitLength ((e :: rest).drop (lengthOf a b c d))).map
        ((e :: rest).take (lengthOf a b c d) :: ·)
    else none
  | _ => none
termination_by bs => bs.length
decreasing_by
  rw [List.length_drop]
  simp only [List.length_cons]
  omega

/-- `bs` is the units `ns` with their lengths in front of them. -/
inductive Frames : List (List UInt8) → List UInt8 → Prop
  | nil : Frames [] []
  | cons {ns bs} (a b c d : UInt8) (n : List UInt8) :
      lengthOf a b c d = n.length → Frames ns bs → Frames (n :: ns) (a :: b :: c :: d :: (n ++ bs))

/-- The bytes are units of one byte each, behind start codes of four bytes. -/
def OneByte (bs : List UInt8) : Prop := ∃ xs : List UInt8, bs = xs.flatMap fun x => [0, 0, 0, 1, x]

section Frames

variable {ns ns' : List (List UInt8)} {bs bs' : List UInt8}

theorem frames_of_splitLength (h : splitLength bs = some ns) : Frames ns bs := by
  induction bs using splitLength.induct generalizing ns with
  | case1 =>
    simp only [splitLength, Option.some.injEq] at h
    exact h ▸ .nil
  | case2 a b c d e rest hle ih =>
    rw [splitLength, if_pos hle, Option.map_eq_some_iff] at h
    obtain ⟨ms, hms, rfl⟩ := h
    have hframe := Frames.cons a b c d ((e :: rest).take (lengthOf a b c d))
      (by rw [List.length_take, List.length_cons]; omega) (ih hms)
    rwa [List.take_append_drop] at hframe
  | case3 a b c d e rest hlt =>
    rw [splitLength, if_neg hlt] at h
    exact absurd h (by simp)
  | case4 bs hnil hfive =>
    rw [splitLength] at h
    · exact absurd h (by simp)
    · exact hnil
    · exact hfive

theorem Frames.append (h : Frames ns bs) (h' : Frames ns' bs') : Frames (ns ++ ns') (bs ++ bs') := by
  induction h with
  | nil => exact h'
  | cons a b c d n hlen _ ih =>
    simp only [List.cons_append, List.append_assoc]
    exact .cons a b c d n hlen ih

lemma lengthOf_eq_one {a b c d : UInt8} (h : lengthOf a b c d = 1) :
    a = 0 ∧ b = 0 ∧ c = 0 ∧ d = 1 := by
  unfold lengthOf at h
  refine ⟨?_, ?_, ?_, ?_⟩ <;> refine UInt8.toNat_inj.1 ?_ <;>
    simp only [UInt8.toNat_zero, UInt8.toNat_one] <;> omega

/-- Units of length one are behind what reads as a start code. -/
theorem Frames.oneByte (h : Frames ns bs) (hone : ∀ n ∈ ns, n.length = 1) : OneByte bs := by
  induction h with
  | nil => exact ⟨[], rfl⟩
  | cons a b c d n hlen _ ih =>
    obtain ⟨xs, hxs⟩ := ih fun m hm => hone m (List.mem_cons_of_mem n hm)
    have hn := hone n List.mem_cons_self
    obtain ⟨x, rfl⟩ := List.length_eq_one_iff.1 hn
    obtain ⟨rfl, rfl, rfl, rfl⟩ := lengthOf_eq_one (hlen.trans hn)
    exact ⟨x :: xs, by rw [hxs, List.flatMap_cons]; rfl⟩

/-- They are read as they are. -/
theorem splitLength_oneByte (xs : List UInt8) :
    splitLength (xs.flatMap fun x => [0, 0, 0, 1, x]) = some (xs.map fun x => [x]) := by
  induction xs with
  | nil => rw [List.flatMap_nil, splitLength, List.map_nil]
  | cons x xs ih =>
    have hone : lengthOf 0 0 0 1 = 1 := rfl
    rw [List.flatMap_cons]
    simp only [List.cons_append, List.nil_append]
    rw [splitLength, hone, if_pos (by omega)]
    simp only [List.drop_succ_cons, List.drop_zero, List.take_succ_cons, List.take_zero]
    rw [ih]
    rfl

end Frames

section AnnexB

variable {ns : List (List UInt8)} {bs n s : List UInt8}

lemma annexB_inv (h : AnnexB ns bs) :
    (ns = [] ∧ ∃ k, bs = List.replicate k 0) ∨
      ∃ k n ns' bs', ns = n :: ns' ∧ IsNal n ∧ AnnexB ns' bs' ∧
        bs = List.replicate k 0 ++ ([0, 0, 1] ++ (n ++ bs')) := by
  cases h with
  | done k => exact Or.inl ⟨rfl, k, rfl⟩
  | nal k n hn hrest => exact Or.inr ⟨k, n, _, _, rfl, hn, hrest, rfl⟩

/-- A byte stream begins with a zero byte. -/
lemma AnnexB.head {x : UInt8} (h : AnnexB ns (x :: bs)) : x = 0 := by
  rcases annexB_inv h with ⟨-, k, hk⟩ | ⟨k, n, -, bs', -, -, -, hk⟩
  · rcases k with _ | k
    · simp at hk
    · rw [List.replicate_succ] at hk
      exact (List.cons.inj hk).1
  · rcases k with _ | k
    · exact (List.cons.inj hk).1
    · rw [List.replicate_succ] at hk
      exact (List.cons.inj hk).1

/-- A list that is its own continuation, one place on, is constant, and so is what follows it. -/
lemma shift_eq {x : UInt8} {r t : List UInt8} (h : s ++ r = x :: (s ++ t)) :
    (∀ y ∈ s, y = x) ∧ ∃ r', r = x :: r' := by
  induction s with
  | nil => exact ⟨fun y hy => absurd hy List.not_mem_nil, t, h⟩
  | cons y s ih =>
    obtain ⟨rfl, hs⟩ := List.cons.inj h
    obtain ⟨hall, hr⟩ := ih hs
    exact ⟨List.forall_mem_cons.2 ⟨rfl, hall⟩, hr⟩

/-- **A byte stream that is also length-prefixed**, with the same units, has units of one byte. -/
theorem annexB_frames (h : AnnexB ns bs) (hf : Frames ns bs) : ∀ n ∈ ns, n.length = 1 := by
  induction h with
  | done k => exact fun n hn => absurd hn List.not_mem_nil
  | @nal ns bs k n hn hrest ih =>
    generalize hs : List.replicate k 0 ++ ([0, 0, 1] ++ (n ++ bs)) = s at hf
    cases hf with
    | @cons _ bs' a b c d _ hlen hf' =>
    rcases k with _ | _ | k
    · -- `00 00 01 x` is a length of at least 256, and the unit begins one byte later
      simp only [List.replicate_zero, List.nil_append, List.cons_append, List.cons.injEq] at hs
      obtain ⟨-, -, -, hs⟩ := hs
      obtain ⟨hall, r, rfl⟩ := shift_eq hs
      have hlast := hall _ (List.getLast_mem hn.ne)
      exact absurd (hlast.trans hrest.head) hn.last
    · -- `00 00 00 01` is the length one
      simp only [List.replicate_succ, List.replicate_zero, List.nil_append, List.cons_append,
        List.cons.injEq] at hs
      obtain ⟨rfl, rfl, rfl, rfl, hs⟩ := hs
      rw [List.append_cancel_left hs] at ih
      exact List.forall_mem_cons.2 ⟨hlen.symm, ih hf'⟩
    · -- `00 00 00 00` is the length zero
      have hzero : a = 0 ∧ b = 0 ∧ c = 0 ∧ d = 0 := by
        rcases k with _ | _ | k <;>
          simp only [List.replicate_succ, List.replicate_zero, List.nil_append, List.cons_append,
            List.cons.injEq] at hs
        · exact ⟨hs.1.symm, hs.2.1.symm, hs.2.2.1.symm, hs.2.2.2.1.symm⟩
        · exact ⟨hs.1.symm, hs.2.1.symm, hs.2.2.1.symm, hs.2.2.2.1.symm⟩
        · exact ⟨hs.1.symm, hs.2.1.symm, hs.2.2.1.symm, hs.2.2.2.1.symm⟩
      obtain ⟨rfl, rfl, rfl, rfl⟩ := hzero
      exact absurd (List.length_eq_zero_iff.1 hlen.symm) hn.ne

/-- More than one byte of a unit would reach into the start code that follows. -/
lemma tail_nil {x : UInt8} {t xs : List UInt8} (hn : IsNal (x :: t))
    (hs : (xs.flatMap fun x => [0, 0, 0, 1, x]) = t ++ bs) : t = [] := by
  rcases xs with _ | ⟨y, xs⟩
  · exact (List.append_eq_nil_iff.1 hs.symm).1
  rcases t with _ | ⟨b₁, _ | ⟨b₂, _ | ⟨b₃, t⟩⟩⟩
  · rfl
  all_goals
    rw [List.flatMap_cons] at hs
    simp only [List.nil_append, List.cons_append, List.cons.injEq] at hs
  · exact absurd hs.1.symm (by simpa using hn.last)
  · exact absurd hs.2.1.symm (by simpa using hn.last)
  · have hin : [0, 0, 0] <:+: x :: b₁ :: b₂ :: b₃ :: t :=
      ⟨[x], t, by rw [← hs.1, ← hs.2.1, ← hs.2.2.1]; rfl⟩
    exact absurd hin (hn.noStartCode 0 (by decide))

/-- The units of a byte stream of one-byte units are what they look like. -/
theorem annexB_oneByte (xs : List UInt8) (h : AnnexB ns (xs.flatMap fun x => [0, 0, 0, 1, x])) :
    ns = xs.map fun x => [x] := by
  induction xs generalizing ns with
  | nil =>
    rcases annexB_inv h with ⟨hns, -⟩ | ⟨k, n, _, _, -, -, -, hs⟩
    · exact hns
    · simp at hs
  | cons x xs ih =>
    rw [List.flatMap_cons] at h
    rcases annexB_inv h with ⟨-, k, hk⟩ | ⟨k, n, ns', bs', hns, hn, hrest, hs⟩
    · have hmem : (1 : UInt8) ∈ List.replicate k (0 : UInt8) := by
        rw [← hk]
        simp
      exact absurd (List.eq_of_mem_replicate hmem) (by decide)
    -- the start code has four bytes
    have hs' : x :: (xs.flatMap fun x => [0, 0, 0, 1, x]) = n ++ bs' := by
      rcases k with _ | _ | _ | _ | k <;>
        simp only [List.replicate_succ, List.replicate_zero, List.nil_append, List.cons_append,
          List.cons.injEq] at hs
      · exact absurd hs.2.2.1 (by decide)
      · exact hs.2.2.2.2
      · exact absurd hs.2.2.2.1 (by decide)
      · exact absurd hs.2.2.2.1 (by decide)
      · exact absurd hs.2.2.2.1 (by decide)
    rcases n with _ | ⟨y, t⟩
    · exact absurd rfl hn.ne
    obtain ⟨rfl, hrest'⟩ := List.cons.inj hs'
    have ht : t = [] := tail_nil hn hrest'
    subst ht
    have hbs : (xs.flatMap fun x => [0, 0, 0, 1, x]) = bs' := hrest'
    rw [← hbs] at hrest
    rw [hns, List.map_cons, ih hrest]

end AnnexB

end RcControl.Lib.NalStream
