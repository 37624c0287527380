import RcControl.Lib.Run
import RcControl.Lib.Links
import RcControl.Mmal.Core
import Mathlib.Data.Fintype.Card
import Mathlib.Data.Finset.Card
import Mathlib.Logic.Function.Basic
import Mathlib.Algebra.Ring.Int.Defs
import Mathlib.Algebra.Ring.Nat

/-!
# References to buffer headers

A header is counted: `mmal_buffer_header_acquire` and `mmal_buffer_header_replicate` add a reference, and
the last `mmal_buffer_header_release` resets the header, releases the one it is a replica of, and gives
it back to its pool. The callbacks of the program, which may delay a release or keep a header from the
queue of its pool, are the answers that come with an event.

What is proved is that whoever releases no more than he holds finds each header in one place
(`Sound`), at every moment of every run: idle in its pool, delayed, or in use with as many references as
it counts. Those that are not idle are found from what the program holds and what is delayed, but for rings
of replicas, which `mmal_buffer_header_replicate` does not refuse.
-/

namespace RcControl.Mmal

/-- The fields of a header that are not for the framework alone. -/
structure Content where
  cmd : BitVec 32
  /-- The address of the payload; `none` is the null pointer. -/
  data : Option ℕ
  allocSize : BitVec 32
  length : BitVec 32
  offset : BitVec 32
  flags : BitVec 32
  pts : BitVec 64
  dts : BitVec 64
  /-- `*type`. -/
  type : List (BitVec 32)

/-- `MMAL_TIME_UNKNOWN`. -/
def timeUnknown : BitVec 64 := 1 <<< 63

/-- The headers `α` of some pools `π`. -/
structure Headers (π α : Type) where
  content : α → Content
  refcount : α → ℤ
  /-- The header it is a replica of. -/
  reference : α → Option α
  /-- The queue of each pool. -/
  queue : π → Queue α
  /-- Released for the last time, but a pre-release callback has asked to wait. -/
  delayed : List α
  /-- The references that the program holds. -/
  held : List α

/-- What the callbacks answer during one release. -/
structure Answers (α : Type) where
  /-- There is a pre-release callback, and it asks for a delay. -/
  delays : α → Bool
  /-- There is no callback of the pool, or it lets the header go to the queue. -/
  queues : α → Bool

namespace Headers

variable {π α : Type} [DecidableEq π] [DecidableEq α]

/-- The headers of pools as `mmal_pool_create_with_allocator` leaves them, with their payloads. -/
def create (queue : π → Queue α) (data : α → Option ℕ) (allocSize : α → BitVec 32) : Headers π α where
  content x := ⟨0, data x, allocSize x, 0, 0, 0, 0, 0, []⟩
  refcount _ := 1
  reference _ := none
  queue := queue
  delayed := []
  held := []

/-- `mmal_buffer_header_acquire`. -/
def acquire (s : Headers π α) (header : α) : Headers π α :=
  { s with refcount := Function.update s.refcount header (s.refcount header + 1) }

/-- `mmal_buffer_header_reset`. -/
def reset (s : Headers π α) (header : α) : Headers π α :=
  let content := { s.content header with
    length := 0, offset := 0, flags := 0, pts := timeUnknown, dts := timeUnknown }
  { s with content := Function.update s.content header content }

/-- `mmal_pool_buffer_header_release`, the `pf_release` of a header of a pool. A header that the callback
keeps is the program's. -/
def pfRelease (owner : α → π) (a : Answers α) (s : Headers π α) (header : α) : Headers π α :=
  let s := { s with refcount := Function.update s.refcount header 1 }
  if a.queues header then
    { s with queue := Function.update s.queue (owner header) ((s.queue (owner header)).put header) }
  else { s with held := header :: s.held }

/-- `mmal_buffer_header_release_continue`, given the function that releases the reference. -/
def releaseContinue (owner : α → π) (a : Answers α)
    (release : Headers π α → α → Option (Headers π α)) (s : Headers π α) (header : α) :
    Option (Headers π α) :=
  let s := s.reset header
  let released :=
    match s.reference header with
    | none => some s
    | some r => release s r
  released.map fun s =>
    pfRelease owner a { s with reference := Function.update s.reference header none } header

/-- `mmal_buffer_header_release`, as deep as there is fuel. -/
def release (owner : α → π) (a : Answers α) : ℕ → Headers π α → α → Option (Headers π α)
  | 0, _, _ => none
  | fuel + 1, s, header =>
    let s := { s with refcount := Function.update s.refcount header (s.refcount header - 1) }
    if s.refcount header ≠ 0 then some s
    else if a.delays header then some { s with delayed := header :: s.delayed }
    else releaseContinue owner a (release owner a fuel) s header

/-- `mmal_buffer_header_replicate`. -/
def replicate (s : Headers π α) (dest src : α) : Status × Headers π α :=
  if s.reference dest ≠ none then (.einval, s)
  else
    let s := s.acquire src
    (.success, { s with
      reference := Function.update s.reference dest (some src)
      content := Function.update s.content dest (s.content src) })

end Headers

namespace Reference

/-- What the program does with headers. -/
inductive Event (π α : Type) where
  /-- `mmal_queue_get` on the queue of a pool. -/
  | get (pool : π)
  | acquire (header : α)
  | release (header : α) (a : Answers α)
  /-- `mmal_buffer_header_release_continue`, on one that was delayed. -/
  | releaseContinue (header : α) (a : Answers α)
  | replicate (dest src : α)
  /-- Who holds a header fills it in. -/
  | fill (header : α) (content : Content)
  /-- `mmal_queue_put` or `mmal_queue_put_back` on the queue of the pool of a header. -/
  | putBack (header : α) (front : Bool)

inductive Fault where
  /-- The program uses a reference that it does not hold. -/
  | notHeld
  /-- It puts a header into a queue that others refer to, or that is a replica. -/
  | notAlone
  /-- A release goes deeper than there are headers. -/
  | tooDeep
  deriving DecidableEq

variable {π α : Type} [DecidableEq π] [DecidableEq α] [Fintype α]

/-- The depth of a release, at most. -/
def fuel (α : Type) [Fintype α] : ℕ := Fintype.card α + 1

def step (owner : α → π) (s : Headers π α) : Event π α → Except Fault (Status × Headers π α)
  | .get pool =>
    match (s.queue pool).get with
    | none => .ok (.eagain, s)
    | some (header, q) =>
      .ok (.success, { s with queue := Function.update s.queue pool q, held := header :: s.held })
  | .acquire header =>
    if header ∈ s.held then
      let s := s.acquire header
      .ok (.success, { s with held := header :: s.held })
    else .error .notHeld
  | .release header a =>
    if header ∈ s.held then
      match Headers.release owner a (fuel α) { s with held := s.held.erase header } header with
      | none => .error .tooDeep
      | some s => .ok (.success, s)
    else .error .notHeld
  | .releaseContinue header a =>
    if header ∈ s.delayed then
      match Headers.releaseContinue owner a (Headers.release owner a (fuel α))
          { s with delayed := s.delayed.erase header } header with
      | none => .error .tooDeep
      | some s => .ok (.success, s)
    else .error .notHeld
  | .replicate dest src =>
    if dest ∈ s.held ∧ src ∈ s.held then .ok (s.replicate dest src) else .error .notHeld
  | .fill header content =>
    if header ∈ s.held then
      .ok (.success, { s with content := Function.update s.content header content })
    else .error .notHeld
  | .putBack header front =>
    if header ∉ s.held then .error .notHeld
    else if s.refcount header ≠ 1 ∨ s.reference header ≠ none then .error .notAlone
    else
      let q := s.queue (owner header)
      let q := if front then q.putBack header else q.put header
      .ok (.success,
        { s with queue := Function.update s.queue (owner header) q, held := s.held.erase header })

/-! ### Where a header is -/

/-- What there is to say of one header. -/
structure View (α : Type) where
  queued : ℕ
  delayed : ℕ
  /-- The references there are to it. -/
  holders : ℕ
  inLimbo : Bool
  refcount : ℤ
  reference : Option α

/-- Where a header is. Of those in limbo the release is under way. -/
inductive Place : View α → Prop
  | idle : Place ⟨1, 0, 0, false, 1, none⟩
  | used {holders : ℕ} {reference : Option α} (hpos : 0 < holders) :
      Place ⟨0, 0, holders, false, holders, reference⟩
  | delayed {reference : Option α} : Place ⟨0, 1, 0, false, 0, reference⟩
  | limbo {reference : Option α} : Place ⟨0, 0, 0, true, 0, reference⟩

/-- The replicas of a header, but for those in limbo. -/
def replicas (limbo : List α) (reference : α → Option α) (x : α) : Finset α :=
  {d | d ∉ limbo ∧ reference d = some x}

def view (owner : α → π) (limbo float : List α) (s : Headers π α) (x : α) : View α where
  queued := (s.queue (owner x)).count x
  delayed := s.delayed.count x
  holders := s.held.count x + float.count x + (replicas limbo s.reference x).card
  inLimbo := x ∈ limbo
  refcount := s.refcount x
  reference := s.reference x

/-- Each header is in one place, and each queue is that of its pool. The references of `float` are held
by nobody: they are about to be released. -/
structure Sound (owner : α → π) (limbo float : List α) (s : Headers π α) : Prop where
  place : ∀ x, Place (view owner limbo float s x)
  queues : ∀ p, ∀ x ∈ s.queue p, owner x = p

section Place

variable {v : View α}

omit [DecidableEq α] [Fintype α] in
lemma Place.mk_used (hqueued : v.queued = 0) (hdelayed : v.delayed = 0) (hlimbo : v.inLimbo = false)
    (hcount : v.refcount = v.holders) (hpos : 0 < v.holders) : Place v := by
  obtain ⟨queued, delayed, holders, inLimbo, refcount, reference⟩ := v
  dsimp only at *
  subst hqueued hdelayed hlimbo hcount
  exact .used hpos

omit [DecidableEq α] [Fintype α] in
lemma Place.mk_idle (hqueued : v.queued = 1) (hdelayed : v.delayed = 0) (hholders : v.holders = 0)
    (hlimbo : v.inLimbo = false) (hcount : v.refcount = 1) (hreference : v.reference = none) : Place v := by
  obtain ⟨queued, delayed, holders, inLimbo, refcount, reference⟩ := v
  dsimp only at *
  subst hqueued hdelayed hholders hlimbo hcount hreference
  exact .idle

omit [DecidableEq α] [Fintype α] in
lemma Place.mk_delayed (hqueued : v.queued = 0) (hdelayed : v.delayed = 1) (hholders : v.holders = 0)
    (hlimbo : v.inLimbo = false) (hcount : v.refcount = 0) : Place v := by
  obtain ⟨queued, delayed, holders, inLimbo, refcount, reference⟩ := v
  dsimp only at *
  subst hqueued hdelayed hholders hlimbo hcount
  exact .delayed

omit [DecidableEq α] [Fintype α] in
lemma Place.mk_limbo (hqueued : v.queued = 0) (hdelayed : v.delayed = 0) (hholders : v.holders = 0)
    (hlimbo : v.inLimbo = true) (hcount : v.refcount = 0) : Place v := by
  obtain ⟨queued, delayed, holders, inLimbo, refcount, reference⟩ := v
  dsimp only at *
  subst hqueued hdelayed hholders hlimbo hcount
  exact .limbo

omit [DecidableEq α] [Fintype α] in
/-- A header in the queue of its pool is idle. -/
lemma Place.idle_of_queued (h : Place v) (hpos : 0 < v.queued) :
    v.queued = 1 ∧ v.delayed = 0 ∧ v.holders = 0 ∧ v.inLimbo = false ∧ v.refcount = 1 ∧
      v.reference = none := by
  cases h with
  | idle => exact ⟨rfl, rfl, rfl, rfl, rfl, rfl⟩
  | _ => exact absurd hpos (Nat.lt_irrefl 0)

omit [DecidableEq α] [Fintype α] in
lemma Place.delayed_of_pos (h : Place v) (hpos : 0 < v.delayed) :
    v.queued = 0 ∧ v.delayed = 1 ∧ v.holders = 0 ∧ v.inLimbo = false ∧ v.refcount = 0 := by
  cases h with
  | delayed => exact ⟨rfl, rfl, rfl, rfl, rfl⟩
  | _ => exact absurd hpos (Nat.lt_irrefl 0)

omit [DecidableEq α] [Fintype α] in
/-- A header in limbo has nobody left. -/
lemma Place.of_inLimbo (h : Place v) (hlimbo : v.inLimbo = true) :
    v.queued = 0 ∧ v.delayed = 0 ∧ v.holders = 0 ∧ v.refcount = 0 := by
  cases h with
  | limbo => exact ⟨rfl, rfl, rfl, rfl⟩
  | _ => cases hlimbo

omit [DecidableEq α] [Fintype α] in
/-- A header that somebody holds is in use. -/
lemma Place.used_of_holders (h : Place v) (hpos : 0 < v.holders) :
    v.queued = 0 ∧ v.delayed = 0 ∧ v.inLimbo = false ∧ v.refcount = v.holders := by
  cases h with
  | used => exact ⟨rfl, rfl, rfl, rfl⟩
  | _ => exact absurd hpos (Nat.lt_irrefl 0)

end Place

section Release

variable {owner : α → π} {a : Answers α} {limbo float : List α} {s : Headers π α} {x y : α}

lemma mem_replicas {reference : α → Option α} {d : α} :
    d ∈ replicas limbo reference x ↔ d ∉ limbo ∧ reference d = some x := by
  simp [replicas]

lemma replicas_cons (limbo : List α) (reference : α → Option α) (x y : α) :
    replicas (y :: limbo) reference x = (replicas limbo reference x).erase y := by
  ext d
  simp only [mem_replicas, Finset.mem_erase, List.mem_cons, not_or]
  tauto

/-- A header without a reference is no replica, in limbo or not. -/
lemma replicas_update_none (limbo : List α) (reference : α → Option α) (x y : α) :
    replicas limbo (Function.update reference x none) y = replicas (x :: limbo) reference y := by
  ext d
  simp only [mem_replicas, List.mem_cons, not_or]
  by_cases hd : d = x
  · subst hd
    simp
  · simp [hd]

/-- What a replica held is about when the replica is in limbo. -/
lemma card_replicas_erase (hx : x ∉ limbo) (reference : α → Option α) (y : α) :
    (reference x).toList.count y + ((replicas limbo reference y).erase x).card =
      (replicas limbo reference y).card := by
  by_cases hmem : x ∈ replicas limbo reference y
  · rw [(mem_replicas.1 hmem).2, Finset.card_erase_of_mem hmem]
    have hpos := Finset.card_pos.2 ⟨x, hmem⟩
    simp only [Option.toList_some, List.count_singleton_self]
    omega
  · rw [Finset.erase_eq_of_notMem hmem]
    have hnot : (reference x).toList.count y = 0 := List.count_eq_zero.2 fun hin =>
      hmem (mem_replicas.2 ⟨hx, by simpa using hin⟩)
    omega

omit [DecidableEq π] in
/-- The header whose release is under way is held, by the one who releases it. -/
lemma used_of_float (h : Sound owner limbo (x :: float) s) :
    x ∉ s.queue (owner x) ∧ x ∉ s.delayed ∧ x ∉ limbo ∧
      s.refcount x = (s.held.count x + float.count x + (replicas limbo s.reference x).card : ℕ) + 1 := by
  have hpos : 0 < (view owner limbo (x :: float) s x).holders := by
    simp only [view, List.count_cons_self]
    omega
  obtain ⟨hqueued, hdelayed, hlimbo, hcount⟩ := (h.place x).used_of_holders hpos
  refine ⟨List.count_eq_zero.1 hqueued, List.count_eq_zero.1 hdelayed, by simpa [view] using hlimbo, ?_⟩
  have hcount : s.refcount x =
      ((s.held.count x + (x :: float).count x + (replicas limbo s.reference x).card : ℕ) : ℤ) := hcount
  rw [hcount, List.count_cons_self]
  omega

omit [DecidableEq π] in
/-- One reference less, and it was not the last. -/
lemma sound_drop (h : Sound owner limbo (x :: float) s) (hne : s.refcount x - 1 ≠ 0) :
    Sound owner limbo float { s with refcount := Function.update s.refcount x (s.refcount x - 1) } := by
  obtain ⟨hqueued, hdelayed, hlimbo, hcount⟩ := used_of_float h
  refine ⟨fun y => ?_, h.queues⟩
  by_cases hy : y = x
  · subst hy
    refine Place.mk_used (List.count_eq_zero.2 hqueued) (List.count_eq_zero.2 hdelayed)
      (by simpa [view] using hlimbo) ?_ ?_
    · simp only [view, Function.update_self]
      omega
    · simp only [view]
      omega
  · have hsame : view owner limbo float
        { s with refcount := Function.update s.refcount x (s.refcount x - 1) } y =
          view owner limbo (x :: float) s y := by
      simp only [view, Function.update_of_ne hy, List.count_cons_of_ne (Ne.symm hy)]
    exact hsame ▸ h.place y

omit [DecidableEq π] in
/-- After the last reference nobody has the header. -/
lemma unheld_of_last (h : Sound owner limbo (x :: float) s) (hzero : s.refcount x - 1 = 0) :
    s.held.count x = 0 ∧ float.count x = 0 ∧ replicas limbo s.reference x = ∅ := by
  obtain ⟨-, -, -, hcount⟩ := used_of_float h
  refine ⟨by omega, by omega, Finset.card_eq_zero.1 (by omega)⟩

omit [DecidableEq π] in
/-- It was the last, and a callback asks to wait. -/
lemma sound_delay (h : Sound owner limbo (x :: float) s) (hzero : s.refcount x - 1 = 0) :
    Sound owner limbo float
      { s with
        refcount := Function.update s.refcount x (s.refcount x - 1)
        delayed := x :: s.delayed } := by
  obtain ⟨hqueued, hdelayed, hlimbo, -⟩ := used_of_float h
  obtain ⟨hheld, hfloat, hreplicas⟩ := unheld_of_last h hzero
  refine ⟨fun y => ?_, h.queues⟩
  by_cases hy : y = x
  · subst hy
    refine Place.mk_delayed (List.count_eq_zero.2 hqueued) ?_ ?_ (by simpa [view] using hlimbo) ?_
    · simp only [view, List.count_cons_self, List.count_eq_zero.2 hdelayed]
    · simp only [view, hheld, hfloat, hreplicas, Finset.card_empty]
    · simp only [view, Function.update_self, hzero]
  · have hsame : view owner limbo float
        { s with
          refcount := Function.update s.refcount x (s.refcount x - 1)
          delayed := x :: s.delayed } y = view owner limbo (x :: float) s y := by
      simp only [view, Function.update_of_ne hy, List.count_cons_of_ne (Ne.symm hy)]
    exact hsame ▸ h.place y

omit [DecidableEq π] in
/-- It was the last: the header is reset, and what it is a replica of is to be released. -/
lemma sound_enter (h : Sound owner limbo (x :: float) s) (hzero : s.refcount x - 1 = 0) :
    Sound owner (x :: limbo) ((s.reference x).toList ++ float)
      (Headers.reset { s with refcount := Function.update s.refcount x (s.refcount x - 1) } x) := by
  obtain ⟨hqueued, hdelayed, hlimbo, -⟩ := used_of_float h
  obtain ⟨hheld, hfloat, hreplicas⟩ := unheld_of_last h hzero
  have hself : s.reference x ≠ some x := fun hx =>
    Finset.notMem_empty x (hreplicas ▸ mem_replicas.2 ⟨hlimbo, hx⟩)
  refine ⟨fun y => ?_, h.queues⟩
  have hreplicas' := replicas_cons limbo s.reference y x
  by_cases hy : y = x
  · subst hy
    refine Place.mk_limbo (List.count_eq_zero.2 hqueued) (List.count_eq_zero.2 hdelayed) ?_
      (by simp [view]) ?_
    · have hnot : (s.reference y).toList.count y = 0 :=
        List.count_eq_zero.2 fun hmem => hself (by simpa using hmem)
      simp only [view, Headers.reset, hreplicas', hreplicas, List.count_append, hnot, hfloat, hheld,
        Finset.erase_empty, Finset.card_empty]
    · simp only [view, Headers.reset, Function.update_self, hzero]
  · have hcard := card_replicas_erase hlimbo s.reference y
    have hsame : view owner (x :: limbo) ((s.reference x).toList ++ float)
        (Headers.reset { s with refcount := Function.update s.refcount x (s.refcount x - 1) } x) y =
          view owner limbo (x :: float) s y := by
      simp only [view, Headers.reset, hreplicas', List.count_append, List.count_cons_of_ne (Ne.symm hy),
        Function.update_of_ne hy, List.mem_cons, hy, false_or, ← hcard]
      congr 1
      omega
    exact hsame ▸ h.place y

omit [Fintype α] in
/-- A header more in the queue of its pool, in front or behind. -/
lemma count_queue {q : Queue α} (hperm : q.Perm (x :: s.queue (owner x))) (y : α) :
    (Function.update s.queue (owner x) q (owner y)).count y = (s.queue (owner y)).count y + [x].count y := by
  by_cases ho : owner y = owner x
  · rw [ho, Function.update_self, hperm.count_eq, List.count_cons, List.count_singleton]
  · have hy : y ≠ x := fun hy => ho (congrArg owner hy)
    rw [Function.update_of_ne ho, List.count_eq_zero.2 fun hmem => hy (List.mem_singleton.1 hmem),
      Nat.add_zero]

omit [DecidableEq α] [Fintype α] in
lemma owner_queue {q : Queue α} (hperm : q.Perm (x :: s.queue (owner x)))
    (hqueues : ∀ p, ∀ z ∈ s.queue p, owner z = p) :
    ∀ p, ∀ z ∈ Function.update s.queue (owner x) q p, owner z = p := by
  intro p z hz
  by_cases hp : p = owner x
  · subst hp
    rw [Function.update_self, hperm.mem_iff, List.mem_cons] at hz
    rcases hz with rfl | hz
    · rfl
    · exact hqueues _ z hz
  · rw [Function.update_of_ne hp] at hz
    exact hqueues p z hz

/-- The header gives up its reference and goes to its pool, or to the callback of the pool. -/
lemma sound_leave (a : Answers α) (h : Sound owner (x :: limbo) float s) (hx : x ∉ limbo) :
    Sound owner limbo float (Headers.pfRelease owner a
      { s with reference := Function.update s.reference x none } x) := by
  obtain ⟨hqueued, hdelayed, hholders, -⟩ := (h.place x).of_inLimbo (by simp [view])
  simp only [view] at hqueued hdelayed hholders
  rcases ha : a.queues x
  · simp only [Headers.pfRelease, ha, Bool.false_eq_true, if_false]
    refine ⟨fun y => ?_, h.queues⟩
    by_cases hy : y = x
    · subst hy
      refine Place.mk_used hqueued hdelayed (by simpa [view] using hx) ?_ ?_
      · simp only [view, replicas_update_none, Function.update_self, List.count_cons_self]
        omega
      · simp only [view, List.count_cons_self]
        omega
    · have hsame : view owner limbo float
          { s with
            refcount := Function.update s.refcount x 1
            reference := Function.update s.reference x none
            held := x :: s.held } y = view owner (x :: limbo) float s y := by
        simp only [view, replicas_update_none, Function.update_of_ne hy, List.count_cons_of_ne (Ne.symm hy),
          List.mem_cons, hy, false_or]
      exact hsame ▸ h.place y
  · simp only [Headers.pfRelease, ha, if_true]
    have hperm : ((s.queue (owner x)).put x).Perm (x :: s.queue (owner x)) := List.perm_append_singleton _ _
    refine ⟨fun y => ?_, owner_queue hperm h.queues⟩
    by_cases hy : y = x
    · subst hy
      refine Place.mk_idle ?_ hdelayed ?_ (by simpa [view] using hx) ?_ ?_
      · simp only [view, count_queue hperm, hqueued, List.count_singleton_self]
      · simp only [view, replicas_update_none]
        exact hholders
      · simp only [view, Function.update_self]
      · simp only [view, Function.update_self]
    · have hsame : view owner limbo float
          { s with
            refcount := Function.update s.refcount x 1
            reference := Function.update s.reference x none
            queue := Function.update s.queue (owner x) ((s.queue (owner x)).put x) } y =
          view owner (x :: limbo) float s y := by
        simp only [view, replicas_update_none, count_queue hperm, Function.update_of_ne hy, List.mem_cons, hy,
          false_or, List.count_eq_zero.2 fun hmem => hy (List.mem_singleton.1 hmem), Nat.add_zero]
      exact hsame ▸ h.place y

/-- The rest of a release, if the reference is released as it should be. -/
theorem releaseContinue_sound (a : Answers α) (release : Headers π α → α → Option (Headers π α))
    (hrelease : ∀ r s, Sound owner (x :: limbo) (r :: float) s →
      ∃ s', release s r = some s' ∧ Sound owner (x :: limbo) float s')
    (hx : x ∉ limbo) (h : Sound owner (x :: limbo) ((s.reference x).toList ++ float) (s.reset x)) :
    ∃ s', Headers.releaseContinue owner a release s x = some s' ∧ Sound owner limbo float s' := by
  rcases hr : s.reference x with _ | r
  · rw [hr] at h
    refine ⟨_, ?_, sound_leave a h hx⟩
    simp only [Headers.releaseContinue, Headers.reset, hr, Option.map_some]
  · rw [hr] at h
    obtain ⟨s', hs', hsound⟩ := hrelease r (s.reset x) h
    refine ⟨_, ?_, sound_leave a hsound hx⟩
    simp only [Headers.reset] at hs'
    simp only [Headers.releaseContinue, Headers.reset, hr, hs', Option.map_some]

/-- The headers that a release can still come to. -/
def fresh (limbo : List α) : ℕ := ({d | d ∉ limbo} : Finset α).card

lemma fresh_cons (hx : x ∉ limbo) : fresh (x :: limbo) + 1 = fresh limbo := by
  have herase : ({d | d ∉ x :: limbo} : Finset α) = ({d | d ∉ limbo} : Finset α).erase x := by
    ext d
    simp only [Finset.mem_filter, Finset.mem_univ, true_and, Finset.mem_erase, List.mem_cons, not_or]
  rw [fresh, fresh, herase]
  exact Finset.card_erase_add_one (by simpa using hx)

/-- **A release.** It comes to its end, and leaves each header in its place. -/
theorem release_sound (a : Answers α) (n : ℕ) (hn : fresh limbo < n)
    (h : Sound owner limbo (x :: float) s) :
    ∃ s', Headers.release owner a n s x = some s' ∧ Sound owner limbo float s' := by
  induction n generalizing limbo float s x with
  | zero => exact absurd hn (Nat.not_lt_zero _)
  | succ n ih =>
    have hx := (used_of_float h).2.2.1
    simp only [Headers.release, Function.update_self]
    by_cases hzero : s.refcount x - 1 = 0
    · rw [if_neg (not_not.2 hzero)]
      by_cases hd : a.delays x = true
      · rw [if_pos hd]
        exact ⟨_, rfl, sound_delay h hzero⟩
      · rw [if_neg hd]
        have hfuel : fresh (x :: limbo) < n := by
          have := fresh_cons hx
          omega
        exact releaseContinue_sound a _ (fun r s hs => ih hfuel hs) hx (sound_enter h hzero)
    · rw [if_pos hzero]
      exact ⟨_, rfl, sound_drop h hzero⟩

end Release

/-! ### What the program does -/

section Step

variable {owner : α → π} {s s' : Headers π α} {e : Event π α} {o : Status} {x y : α}

omit [DecidableEq π] in
lemma sound_create {queue : π → Queue α} (data : α → Option ℕ) (allocSize : α → BitVec 32)
    (hall : ∀ x, (queue (owner x)).count x = 1) (hown : ∀ p, ∀ x ∈ queue p, owner x = p) :
    Sound owner [] [] (Headers.create queue data allocSize) := by
  refine ⟨fun x => Place.mk_idle (hall x) rfl ?_ rfl rfl rfl, hown⟩
  simp [view, replicas, Headers.create]

omit [DecidableEq π] in
/-- Whoever releases a reference that he holds lets it go. -/
lemma sound_float (h : Sound owner [] [] s) (hx : x ∈ s.held) :
    Sound owner [] [x] { s with held := s.held.erase x } := by
  refine ⟨fun y => ?_, h.queues⟩
  have hsame : view owner [] [x] { s with held := s.held.erase x } y = view owner [] [] s y := by
    have hcount : (s.held.erase x).count y + [x].count y = s.held.count y := by
      have hperm := (List.perm_cons_erase hx).count_eq y
      rw [List.count_cons] at hperm
      rw [hperm, List.count_singleton]
    simp only [view, ← hcount, List.count_nil, Nat.add_zero]
  exact hsame ▸ h.place y

omit [DecidableEq π] in
/-- One more reference for somebody who holds one. -/
lemma sound_acquire (h : Sound owner [] [] s) (hx : 0 < (view owner [] [] s x).holders) :
    Sound owner [] [x] (s.acquire x) := by
  obtain ⟨hqueued, hdelayed, hlimbo, hcount⟩ := (h.place x).used_of_holders hx
  refine ⟨fun y => ?_, h.queues⟩
  by_cases hy : y = x
  · subst hy
    refine Place.mk_used hqueued hdelayed hlimbo ?_ ?_
    · simp only [view] at hcount
      simp only [view, Headers.acquire, Function.update_self, hcount, List.count_singleton_self,
        List.count_nil]
      omega
    · simp only [view, List.count_singleton_self]
      omega
  · have hsame : view owner [] [x] (s.acquire x) y = view owner [] [] s y := by
      simp only [view, Headers.acquire, Function.update_of_ne hy, List.count_nil,
        List.count_eq_zero.2 fun hmem => hy (List.mem_singleton.1 hmem)]
    exact hsame ▸ h.place y

omit [DecidableEq π] in
/-- A reference that is about becomes one of the program's. -/
lemma sound_hold (h : Sound owner [] [x] s) : Sound owner [] [] { s with held := x :: s.held } := by
  refine ⟨fun y => ?_, h.queues⟩
  have hsame : view owner [] [] { s with held := x :: s.held } y = view owner [] [x] s y := by
    simp only [view, List.count_cons, List.count_nil]
    congr 1
    omega
  exact hsame ▸ h.place y

omit [DecidableEq π] in
/-- It becomes that of a replica. -/
lemma sound_refer {d : α} (c : Content) (h : Sound owner [] [x] s) (hd : 0 < (view owner [] [x] s d).holders)
    (hnone : s.reference d = none) :
    Sound owner [] [] { s with
      reference := Function.update s.reference d (some x)
      content := Function.update s.content d c } := by
  have hreplicas : ∀ y, (replicas [] (Function.update s.reference d (some x)) y).card =
      (replicas [] s.reference y).card + [x].count y := by
    intro y
    by_cases hy : y = x
    · subst hy
      have hinsert : replicas [] (Function.update s.reference d (some y)) y =
          insert d (replicas [] s.reference y) := by
        ext z
        simp only [mem_replicas, Finset.mem_insert]
        by_cases hz : z = d
        · subst hz
          simp
        · simp [hz]
      rw [hinsert, Finset.card_insert_of_notMem, List.count_singleton_self]
      simp [mem_replicas, hnone]
    · have hsame : replicas [] (Function.update s.reference d (some x)) y = replicas [] s.reference y := by
        ext z
        simp only [mem_replicas]
        by_cases hz : z = d
        · subst hz
          simp [hnone, Ne.symm hy]
        · simp [hz]
      rw [hsame, List.count_eq_zero.2 fun hmem => hy (List.mem_singleton.1 hmem), Nat.add_zero]
  refine ⟨fun y => ?_, h.queues⟩
  have hholders : (view owner [] [] { s with
      reference := Function.update s.reference d (some x)
      content := Function.update s.content d c } y).holders = (view owner [] [x] s y).holders := by
    simp only [view, hreplicas, List.count_nil]
    omega
  by_cases hy : y = d
  · subst hy
    obtain ⟨hqueued, hdelayed, hlimbo, hcount⟩ := (h.place y).used_of_holders hd
    exact Place.mk_used hqueued hdelayed hlimbo (hholders ▸ hcount) (hholders ▸ hd)
  · have hsame : view owner [] [] { s with
        reference := Function.update s.reference d (some x)
        content := Function.update s.content d c } y = view owner [] [x] s y := by
      simp only [view] at hholders
      simp only [view, Function.update_of_ne hy, hholders]
    exact hsame ▸ h.place y

/-- The first header of a queue is taken out of it. -/
lemma sound_get {p : π} {q : Queue α} (h : Sound owner [] [] s) (hq : s.queue p = x :: q) :
    Sound owner [] [x] { s with queue := Function.update s.queue p q } := by
  have hp : owner x = p := h.queues p x (hq ▸ List.mem_cons_self)
  have hpos : 0 < (view owner [] [] s x).queued := by
    simp only [view, hp, hq, List.count_cons_self]
    omega
  obtain ⟨hqueued, hdelayed, hholders, hlimbo, hcount, -⟩ := (h.place x).idle_of_queued hpos
  refine ⟨fun y => ?_, fun r z hz => ?_⟩
  · by_cases hy : y = x
    · subst hy
      refine Place.mk_used ?_ hdelayed hlimbo ?_ ?_
      · simp only [view, hp, hq, List.count_cons_self] at hqueued
        simp only [view, hp, Function.update_self]
        omega
      · simp only [view] at hcount hholders
        simp only [view, hcount, List.count_singleton_self]
        omega
      · simp only [view, List.count_singleton_self]
        omega
    · have hsame : view owner [] [x] { s with queue := Function.update s.queue p q } y =
          view owner [] [] s y := by
        have hqueue : (Function.update s.queue p q (owner y)).count y = (s.queue (owner y)).count y := by
          by_cases ho : owner y = p
          · rw [ho, Function.update_self, hq, List.count_cons_of_ne (Ne.symm hy)]
          · rw [Function.update_of_ne ho]
        simp only [view, hqueue, List.count_nil,
          List.count_eq_zero.2 fun hmem => hy (List.mem_singleton.1 hmem)]
      exact hsame ▸ h.place y
  · by_cases hr : r = p
    · subst hr
      simp only [Function.update_self] at hz
      exact h.queues r z (hq ▸ List.mem_cons_of_mem x hz)
    · simp only [Function.update_of_ne hr] at hz
      exact h.queues r z hz

omit [DecidableEq π] in
/-- What a header carries does not matter. -/
lemma sound_fill (c : Content) (h : Sound owner [] [] s) :
    Sound owner [] [] { s with content := Function.update s.content x c } :=
  ⟨h.place, h.queues⟩

omit [DecidableEq π] in
/-- The release of a header that was delayed goes on. -/
lemma sound_resume (h : Sound owner [] [] s) (hx : x ∈ s.delayed) :
    Sound owner [x] ((s.reference x).toList ++ [])
      (Headers.reset { s with delayed := s.delayed.erase x } x) := by
  have hpos : 0 < (view owner [] [] s x).delayed := List.count_pos_iff.2 hx
  obtain ⟨hqueued, hdelayed, hholders, -, hcount⟩ := (h.place x).delayed_of_pos hpos
  simp only [view] at hqueued hdelayed hholders hcount
  have hnone : replicas [] s.reference x = ∅ := Finset.card_eq_zero.1 (by omega)
  have hself : s.reference x ≠ some x := fun hself =>
    Finset.notMem_empty x (hnone ▸ mem_replicas.2 ⟨List.not_mem_nil, hself⟩)
  refine ⟨fun y => ?_, h.queues⟩
  by_cases hy : y = x
  · subst hy
    refine Place.mk_limbo hqueued ?_ ?_ (by simp [view]) hcount
    · simp only [view, Headers.reset, List.count_erase_self, hdelayed]
    · have hnot : (s.reference y).toList.count y = 0 :=
        List.count_eq_zero.2 fun hmem => hself (by simpa using hmem)
      simp only [view, Headers.reset, replicas_cons, hnone, List.append_nil, hnot, Finset.erase_empty,
        Finset.card_empty]
      omega
  · have hcard := card_replicas_erase (List.not_mem_nil (a := x)) s.reference y
    have hsame : view owner [x] ((s.reference x).toList ++ [])
        (Headers.reset { s with delayed := s.delayed.erase x } x) y = view owner [] [] s y := by
      simp only [view, Headers.reset, replicas_cons, List.append_nil, List.count_nil,
        List.count_erase_of_ne hy, List.mem_singleton, hy, ← hcard]
      congr 1
      omega
    exact hsame ▸ h.place y

/-- A header that the program has alone goes back into the queue of its pool. -/
lemma sound_putBack {q : Queue α} (hperm : q.Perm (x :: s.queue (owner x))) (h : Sound owner [] [] s)
    (hx : x ∈ s.held) (hone : s.refcount x = 1) (hnone : s.reference x = none) :
    Sound owner [] []
      { s with queue := Function.update s.queue (owner x) q, held := s.held.erase x } := by
  have hheld := List.count_pos_iff.2 hx
  obtain ⟨hqueued, hdelayed, hlimbo, hcount⟩ :=
    (h.place x).used_of_holders (show 0 < s.held.count x + [].count x + _ by omega)
  simp only [view, List.count_nil] at hqueued hdelayed hcount
  have hlast : s.held.count x = 1 ∧ (replicas [] s.reference x).card = 0 := by omega
  refine ⟨fun y => ?_, owner_queue hperm h.queues⟩
  by_cases hy : y = x
  · subst hy
    refine Place.mk_idle ?_ hdelayed ?_ hlimbo hone hnone
    · simp only [view, count_queue hperm, hqueued, List.count_singleton_self]
    · simp only [view, List.count_erase_self, hlast, List.count_nil]
  · have hsame : view owner [] []
        { s with queue := Function.update s.queue (owner x) q, held := s.held.erase x } y =
          view owner [] [] s y := by
      simp only [view, count_queue hperm, List.count_erase_of_ne hy,
        List.count_eq_zero.2 fun hmem => hy (List.mem_singleton.1 hmem), Nat.add_zero]
    exact hsame ▸ h.place y

omit [DecidableEq π] in
lemma holders_of_mem {float : List α} (hx : x ∈ s.held) : 0 < (view owner [] float s x).holders := by
  have hpos := List.count_pos_iff.2 hx
  simp only [view]
  omega

omit [DecidableEq π] in
lemma fresh_lt_fuel (limbo : List α) : fresh limbo < fuel α :=
  Nat.lt_succ_of_le (Finset.card_le_univ _)

/-- A step that leaves each header in its place. -/
lemma sound_of_step_ok {o : Status} {t : Headers π α} (hstep : step owner s e = .ok (o, t))
    (ht : Sound owner [] [] t) :
    step owner s e ≠ .error .tooDeep ∧ ∀ o s', step owner s e = .ok (o, s') → Sound owner [] [] s' := by
  rw [hstep]
  refine ⟨by simp, fun o' s' hs => ?_⟩
  exact (Prod.mk.inj (Except.ok.inj hs)).2 ▸ ht

/-- **One step.** It keeps each header in its place, and a release comes to its end. -/
theorem sound_step (h : Sound owner [] [] s) :
    step owner s e ≠ .error .tooDeep ∧ ∀ o s', step owner s e = .ok (o, s') → Sound owner [] [] s' := by
  cases e with
  | get pool =>
    rcases hq : s.queue pool with _ | ⟨x, q⟩
    · have hstep : step owner s (.get pool) = .ok (.eagain, s) := by simp only [step, hq, Queue.get]
      exact sound_of_step_ok hstep h
    · have hstep : step owner s (.get pool) = .ok (.success,
          { s with queue := Function.update s.queue pool q, held := x :: s.held }) := by
        simp only [step, hq, Queue.get]
      exact sound_of_step_ok hstep (sound_hold (sound_get h hq))
  | acquire x =>
    by_cases hx : x ∈ s.held
    · have hstep : step owner s (.acquire x) =
          .ok (.success, { s.acquire x with held := x :: (s.acquire x).held }) := by
        simp only [step, if_pos hx]
      exact sound_of_step_ok hstep (sound_hold (sound_acquire h (holders_of_mem hx)))
    · simp [step, if_neg hx]
  | release x a =>
    by_cases hx : x ∈ s.held
    · obtain ⟨t, ht, hsound⟩ := release_sound a (fuel α) (fresh_lt_fuel []) (sound_float h hx)
      have hstep : step owner s (.release x a) = .ok (.success, t) := by simp only [step, if_pos hx, ht]
      exact sound_of_step_ok hstep hsound
    · simp [step, if_neg hx]
  | releaseContinue x a =>
    by_cases hx : x ∈ s.delayed
    · obtain ⟨t, ht, hsound⟩ := releaseContinue_sound (s := { s with delayed := s.delayed.erase x }) a
        (Headers.release owner a (fuel α)) (fun r s hs => release_sound a (fuel α) (fresh_lt_fuel [x]) hs)
        List.not_mem_nil (sound_resume h hx)
      have hstep : step owner s (.releaseContinue x a) = .ok (.success, t) := by
        simp only [step, if_pos hx, ht]
      exact sound_of_step_ok hstep hsound
    · simp [step, if_neg hx]
  | replicate d x =>
    by_cases hx : d ∈ s.held ∧ x ∈ s.held
    · have hstep : step owner s (.replicate d x) = .ok (s.replicate d x) := by simp only [step, if_pos hx]
      have hsound : Sound owner [] [] (s.replicate d x).2 := by
        unfold Headers.replicate
        split
        · exact h
        · rename_i hnone
          have hd : d ∈ (s.acquire x).held := hx.1
          exact sound_refer _ (sound_acquire h (holders_of_mem hx.2)) (holders_of_mem hd) (not_not.1 hnone)
      exact sound_of_step_ok hstep hsound
    · simp [step, if_neg hx]
  | fill x c =>
    by_cases hx : x ∈ s.held
    · have hstep : step owner s (.fill x c) =
          .ok (.success, { s with content := Function.update s.content x c }) := by
        simp only [step, if_pos hx]
      exact sound_of_step_ok hstep (sound_fill c h)
    · simp [step, if_neg hx]
  | putBack x front =>
    by_cases hx : x ∈ s.held
    · by_cases halone : s.refcount x ≠ 1 ∨ s.reference x ≠ none
      · simp [step, hx, if_pos halone]
      · have hstep : step owner s (.putBack x front) = .ok (.success,
            { s with
              queue := Function.update s.queue (owner x)
                (if front then (s.queue (owner x)).putBack x else (s.queue (owner x)).put x)
              held := s.held.erase x }) := by
          simp only [step, not_not.2 hx, if_false, if_neg halone]
        have hperm : (if front = true then (s.queue (owner x)).putBack x
            else (s.queue (owner x)).put x).Perm (x :: s.queue (owner x)) := by
          cases front
          · exact List.perm_append_singleton _ _
          · exact .rfl
        simp only [not_or, not_not] at halone
        exact sound_of_step_ok hstep (sound_putBack hperm h hx halone.1 halone.2)
    · simp [step, hx]

end Step

/-! ### A whole run -/

section Run

open Lib.Run Lib.Links

variable {owner : α → π} {queue : π → Queue α} {data : α → Option ℕ} {allocSize : α → BitVec 32}
  {s : Headers π α} {x : α} {es : List (Event π α)} {os : List Status}

/-- Where the counts say that a header is. -/
inductive Found (owner : α → π) (s : Headers π α) (x : α) : Prop
  /-- It is in the queue of its pool, once, and nobody has it. -/
  | idle (hqueue : (s.queue (owner x)).count x = 1) (hheld : x ∉ s.held) (hdelayed : x ∉ s.delayed)
      (hreplica : ∀ d, s.reference d ≠ some x) (hreference : s.reference x = none)
      (hcount : s.refcount x = 1)
  | delayed (hqueue : ∀ p, x ∉ s.queue p) (hheld : x ∉ s.held) (hdelayed : s.delayed.count x = 1)
      (hreplica : ∀ d, s.reference d ≠ some x) (hcount : s.refcount x = 0)
  /-- It has as many references as it counts, those of the program and one for each replica. -/
  | used (hqueue : ∀ p, x ∉ s.queue p) (hdelayed : x ∉ s.delayed) (hpos : 0 < s.refcount x)
      (hcount : s.refcount x = s.held.count x + ({d | s.reference d = some x} : Finset α).card)

lemma replicas_nil (reference : α → Option α) (x : α) :
    replicas [] reference x = ({d | reference d = some x} : Finset α) := by
  ext d
  simp [mem_replicas]

omit [DecidableEq π] in
theorem found_of_sound (h : Sound owner [] [] s) (x : α) : Found owner s x := by
  have hplace := h.place x
  have hqueue : x ∉ s.queue (owner x) → ∀ p, x ∉ s.queue p := by
    intro hno p hmem
    rw [h.queues p x hmem] at hno
    exact hno hmem
  have hreplica : (replicas [] s.reference x).card = 0 → ∀ d, s.reference d ≠ some x := by
    intro hcard d hd
    rw [Finset.card_eq_zero] at hcard
    exact Finset.notMem_empty d (hcard ▸ mem_replicas.2 ⟨List.not_mem_nil, hd⟩)
  generalize hv : view owner [] [] s x = v at hplace
  cases hplace with
  | idle =>
    simp only [view, View.mk.injEq, List.count_nil] at hv
    obtain ⟨hq, hd, hholders, -, hcount, href⟩ := hv
    exact .idle hq (List.count_eq_zero.1 (by omega)) (List.count_eq_zero.1 hd) (hreplica (by omega)) href
      hcount
  | used hpos =>
    simp only [view, View.mk.injEq, List.count_nil] at hv
    obtain ⟨hq, hd, hholders, -, hcount, -⟩ := hv
    refine .used (hqueue (List.count_eq_zero.1 hq)) (List.count_eq_zero.1 hd) (by omega) ?_
    rw [← replicas_nil]
    omega
  | delayed =>
    simp only [view, View.mk.injEq, List.count_nil] at hv
    obtain ⟨hq, hd, hholders, -, hcount, -⟩ := hv
    exact .delayed (hqueue (List.count_eq_zero.1 hq)) (List.count_eq_zero.1 (by omega)) hd
      (hreplica (by omega)) hcount
  | limbo => simp [view] at hv

/-- From what the program holds or what is delayed one comes to `x`, from replicas to what they are
replicas of. -/
def Reached (s : Headers π α) (x : α) : Prop :=
  ∃ y, Relation.ReflTransGen (Follows s.reference) y x ∧ (y ∈ s.held ∨ y ∈ s.delayed)

/-- `x` is a replica of a replica, and so on, of itself. -/
def OnRing (s : Headers π α) (x : α) : Prop := Relation.TransGen (Follows s.reference) x x

omit [DecidableEq π] in
/-- What leads to a header that is not idle is not idle either. -/
lemma Found.not_idle_of_reflTransGen {y : α} (hfound : ∀ x, Found owner s x) (hx : x ∉ s.queue (owner x))
    (h : Relation.ReflTransGen (Follows s.reference) y x) : y ∉ s.queue (owner y) := by
  rcases Relation.ReflTransGen.cases_head h with rfl | ⟨z, hz, -⟩
  · exact hx
  · cases hfound y with
    | idle _ _ _ _ hreference => cases hz.symm.trans hreference
    | delayed hqueue => exact hqueue _
    | used hqueue => exact hqueue _

omit [DecidableEq π] in
/-- The links to a header that is not idle begin at one that no replica refers to, and that one is held or
delayed, or they do not begin at all. -/
theorem reached_of_found (hfound : ∀ x, Found owner s x) (hx : x ∉ s.queue (owner x)) :
    Reached s x ∨ OnRing s x := by
  rcases origin_or_ring s.reference x with ⟨y, hlead, horigin⟩ | hring
  · left
    have hy := Found.not_idle_of_reflTransGen hfound hx hlead
    cases hfound y with
    | idle hqueue => exact absurd (List.count_pos_iff.1 (by omega)) hy
    | delayed _ _ hdelayed => exact ⟨y, hlead, .inr (List.count_pos_iff.1 (by omega))⟩
    | used _ _ hpos hcount =>
      have hnone : ({d | s.reference d = some y} : Finset α) = ∅ := by
        ext d
        simp [horigin d]
      rw [hnone, Finset.card_empty] at hcount
      exact ⟨y, hlead, .inl (List.count_pos_iff.1 (by omega))⟩
  · exact .inr hring

/-- **References are counted.** From pools with all their headers, no release goes on for ever, and after
every run each header is idle in its pool, or delayed, or in use with as many references as it counts. So
none is reused while a replica of it is about, and one that is not idle is lost only on a ring of
replicas. -/
theorem counted (hall : ∀ x, (queue (owner x)).count x = 1) (hown : ∀ p, ∀ x ∈ queue p, owner x = p)
    (data : α → Option ℕ) (allocSize : α → BitVec 32) (es : List (Event π α)) :
    run (step owner) (.create queue data allocSize) es ≠ .error .tooDeep ∧
      ∀ os s, run (step owner) (.create queue data allocSize) es = .ok (os, s) → ∀ x,
        Found owner s x ∧ (x ∈ s.queue (owner x) ∨ Reached s x ∨ OnRing s x) := by
  have hI : Invariant (step owner) (Sound (π := π) owner [] []) :=
    fun _ _ _ _ hs hstep => (sound_step hs).2 _ _ hstep
  have h0 := sound_create data allocSize hall hown
  constructor
  · intro hno
    exact not_along_of_run_error (fun _ _ h => h) hno
      (along_of_inv hI (fun s e hs => (sound_step hs).1) h0 es)
  · intro os s h x
    have hfound := found_of_sound (inv_run hI h0 h)
    refine ⟨hfound x, ?_⟩
    by_cases hx : x ∈ s.queue (owner x)
    · exact .inl hx
    · exact .inr (reached_of_found hfound hx)

/-- A replica outlives its source: the source is back in the pool when the replica is released, and goes
out and in again in front of it. -/
theorem counted_replica : ∃ os s,
    run (step fun _ : Bool => ()) (.create (fun _ => [true, false]) (fun _ => none) fun _ => 0)
      [.get (), .get (), .replicate true false, .release false ⟨fun _ => false, fun _ => true⟩,
        .release true ⟨fun _ => false, fun _ => true⟩, .get (), .putBack false true] = .ok (os, s) ∧
    s.queue () = [false, true] ∧
    ∀ x, Found (fun _ => ()) s x ∧ (x ∈ s.queue () ∨ Reached s x ∨ OnRing s x) := by
  obtain ⟨os, s, h, hq⟩ : ∃ os s,
      run (step fun _ : Bool => ()) (.create (fun _ => [true, false]) (fun _ => none) fun _ => 0)
        [.get (), .get (), .replicate true false, .release false ⟨fun _ => false, fun _ => true⟩,
          .release true ⟨fun _ => false, fun _ => true⟩, .get (), .putBack false true] = .ok (os, s) ∧
      s.queue () = [false, true] :=
    ⟨_, _, rfl, rfl⟩
  exact ⟨os, s, h, hq, (counted (by decide) (fun _ _ _ => rfl) _ _ _).2 os s h⟩

/-- A replica of itself is lost: nobody holds it, and no pool has it. -/
example : ∃ os s,
    run (step fun _ : Unit => ()) (.create (fun _ => [()]) (fun _ => none) fun _ => 0)
      [.get (), .replicate () (), .release () ⟨fun _ => false, fun _ => true⟩] = .ok (os, s) ∧
    s.queue () = [] ∧ s.held = [] ∧ s.delayed = [] ∧ s.refcount () = 1 ∧ OnRing s () :=
  ⟨_, _, rfl, rfl, rfl, rfl, rfl, .single rfl⟩

end Run

end Reference

end RcControl.Mmal
