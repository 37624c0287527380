import RcControl.FrameQueue.Plain

/-!
# Which fragment is where

The plain queue with the fragments written in place of their bytes. A fragment has the number of its
`write_back` and the number of its access unit, which ends with the fragment that has `FRAME_END`; so
a frame says what it is made of. `contentOf` forgets it, and a step of the ledger is then a step of the
plain queue (`step_forget`), and so of the code.

The books balance: the fragments accepted, without those of the pending frames that an overflow has
discarded, are those delivered, queued and pending, in the order in which they were written
(`bytes_conserved`).
-/

namespace RcControl.FrameQueue

open Mmal Lib.Run

/-- A fragment as it was written. -/
structure Fragment where
  /-- How many were written before. -/
  nth : ℕ
  /-- How many access units ended before. -/
  unit : ℕ
  header : BufferHeader
  deriving DecidableEq

/-- The bytes of some fragments. -/
def bytes (l : List Fragment) : List UInt8 := l.flatMap fun f => f.header.payload

/-- What a reader sees of a frame: the flags of its last fragment, and the bytes of all. -/
def contentOf (l : List Fragment) : Frame :=
  ((l.getLast?.map fun f => Flags.ofHeader f.header).getD 0, bytes l)

/-- `FRAME_END`. -/
def endsUnit (x : BufferHeader) : Bool := (Flags.ofHeader x).getLsbD kFrameFlagEnd

/-- `CONFIG`. -/
def isConfigUnit (x : BufferHeader) : Bool := (Flags.ofHeader x).getLsbD kFrameFlagConfig

/-- The queue as fragments. -/
structure Ledger where
  fifo : List (List Fragment)
  pending : Option (List Fragment)
  /-- How many fragments were written. -/
  nth : ℕ
  /-- How many access units have ended. -/
  unit : ℕ
  /-- The access units of which a fragment was refused. -/
  spoiled : List ℕ

/-- What a call does to the fragments. -/
inductive Entry where
  /-- `write_back` returned `true`. -/
  | accepted (f : Fragment)
  /-- `write_back` returned `false`, and gave up the pending frame of these fragments. -/
  | refused (f : Fragment) (discarded : List Fragment)
  | delivered (frame : List Fragment)
  /-- `write_back` was given no fragment. -/
  | noFragment
  /-- `read_front` found no frame. -/
  | noFrame
  | cleared
  | size (n : ℕ)

/-- What the call returns. -/
def Entry.result : Entry → Result
  | accepted _ => .written true
  | refused _ _ => .written false
  | delivered frame => .frame (some (contentOf frame))
  | noFragment => .written false
  | noFrame => .frame none
  | cleared => .cleared
  | size n => .size n

namespace Ledger

def empty : Ledger := ⟨[], none, 0, 0, []⟩

/-- The fragment written next. -/
def next (u : Ledger) (x : BufferHeader) : Fragment := ⟨u.nth, u.unit, x⟩

/-- One fragment more. -/
def count (u : Ledger) (x : BufferHeader) : Ledger :=
  { u with nth := u.nth + 1, unit := if endsUnit x then u.unit + 1 else u.unit }

/-- The same, of a fragment that is refused. -/
def spoil (u : Ledger) (x : BufferHeader) : Ledger := { u.count x with spoiled := u.unit :: u.spoiled }

/-- `write_back`, of the next fragment. -/
def writeBack (b : ℕ) (u : Ledger) : Option BufferHeader → Entry × Ledger
  | none => (.noFragment, u)
  | some x =>
    if Skipped x then (.accepted (u.next x), u.count x)
    else if b < x.length then (.refused (u.next x) [], u.spoil x)
    else
      match u.pending with
      | some l =>
        if b < (bytes l).length + x.length then
          (.refused (u.next x) l, { u.spoil x with pending := none })
        else if endsUnit x then
          (.accepted (u.next x),
            { u.count x with fifo := u.fifo ++ [l ++ [u.next x]], pending := none })
        else (.accepted (u.next x), { u.count x with pending := some (l ++ [u.next x]) })
      | none =>
        if isConfigUnit x then (.accepted (u.next x), { u.count x with pending := some [u.next x] })
        else (.accepted (u.next x), { u.count x with fifo := u.fifo ++ [[u.next x]] })

def readFront (u : Ledger) : Entry × Ledger :=
  match u.fifo with
  | [] => (.noFrame, u)
  | l :: rest => (.delivered l, { u with fifo := rest })

/-- One call. -/
def step (b : ℕ) (u : Ledger) : Call → Except Empty (Entry × Ledger)
  | .writeBack x => .ok (writeBack b u x)
  | .readFront => .ok u.readFront
  | .clear => .ok (.cleared, { u with fifo := [] })
  | .size => .ok (.size u.fifo.length, u)

/-- The queue of values. -/
def forget (u : Ledger) : Plain := ⟨u.fifo.map contentOf, u.pending.map contentOf⟩

/-- The fragments that are queued or pending, in order. -/
def held (u : Ledger) : List Fragment := u.fifo.flatten ++ u.pending.getD []

end Ledger

/-! ### The ledger is the queue -/

section Forget

variable {b : ℕ} {u v : Ledger} {l : List Fragment} {f : Fragment} {x : BufferHeader} {call : Call}

@[simp] lemma bytes_append (l l' : List Fragment) : bytes (l ++ l') = bytes l ++ bytes l' :=
  List.flatMap_append

lemma contentOf_concat (l : List Fragment) (f : Fragment) :
    contentOf (l ++ [f]) = (Flags.ofHeader f.header, bytes l ++ f.header.payload) := by
  have hone : bytes [f] = f.header.payload := by simp [bytes]
  simp [contentOf, hone]

lemma contentOf_singleton (f : Fragment) :
    contentOf [f] = (Flags.ofHeader f.header, f.header.payload) := contentOf_concat [] f

/-- The ways through `write_back`. -/
inductive Writes (b : ℕ) (u : Ledger) (x : BufferHeader) : Entry → Ledger → Prop
  | skips (hz : Skipped x) : Writes b u x (.accepted (u.next x)) (u.count x)
  | tooLarge (hz : ¬ Skipped x) (hl : b < x.length) : Writes b u x (.refused (u.next x) []) (u.spoil x)
  | overflows (l : List Fragment) (hz : ¬ Skipped x) (hl : x.length ≤ b) (hp : u.pending = some l)
      (hover : b < (bytes l).length + x.length) :
      Writes b u x (.refused (u.next x) l) { u.spoil x with pending := none }
  | completes (l : List Fragment) (hz : ¬ Skipped x) (hl : x.length ≤ b) (hp : u.pending = some l)
      (hfits : (bytes l).length + x.length ≤ b) (hend : endsUnit x = true) :
      Writes b u x (.accepted (u.next x))
        { u.count x with fifo := u.fifo ++ [l ++ [u.next x]], pending := none }
  | extends (l : List Fragment) (hz : ¬ Skipped x) (hl : x.length ≤ b) (hp : u.pending = some l)
      (hfits : (bytes l).length + x.length ≤ b) (hend : endsUnit x = false) :
      Writes b u x (.accepted (u.next x)) { u.count x with pending := some (l ++ [u.next x]) }
  | begins (hz : ¬ Skipped x) (hl : x.length ≤ b) (hp : u.pending = none)
      (hconfig : isConfigUnit x = true) :
      Writes b u x (.accepted (u.next x)) { u.count x with pending := some [u.next x] }
  | queues (hz : ¬ Skipped x) (hl : x.length ≤ b) (hp : u.pending = none)
      (hconfig : isConfigUnit x = false) :
      Writes b u x (.accepted (u.next x)) { u.count x with fifo := u.fifo ++ [[u.next x]] }

theorem writes_writeBack (b : ℕ) (u : Ledger) (x : BufferHeader) :
    Writes b u x (u.writeBack b (some x)).1 (u.writeBack b (some x)).2 := by
  simp only [Ledger.writeBack]
  by_cases hz : Skipped x
  · rw [if_pos hz]
    exact .skips hz
  by_cases hl : b < x.length
  · rw [if_neg hz, if_pos hl]
    exact .tooLarge hz hl
  rw [if_neg hz, if_neg hl]
  rcases hp : u.pending with _ | l
  · rcases hc : isConfigUnit x
    · exact .queues hz (not_lt.1 hl) hp hc
    · exact .begins hz (not_lt.1 hl) hp hc
  · by_cases hover : b < (bytes l).length + x.length
    · simp only [if_pos hover]
      exact .overflows l hz (not_lt.1 hl) hp hover
    · simp only [if_neg hover]
      rcases hend : endsUnit x
      · exact .extends l hz (not_lt.1 hl) hp (not_lt.1 hover) hend
      · exact .completes l hz (not_lt.1 hl) hp (not_lt.1 hover) hend

lemma isFrameEnd_eq (x : BufferHeader) (l : List UInt8) :
    Frame.isFrameEnd (Flags.ofHeader x, l) = endsUnit x := rfl

lemma isConfig_eq (x : BufferHeader) (l : List UInt8) :
    Frame.isConfig (Flags.ofHeader x, l) = isConfigUnit x := rfl

/-- One `write_back` of a fragment, on values. -/
lemma forget_writes {e : Entry} (h : Writes b u x e v) :
    ∃ r, e.result = .written r ∧ Plain.writeBack b u.forget (some x) = (r, v.forget) := by
  have hbytes : ∀ l, (contentOf l).2 = bytes l := fun _ => rfl
  simp only [Plain.writeBack, Ledger.forget, isFrameEnd_eq, isConfig_eq]
  cases h with
  | skips hz =>
    rw [if_pos hz]
    exact ⟨true, rfl, rfl⟩
  | tooLarge hz hl =>
    rw [if_neg hz, if_pos hl]
    exact ⟨false, rfl, rfl⟩
  | overflows l hz hl hp hover =>
    rw [if_neg hz, if_neg (not_lt.2 hl), hp]
    simp only [Option.map_some, hbytes, if_pos hover]
    exact ⟨false, rfl, rfl⟩
  | completes l hz hl hp hfits hend =>
    rw [if_neg hz, if_neg (not_lt.2 hl), hp]
    simp only [Option.map_some, hbytes, if_neg (not_lt.2 hfits), hend, if_true]
    exact ⟨true, rfl, by simp [Ledger.next, contentOf_concat]⟩
  | «extends» l hz hl hp hfits hend =>
    rw [if_neg hz, if_neg (not_lt.2 hl), hp]
    simp only [Option.map_some, hbytes, if_neg (not_lt.2 hfits), hend, Bool.false_eq_true, if_false]
    exact ⟨true, rfl, by simp [Ledger.count, Ledger.next, contentOf_concat]⟩
  | begins hz hl hp hconfig =>
    rw [if_neg hz, if_neg (not_lt.2 hl), hp]
    simp only [Option.map_none, hconfig, if_true]
    exact ⟨true, rfl, by simp [Ledger.count, Ledger.next, contentOf_singleton]⟩
  | queues hz hl hp hconfig =>
    rw [if_neg hz, if_neg (not_lt.2 hl), hp]
    simp only [Option.map_none, hconfig, Bool.false_eq_true, if_false]
    exact ⟨true, rfl, by simp [Ledger.count, Ledger.next, contentOf_singleton, hp]⟩

lemma readFront_cases (u : Ledger) :
    (u.fifo = [] ∧ u.readFront = (.noFrame, u)) ∨
      ∃ l rest, u.fifo = l :: rest ∧ u.readFront = (.delivered l, { u with fifo := rest }) := by
  unfold Ledger.readFront
  rcases u.fifo with _ | ⟨l, rest⟩
  · exact Or.inl ⟨rfl, rfl⟩
  · exact Or.inr ⟨l, rest, rfl, rfl⟩

/-- **A step of the ledger is a step of the plain queue.** -/
theorem step_forget (b : ℕ) (u : Ledger) (call : Call) :
    ∃ e v, Ledger.step b u call = .ok (e, v) ∧
      Plain.step b u.forget call = .ok (e.result, v.forget) := by
  cases call with
  | writeBack o =>
    rcases o with _ | x
    · exact ⟨_, _, rfl, rfl⟩
    · obtain ⟨r, hr, heq⟩ := forget_writes (writes_writeBack b u x)
      refine ⟨(u.writeBack b (some x)).1, (u.writeBack b (some x)).2, rfl, ?_⟩
      simp only [Plain.step, heq, hr]
  | readFront =>
    rcases readFront_cases u with ⟨hq, heq⟩ | ⟨l, rest, hq, heq⟩
    · exact ⟨_, _, congrArg _ heq, by simp [Plain.step, Plain.readFront, Ledger.forget, hq, Entry.result]⟩
    · exact ⟨_, _, congrArg _ heq, by simp [Plain.step, Plain.readFront, Ledger.forget, hq, Entry.result]⟩
  | clear => exact ⟨_, _, rfl, rfl⟩
  | size => exact ⟨_, _, rfl, by simp [Plain.step, Ledger.forget, Entry.result]⟩

end Forget

/-! ### The books balance -/

/-- The fragments that were accepted. -/
def acceptedOf (ts : List Entry) : List Fragment :=
  ts.filterMap fun
    | .accepted f => some f
    | _ => none

/-- The fragments of the pending frames that were given up. -/
def discardedOf (ts : List Entry) : List Fragment :=
  ts.flatMap fun
    | .refused _ l => l
    | _ => []

/-- The fragments of the frames that were delivered. -/
def deliveredOf (ts : List Entry) : List Fragment :=
  ts.flatMap fun
    | .delivered l => l
    | _ => []

/-- What of a fragment that is accepted gets into a frame. -/
def enters (f : Fragment) : List Fragment := if Skipped f.header then [] else [f]

/-- What an entry says of the fragments that are held before and after it. -/
def Moves (u : Ledger) (e : Entry) (v : Ledger) : Prop :=
  match e with
  | .accepted f => f.nth = u.nth ∧ v.nth = u.nth + 1 ∧ v.held = u.held ++ enters f
  | .refused _ l => v.nth = u.nth + 1 ∧ u.held = v.held ++ l
  | .delivered l => v.nth = u.nth ∧ u.held = l ++ v.held
  | _ => v.nth = u.nth ∧ u.held = v.held

/-- What is delivered and held is what was accepted and not discarded. -/
structure Balanced (ts : List Entry) (u : Ledger) : Prop where
  fresh : ∀ f ∈ acceptedOf ts, f.nth < u.nth
  nodup : (acceptedOf ts).Nodup
  discarded : discardedOf ts ⊆ acceptedOf ts
  balance : (acceptedOf ts).filter (fun f => ¬ Skipped f.header ∧ f ∉ discardedOf ts) =
    deliveredOf ts ++ u.held

section Balance

variable {b : ℕ} {u v : Ledger} {x : BufferHeader} {call : Call} {calls : List Call} {e : Entry}
  {ts : List Entry}

@[simp] lemma acceptedOf_append (ts ts' : List Entry) :
    acceptedOf (ts ++ ts') = acceptedOf ts ++ acceptedOf ts' := List.filterMap_append

@[simp] lemma discardedOf_append (ts ts' : List Entry) :
    discardedOf (ts ++ ts') = discardedOf ts ++ discardedOf ts' := List.flatMap_append

@[simp] lemma deliveredOf_append (ts ts' : List Entry) :
    deliveredOf (ts ++ ts') = deliveredOf ts ++ deliveredOf ts' := List.flatMap_append

lemma enters_of_skipped {f : Fragment} (h : Skipped f.header) : enters f = [] := if_pos h

lemma enters_of_not_skipped {f : Fragment} (h : ¬ Skipped f.header) : enters f = [f] := if_neg h

lemma moves_writes (h : Writes b u x e v) : Moves u e v := by
  cases h with
  | skips hz =>
    refine ⟨rfl, rfl, ?_⟩
    rw [enters_of_skipped hz, List.append_nil]
    rfl
  | tooLarge hz hl => exact ⟨rfl, by simp [Ledger.held, Ledger.spoil, Ledger.count]⟩
  | overflows l hz hl hp hover => exact ⟨rfl, by simp [Ledger.held, Ledger.spoil, Ledger.count, hp]⟩
  | completes l hz hl hp hfits hend =>
    refine ⟨rfl, rfl, ?_⟩
    rw [enters_of_not_skipped hz]
    simp [Ledger.held, hp]
  | «extends» l hz hl hp hfits hend =>
    refine ⟨rfl, rfl, ?_⟩
    rw [enters_of_not_skipped hz]
    simp [Ledger.held, Ledger.count, hp]
  | begins hz hl hp hconfig =>
    refine ⟨rfl, rfl, ?_⟩
    rw [enters_of_not_skipped hz]
    simp [Ledger.held, Ledger.count, hp]
  | queues hz hl hp hconfig =>
    refine ⟨rfl, rfl, ?_⟩
    rw [enters_of_not_skipped hz]
    simp [Ledger.held, Ledger.count, hp]

/-- Of the calls, only `clear` loses frames without a trace. -/
theorem moves_step (hcall : call ≠ .clear) (hs : Ledger.step b u call = .ok (e, v)) : Moves u e v := by
  cases call with
  | writeBack o =>
    obtain ⟨rfl, rfl⟩ := Prod.mk.inj (Except.ok.inj hs)
    rcases o with _ | x
    · exact ⟨rfl, rfl⟩
    · exact moves_writes (writes_writeBack b u x)
  | readFront =>
    have hread : u.readFront = (e, v) := Except.ok.inj hs
    rcases readFront_cases u with ⟨-, heq⟩ | ⟨l, rest, hq, heq⟩
    · obtain ⟨rfl, rfl⟩ := Prod.mk.inj (heq.symm.trans hread)
      exact ⟨rfl, rfl⟩
    · obtain ⟨rfl, rfl⟩ := Prod.mk.inj (heq.symm.trans hread)
      exact ⟨rfl, by simp [Ledger.held, hq]⟩
  | clear => exact absurd rfl hcall
  | size =>
    obtain ⟨rfl, rfl⟩ := Prod.mk.inj (Except.ok.inj hs)
    exact ⟨rfl, rfl⟩

/-- A frame that is delivered was queued. -/
lemma delivered_queued {l : List Fragment} (hs : Ledger.step b u call = .ok (.delivered l, v)) :
    l ∈ u.fifo := by
  cases call with
  | writeBack o =>
    rcases o with _ | x
    · simp [Ledger.step, Ledger.writeBack] at hs
    · have hwrite : u.writeBack b (some x) = (.delivered l, v) := Except.ok.inj hs
      have hw := writes_writeBack b u x
      rw [hwrite] at hw
      cases hw
  | readFront =>
    have hread : u.readFront = (.delivered l, v) := Except.ok.inj hs
    rcases readFront_cases u with ⟨-, heq⟩ | ⟨l', rest, hq, heq⟩
    · simp [heq] at hread
    · obtain ⟨hl, -⟩ := Prod.mk.inj (heq.symm.trans hread)
      rw [hq, Entry.delivered.inj hl]
      exact List.mem_cons_self
  | clear | size => simp [Ledger.step] at hs

/-- What holds of every frame that is queued, under an invariant, holds of those delivered. -/
theorem delivered_run {I : Ledger → Prop} {P : List Fragment → Prop} (hI : Invariant (Ledger.step b) I)
    (hP : ∀ u l, I u → l ∈ u.fifo → P l) (hu : I u) (h : run (Ledger.step b) u calls = .ok (ts, v)) :
    ∀ l, .delivered l ∈ ts → P l := by
  induction calls generalizing u ts with
  | nil =>
    obtain ⟨rfl, -⟩ := Prod.mk.inj (Except.ok.inj h)
    exact fun l hl => absurd hl List.not_mem_nil
  | cons call calls ih =>
    obtain ⟨e, u', ts', hs, hrun, rfl⟩ := run_cons_eq_ok.1 h
    intro l hl
    rcases List.mem_cons.1 hl with rfl | hl
    · exact hP u l hu (delivered_queued hs)
    · exact ih (hI u call e u' hu hs) hrun l hl

lemma filter_notMem_append {α : Type*} [DecidableEq α] {l l' : List α} (h : (l ++ l').Nodup) :
    (l ++ l').filter (fun a => a ∉ l') = l := by
  obtain ⟨-, -, hdisj⟩ := List.nodup_append.1 h
  rw [List.filter_append, List.filter_eq_self.2, List.filter_eq_nil_iff.2, List.append_nil]
  · intro a ha
    simpa using ha
  · intro a ha
    simpa using fun ha' => hdisj a ha a ha' rfl

lemma Balanced.accept {f : Fragment} (h : Balanced ts u) (hf : f.nth = u.nth) (hv : v.nth = u.nth + 1)
    (hheld : v.held = u.held ++ enters f) : Balanced (ts ++ [.accepted f]) v := by
  have hacc : acceptedOf (ts ++ [.accepted f]) = acceptedOf ts ++ [f] := acceptedOf_append ..
  have hdis : discardedOf (ts ++ [.accepted f]) = discardedOf ts := by simp [discardedOf]
  have hdel : deliveredOf (ts ++ [.accepted f]) = deliveredOf ts := by simp [deliveredOf]
  -- the number of the fragment is new
  have hnew : f ∉ acceptedOf ts := fun hmem => absurd (h.fresh f hmem) (by omega)
  have hnew' : f ∉ discardedOf ts := fun hmem => hnew (h.discarded hmem)
  constructor
  · intro g hg
    rw [hacc] at hg
    rcases List.mem_append.1 hg with hg | hg
    · have := h.fresh g hg
      omega
    · rw [List.mem_singleton.1 hg]
      omega
  · rw [hacc]
    exact (List.perm_append_singleton f _).nodup_iff.2 (List.nodup_cons.2 ⟨hnew, h.nodup⟩)
  · rw [hacc, hdis]
    exact List.subset_append_of_subset_left _ h.discarded
  · rw [hacc, hdis, hdel, List.filter_append, h.balance, hheld, List.append_assoc]
    refine congrArg _ (congrArg _ ?_)
    by_cases hz : Skipped f.header
    · rw [enters_of_skipped hz, List.filter_eq_nil_iff]
      intro g hg
      rw [List.mem_singleton.1 hg]
      simp [hz]
    · rw [enters_of_not_skipped hz, List.filter_eq_self]
      intro g hg
      rw [List.mem_singleton.1 hg]
      simp [hz, hnew']

lemma Balanced.refuse {f : Fragment} {l : List Fragment} (h : Balanced ts u) (hv : v.nth = u.nth + 1)
    (hheld : u.held = v.held ++ l) : Balanced (ts ++ [.refused f l]) v := by
  have hacc : acceptedOf (ts ++ [.refused f l]) = acceptedOf ts := by simp [acceptedOf]
  have hdis : discardedOf (ts ++ [.refused f l]) = discardedOf ts ++ l := by simp [discardedOf]
  have hdel : deliveredOf (ts ++ [.refused f l]) = deliveredOf ts := by simp [deliveredOf]
  have hbal := h.balance
  rw [hheld, ← List.append_assoc] at hbal
  have hnd : ((deliveredOf ts ++ v.held) ++ l).Nodup := hbal ▸ h.nodup.filter _
  constructor
  · intro g hg
    rw [hacc] at hg
    have := h.fresh g hg
    omega
  · rw [hacc]
    exact h.nodup
  · rw [hacc, hdis]
    refine List.append_subset.2 ⟨h.discarded, fun g hg => ?_⟩
    have hmem : g ∈ (deliveredOf ts ++ v.held) ++ l := List.mem_append_right _ hg
    rw [← hbal] at hmem
    exact (List.mem_filter.1 hmem).1
  · rw [hacc, hdis, hdel, ← filter_notMem_append hnd, ← hbal, List.filter_filter]
    apply List.filter_congr
    intro g _
    simp only [List.mem_append, not_or, Bool.decide_and, Bool.and_left_comm, Bool.and_comm]

/-- What is neither accepted nor refused moves at most a frame to the reader. -/
lemma Balanced.moveOut {l : List Fragment} (h : Balanced ts u) (hacc : acceptedOf [e] = [])
    (hdis : discardedOf [e] = []) (hdel : deliveredOf [e] = l) (hv : v.nth = u.nth)
    (hheld : u.held = l ++ v.held) : Balanced (ts ++ [e]) v := by
  have hacc' : acceptedOf (ts ++ [e]) = acceptedOf ts := by
    rw [acceptedOf_append, hacc, List.append_nil]
  have hdis' : discardedOf (ts ++ [e]) = discardedOf ts := by
    rw [discardedOf_append, hdis, List.append_nil]
  refine ⟨?_, ?_, ?_, ?_⟩
  · rw [hacc', hv]
    exact h.fresh
  · rw [hacc']
    exact h.nodup
  · rw [hacc', hdis']
    exact h.discarded
  · rw [hacc', hdis', deliveredOf_append, hdel, h.balance, hheld, List.append_assoc]

/-- **One call keeps the balance.** -/
theorem Balanced.step (h : Balanced ts u) (hm : Moves u e v) : Balanced (ts ++ [e]) v := by
  cases e with
  | accepted f => exact h.accept hm.1 hm.2.1 hm.2.2
  | refused f l => exact h.refuse hm.1 hm.2
  | delivered l => exact h.moveOut rfl rfl (List.append_nil l) hm.1 hm.2
  | noFragment | noFrame | cleared | size n => exact h.moveOut rfl rfl rfl hm.1 hm.2

/-- The books of a run without `clear` balance. -/
theorem balanced_run (hcalls : .clear ∉ calls)
    (h : run (Ledger.step b) .empty calls = .ok (ts, u)) : Balanced ts u := by
  refine history_run (J := fun calls ts u => .clear ∉ calls → Balanced ts u) ?_ ?_ h hcalls
  · intro _
    refine ⟨?_, List.nodup_nil, List.Subset.refl _, rfl⟩
    intro f hf
    simp [acceptedOf] at hf
  · intro calls ts u call e v _ hbal hs hnot
    rw [List.mem_append, not_or, List.mem_singleton] at hnot
    exact (hbal hnot.1).step (moves_step (Ne.symm hnot.2) hs)

end Balance

/-! ### The bytes of the code -/

/-- The bytes of the frames that were handed out. -/
def deliveredBytes (os : List Result) : List UInt8 :=
  os.flatMap fun
    | .frame (some content) => content.2
    | _ => []

/-- The bytes of the queued frames, front to back. -/
def queuedBytes (s : FrameQueue) : List UInt8 :=
  s.encodedFrameQueue.flatMap fun p => (frameAt s.heap p).2

/-- The bytes of the pending frame. -/
def pendingBytes (s : FrameQueue) : List UInt8 := s.pending.flatMap fun p => (frameAt s.heap p).2

/-- The fragments for which `write_back` returned `true`. -/
def acceptedHeaders (calls : List Call) (os : List Result) : List BufferHeader :=
  (calls.zip os).filterMap fun
    | (.writeBack (some x), .written true) => some x
    | _ => none

section Bytes

variable {pf : Platform} {b c : ℕ} {s : FrameQueue} {u v : Ledger} {calls : List Call}
  {os : List Result} {ts : List Entry}

/-- While a buffer can be had, the code is the ledger with its fragments forgotten. -/
theorem run_ledger (hw : pf.NoWrap b) (h : Inv c b s) (habs : abs s = u.forget)
    (hcan : Along (step pf) CanServe s calls) :
    ∃ os t ts v, run (step pf) s calls = .ok (os, t) ∧ run (Ledger.step b) u calls = .ok (ts, v) ∧
      os = ts.map Entry.result ∧ abs t = v.forget ∧ Inv c b t := by
  obtain ⟨os, t, hrun, hplain, hinv⟩ := run_abs hw h hcan
  obtain ⟨ts, v, hledger, hplain'⟩ := run_map Entry.result Ledger.forget (step_forget b) u calls
  rw [habs] at hplain
  obtain ⟨rfl, habs'⟩ := Prod.mk.inj (Except.ok.inj (hplain.symm.trans hplain'))
  exact ⟨_, t, ts, v, hrun, hledger, rfl, habs', hinv⟩

/-- A run that returns has a ledger. -/
theorem ledger_of_run {t : FrameQueue} (hb : pf.SizeT b) (h : Inv c b s) (habs : abs s = u.forget)
    (hrun : run (step pf) s calls = .ok (os, t)) :
    ∃ ts v, run (Ledger.step b) u calls = .ok (ts, v) ∧ os = ts.map Entry.result ∧
      abs t = v.forget ∧ Inv c b t := by
  have hideal := run_ideal hb h hrun
  have hcan : Along (step (Platform.ideal pf.malloc)) CanServe s calls :=
    along_of_run_ok (inv_step _ c b) (fun _ _ _ _ hs => canServe_of_ok hs) h hideal
  obtain ⟨os', t', ts, v, hrun', hledger, rfl, habs', hinv⟩ := run_ledger (Or.inl rfl) h habs hcan
  obtain ⟨rfl, rfl⟩ := Prod.mk.inj (Except.ok.inj (hideal.symm.trans hrun'))
  exact ⟨ts, v, hledger, rfl, habs', hinv⟩

lemma deliveredBytes_map (ts : List Entry) :
    deliveredBytes (ts.map Entry.result) = bytes (deliveredOf ts) := by
  induction ts with
  | nil => rfl
  | cons e ts ih =>
    have hcons : deliveredBytes ((e :: ts).map Entry.result) =
        deliveredBytes [e.result] ++ deliveredBytes (ts.map Entry.result) := by
      simp [deliveredBytes]
    have hcons' : deliveredOf (e :: ts) = deliveredOf [e] ++ deliveredOf ts :=
      deliveredOf_append [e] ts
    rw [hcons, hcons', bytes_append, ih]
    cases e <;> simp [deliveredBytes, deliveredOf, Entry.result, contentOf, bytes]

/-- The pending frame of the code is that of the ledger. -/
lemma pendingBytes_eq (h : Inv c b s) (habs : abs s = u.forget) :
    pendingBytes s = bytes (u.pending.getD []) := by
  have hpend : s.pending.head?.map (frameAt s.heap) = u.pending.map contentOf :=
    congrArg Plain.pending habs
  rcases h.pending_cases with hp | ⟨p, hp⟩
  · rw [hp, List.head?_nil, Option.map_none, eq_comm, Option.map_eq_none_iff] at hpend
    rw [pendingBytes, hp, hpend]
    rfl
  · rw [hp, List.head?_cons, Option.map_some, eq_comm, Option.map_eq_some_iff] at hpend
    obtain ⟨l, hl, hcontent⟩ := hpend
    rw [pendingBytes, hp, hl, List.flatMap_singleton, ← hcontent]
    rfl

/-- What is held has the bytes the queue has. -/
lemma bytes_held (h : Inv c b s) (habs : abs s = u.forget) :
    queuedBytes s ++ pendingBytes s = bytes u.held := by
  have hfifo : s.encodedFrameQueue.map (frameAt s.heap) = u.fifo.map contentOf :=
    congrArg Plain.fifo habs
  have hqueued : queuedBytes s = bytes u.fifo.flatten := by
    calc queuedBytes s = (s.encodedFrameQueue.map (frameAt s.heap)).flatMap Prod.snd := by
          rw [queuedBytes, List.flatMap_map]
      _ = (u.fifo.map contentOf).flatMap Prod.snd := by rw [hfifo]
      _ = bytes u.fifo.flatten := by
          rw [List.flatMap_map, bytes, List.flatten_eq_flatMap, List.flatMap_assoc]
          rfl
  rw [hqueued, pendingBytes_eq h habs, Ledger.held, bytes_append]

/-- A fragment that is skipped has no bytes. -/
lemma bytes_filter (l : List Fragment) (p : Fragment → Prop) [DecidablePred p] :
    bytes (l.filter fun f => ¬ Skipped f.header ∧ p f) = bytes (l.filter fun f => p f) := by
  induction l with
  | nil => rfl
  | cons f l ih =>
    have hcons : ∀ l' : List Fragment, bytes (f :: l') = f.header.payload ++ bytes l' :=
      fun l' => List.flatMap_cons
    by_cases hp : p f
    · by_cases hz : Skipped f.header
      · have hnil : f.header.payload = [] := by
          rw [← List.length_eq_zero_iff, BufferHeader.length_payload]
          exact hz.1
        rw [List.filter_cons_of_neg (by simp [hz]), List.filter_cons_of_pos (by simpa using hp),
          hcons, hnil, ih, List.nil_append]
      · rw [List.filter_cons_of_pos (by simp only [hz, hp]; rfl),
          List.filter_cons_of_pos (by simpa using hp), hcons, hcons, ih]
    · rw [List.filter_cons_of_neg (by simp [hp]), List.filter_cons_of_neg (by simpa using hp), ih]

lemma acceptedHeaders_cons (call : Call) (r : Result) (calls : List Call) (os : List Result) :
    acceptedHeaders (call :: calls) (r :: os) =
      acceptedHeaders [call] [r] ++ acceptedHeaders calls os := by
  unfold acceptedHeaders
  rw [← List.filterMap_append]
  rfl

lemma acceptedHeaders_writes {x : BufferHeader} {e : Entry} (h : Writes b u x e v) :
    acceptedHeaders [.writeBack (some x)] [e.result] = (acceptedOf [e]).map Fragment.header := by
  cases h <;> rfl

/-- The fragments of the books are those the code has accepted. -/
theorem acceptedHeaders_map (h : run (Ledger.step b) u calls = .ok (ts, v)) :
    acceptedHeaders calls (ts.map Entry.result) = (acceptedOf ts).map Fragment.header := by
  induction calls generalizing u ts with
  | nil =>
    simp only [run_nil, Except.ok.injEq, Prod.mk.injEq] at h
    rw [← h.1]
    rfl
  | cons call calls ih =>
    obtain ⟨e, u', ts', hs, hrun, rfl⟩ := run_cons_eq_ok.1 h
    have hone : acceptedHeaders [call] [e.result] = (acceptedOf [e]).map Fragment.header := by
      cases call with
      | writeBack o =>
        obtain ⟨rfl, rfl⟩ := Prod.mk.inj (Except.ok.inj hs)
        rcases o with _ | x
        · rfl
        · exact acceptedHeaders_writes (writes_writeBack b u x)
      | readFront =>
        have hread : u.readFront = (e, u') := Except.ok.inj hs
        rcases readFront_cases u with ⟨-, heq⟩ | ⟨l, rest, -, heq⟩
        · obtain ⟨rfl, -⟩ := Prod.mk.inj (heq.symm.trans hread)
          rfl
        · obtain ⟨rfl, -⟩ := Prod.mk.inj (heq.symm.trans hread)
          rfl
      | clear | size =>
        obtain ⟨rfl, -⟩ := Prod.mk.inj (Except.ok.inj hs)
        rfl
    calc acceptedHeaders (call :: calls) ((e :: ts').map Entry.result)
        = acceptedHeaders [call] [e.result] ++ acceptedHeaders calls (ts'.map Entry.result) :=
          acceptedHeaders_cons ..
      _ = (acceptedOf [e] ++ acceptedOf ts').map Fragment.header := by
          rw [hone, ih hrun, List.map_append]
      _ = (acceptedOf (e :: ts')).map Fragment.header := by
          rw [← acceptedOf_append]
          rfl

/-- **Conservation of the bytes.** While every frame starts with fewer than `c` frames queued, the
bytes delivered, queued and pending are those of the fragments for which `write_back` returned `true`,
in the order in which they were written, but for those of the pending frames that were discarded. -/
theorem bytes_conserved (hw : pf.NoWrap b) (hclear : .clear ∉ calls)
    (hk : Along (step pf) (KeepsUp c) (initialised pf c b) calls) :
    ∃ os s ts u, run (step pf) (initialised pf c b) calls = .ok (os, s) ∧
      run (Ledger.step b) .empty calls = .ok (ts, u) ∧ os = ts.map Entry.result ∧
      (acceptedOf ts).map Fragment.header = acceptedHeaders calls os ∧
      deliveredBytes os ++ queuedBytes s ++ pendingBytes s =
        bytes ((acceptedOf ts).filter fun f => f ∉ discardedOf ts) := by
  have hcan : Along (step pf) CanServe (initialised pf c b) calls :=
    along_mono (inv_step pf c b) (fun _ _ h hs => canServe_of_keepsUp h hs) (inv_initialised pf c b) hk
  obtain ⟨os, s, ts, u, hrun, hledger, rfl, habs, hinv⟩ :=
    run_ledger (u := .empty) hw (inv_initialised pf c b) (abs_initialised pf c b) hcan
  refine ⟨_, s, ts, u, hrun, hledger, rfl, (acceptedHeaders_map hledger).symm, ?_⟩
  rw [List.append_assoc, bytes_held hinv habs, deliveredBytes_map, ← bytes_append,
    ← (balanced_run hclear hledger).balance, bytes_filter]

end Bytes

/-- A configuration fragment, one byte too many, and a frame that is read. -/
def overflowing : List Call :=
  [.writeBack (some (fragment 32 1)), .writeBack (some (fragment 4 2)),
    .writeBack (some (wholeFrame 3)), .readFront]

theorem bytes_conserved_overflowing :
    ∃ os s ts u, run (step (Platform.ideal fun _ _ => 0))
        (initialised (Platform.ideal fun _ _ => 0) 1 1) overflowing = .ok (os, s) ∧
      run (Ledger.step 1) .empty overflowing = .ok (ts, u) ∧ os = ts.map Entry.result ∧
      (acceptedOf ts).map Fragment.header = acceptedHeaders overflowing os ∧
      deliveredBytes os ++ queuedBytes s ++ pendingBytes s =
        bytes ((acceptedOf ts).filter fun f => f ∉ discardedOf ts) := by
  refine bytes_conserved (Or.inl rfl) (by simp [overflowing]) ?_
  refine along_cons_ok rfl (fun _ _ _ => by decide) ?_
  refine along_cons_ok rfl (fun _ _ _ => by decide) ?_
  refine along_cons_ok rfl (fun _ _ _ => by decide) ?_
  exact along_cons_ok rfl (fun _ h _ => by simp at h) trivial

end RcControl.FrameQueue
