import RcControl.FrameQueue.Ledger

/-!
# Frames with holes

A fragment that is refused leaves a hole in its access unit, and the queue knows nothing of access
units: a fragment that is too large leaves what was stored before it, and after an overflow the next
fragment starts a new frame. A frame of the unit is then delivered all the same. `clean_iff` says when
no such frame is ever held, and `delivers_whole` that none is delivered then.
-/

namespace RcControl.FrameQueue

open Mmal Lib.Run

/-- The frame has bytes of an access unit. -/
def Brings (l : List Fragment) (unit : ℕ) : Prop := ∃ f ∈ l, f.header.length ≠ 0 ∧ f.unit = unit

/-- The frame has no bytes of an access unit of which a fragment was refused. -/
def Whole (u : Ledger) (l : List Fragment) : Prop := ∀ unit ∈ u.spoiled, ¬ Brings l unit

/-- The frame that is delivered is whole. -/
def DeliversWhole (u : Ledger) : Call → Prop
  | .readFront => ∀ l, u.fifo.head? = some l → Whole u l
  | _ => True

/-- The frames that are queued or pending. -/
def Ledger.frames (u : Ledger) : List (List Fragment) := u.fifo ++ u.pending.toList

/-- `write_back` has no room for the fragment. -/
def Refuses (b : ℕ) (u : Ledger) (x : BufferHeader) : Prop :=
  ¬ Skipped x ∧
    (b < x.length ∨ ∃ l, u.pending = some l ∧ b < (bytes l).length + x.length)

/-- A fragment for which there is no room finds no bytes of its unit, but in the pending frame that its
overflow discards; and a fragment with bytes for which there is room is of a unit that has lost none. -/
def DropsUnit (b : ℕ) (u : Ledger) : Call → Prop
  | .writeBack (some x) =>
    (Refuses b u x → (∀ l ∈ u.fifo, ¬ Brings l u.unit) ∧
      (b < x.length → ∀ l, u.pending = some l → ¬ Brings l u.unit)) ∧
    (¬ Refuses b u x → x.length ≠ 0 → u.unit ∉ u.spoiled)
  | _ => True

/-- The frames held are whole. -/
def Clean (u : Ledger) : Prop := ∀ l ∈ u.frames, Whole u l

/-- The frames held after the call are whole. -/
def StaysClean (b : ℕ) (u : Ledger) (call : Call) : Prop :=
  ∀ e v, Ledger.step b u call = .ok (e, v) → Clean v

/-! ### One call -/

section Step

variable {b : ℕ} {u v : Ledger} {x : BufferHeader} {l : List Fragment} {call : Call} {e : Entry}

lemma brings_concat {f : Fragment} {unit : ℕ} :
    Brings (l ++ [f]) unit ↔ Brings l unit ∨ f.header.length ≠ 0 ∧ f.unit = unit := by
  simp [Brings, or_and_right, exists_or]

lemma clean_iff_frames : Clean u ↔ (∀ l ∈ u.fifo, Whole u l) ∧ ∀ l, u.pending = some l → Whole u l := by
  simp [Clean, Ledger.frames, or_imp, forall_and]

/-- A fragment is refused: what is left must have no bytes of its unit. -/
lemma clean_spoil (h : Clean u) (p : Option (List Fragment))
    (hp : ∀ l, p = some l → u.pending = some l) :
    Clean { u.spoil x with pending := p } ↔
      (∀ l ∈ u.fifo, ¬ Brings l u.unit) ∧ ∀ l, p = some l → ¬ Brings l u.unit := by
  obtain ⟨hfifo, hpend⟩ := clean_iff_frames.1 h
  have hspoil : ∀ l, Whole { u.spoil x with pending := p } l ↔ ¬ Brings l u.unit ∧ Whole u l := by
    intro l
    simp [Whole, Ledger.spoil]
  rw [clean_iff_frames]
  simp only [hspoil]
  constructor
  · rintro ⟨h₁, h₂⟩
    exact ⟨fun l hl => (h₁ l hl).1, fun l hl => (h₂ l hl).1⟩
  · rintro ⟨h₁, h₂⟩
    exact ⟨fun l hl => ⟨h₁ l hl, hfifo l hl⟩, fun l hl => ⟨h₂ l hl, hpend l (hp l hl)⟩⟩

/-- A frame with one fragment more is whole if its unit is, and the fragment brings anything. -/
lemma whole_concat (h : Whole u l) :
    Whole u (l ++ [u.next x]) ↔ (x.length ≠ 0 → u.unit ∉ u.spoiled) := by
  constructor
  · intro hw hx hmem
    exact hw u.unit hmem (brings_concat.2 (Or.inr ⟨hx, rfl⟩))
  · intro hx unit hmem hb
    rcases brings_concat.1 hb with hb | ⟨hne, rfl⟩
    · exact h unit hmem hb
    · exact hx hne hmem

/-- A frame joins the queue. -/
lemma clean_queue (h : Clean u) (p : Option (List Fragment))
    (hp : ∀ l, p = some l → u.pending = some l) :
    Clean { u.count x with fifo := u.fifo ++ [l], pending := p } ↔ Whole u l := by
  obtain ⟨hfifo, hpend⟩ := clean_iff_frames.1 h
  rw [clean_iff_frames]
  constructor
  · rintro ⟨hall, -⟩
    exact hall l (by simp)
  · intro hl
    refine ⟨fun l' hl' => ?_, fun l' hl' => hpend l' (hp l' hl')⟩
    rcases List.mem_append.1 hl' with hl' | hl'
    · exact hfifo l' hl'
    · exact List.mem_singleton.1 hl' ▸ hl

/-- The pending frame is another. -/
lemma clean_pend (h : Clean u) : Clean { u.count x with pending := some l } ↔ Whole u l := by
  rw [clean_iff_frames]
  constructor
  · rintro ⟨-, hall⟩
    exact hall l rfl
  · intro hl
    exact ⟨(clean_iff_frames.1 h).1, fun l' hl' => Option.some.inj hl' ▸ hl⟩

lemma whole_nil : Whole u [] := by
  rintro unit - ⟨f, hf, -⟩
  exact absurd hf List.not_mem_nil

lemma not_refuses_of_fits (hl : x.length ≤ b) (hp : u.pending = some l)
    (hfits : (bytes l).length + x.length ≤ b) : ¬ Refuses b u x := by
  rintro ⟨-, hlt | ⟨l', hp', hover⟩⟩
  · exact absurd hlt (not_lt.2 hl)
  · obtain rfl : l = l' := Option.some.inj (hp.symm.trans hp')
    exact absurd hover (not_lt.2 hfits)

lemma not_refuses_of_none (hl : x.length ≤ b) (hp : u.pending = none) : ¬ Refuses b u x := by
  rintro ⟨-, hlt | ⟨l, hp', -⟩⟩
  · exact absurd hlt (not_lt.2 hl)
  · exact absurd (hp.symm.trans hp') (by simp)

/-- A fragment is accepted: the frame it gets into is whole if its unit is. -/
lemma clean_accept (hno : ¬ Refuses b u x) (hl : Whole u l)
    (hv : Clean v ↔ Whole u (l ++ [u.next x])) : DropsUnit b u (.writeBack (some x)) ↔ Clean v := by
  rw [hv, whole_concat hl]
  constructor
  · intro hd
    exact hd.2 hno
  · intro hd
    exact ⟨fun hr => absurd hr hno, fun _ => hd⟩

/-- **One fragment.** -/
theorem dropsUnit_writes (h : Clean u) (hw : Writes b u x e v) :
    DropsUnit b u (.writeBack (some x)) ↔ Clean v := by
  obtain ⟨hfifo, hpend⟩ := clean_iff_frames.1 h
  cases hw with
  | skips hz =>
    refine iff_of_true ⟨fun hr => absurd hz hr.1, fun _ hx => absurd hz.1 hx⟩ ?_
    exact h
  | tooLarge hz hl =>
    refine Iff.trans ?_ (clean_spoil h u.pending fun _ hp => hp).symm
    constructor
    · intro hd
      obtain ⟨h₁, h₂⟩ := hd.1 ⟨hz, Or.inl hl⟩
      exact ⟨h₁, h₂ hl⟩
    · rintro ⟨h₁, h₂⟩
      exact ⟨fun _ => ⟨h₁, fun _ => h₂⟩, fun hno => absurd ⟨hz, Or.inl hl⟩ hno⟩
  | overflows l hz hl hp hover =>
    have hr : Refuses b u x := ⟨hz, Or.inr ⟨l, hp, hover⟩⟩
    refine Iff.trans ?_ (clean_spoil h none fun _ hn => nomatch hn).symm
    constructor
    · intro hd
      exact ⟨(hd.1 hr).1, fun _ hn => nomatch hn⟩
    · rintro ⟨h₁, -⟩
      exact ⟨fun _ => ⟨h₁, fun hlt => absurd hlt (not_lt.2 hl)⟩, fun hno => absurd hr hno⟩
  | completes l hz hl hp hfits hend =>
    exact clean_accept (not_refuses_of_fits hl hp hfits) (hpend l hp)
      (clean_queue h none fun _ hn => nomatch hn)
  | «extends» l hz hl hp hfits hend =>
    exact clean_accept (not_refuses_of_fits hl hp hfits) (hpend l hp) (clean_pend h)
  | begins hz hl hp hconfig =>
    exact clean_accept (not_refuses_of_none hl hp) whole_nil (clean_pend h)
  | queues hz hl hp hconfig =>
    exact clean_accept (not_refuses_of_none hl hp) whole_nil (clean_queue h u.pending fun _ hn => hn)

/-- **One call keeps the frames whole exactly if it drops a unit as a whole.** -/
theorem dropsUnit_iff (h : Clean u) (call : Call) : DropsUnit b u call ↔ StaysClean b u call := by
  have hone : ∀ {e v}, Ledger.step b u call = .ok (e, v) → (DropsUnit b u call ↔ Clean v) →
      (DropsUnit b u call ↔ StaysClean b u call) := by
    intro e v hs hiff
    rw [hiff]
    constructor
    · intro hv e' v' hs'
      obtain ⟨-, rfl⟩ := Prod.mk.inj (Except.ok.inj (hs.symm.trans hs'))
      exact hv
    · intro hall
      exact hall e v hs
  obtain ⟨hfifo, hpend⟩ := clean_iff_frames.1 h
  cases call with
  | writeBack o =>
    rcases o with _ | x
    · exact hone rfl (iff_of_true trivial h)
    · exact hone (e := (u.writeBack b (some x)).1) (v := (u.writeBack b (some x)).2) rfl
        (dropsUnit_writes h (writes_writeBack b u x))
  | readFront =>
    rcases readFront_cases u with ⟨-, heq⟩ | ⟨l, rest, hq, heq⟩
    · exact hone (congrArg _ heq) (iff_of_true trivial h)
    · refine hone (congrArg _ heq) (iff_of_true trivial ?_)
      exact clean_iff_frames.2 ⟨fun l' hl' => hfifo l' (hq ▸ List.mem_cons_of_mem l hl'), hpend⟩
  | clear =>
    refine hone rfl (iff_of_true trivial ?_)
    exact clean_iff_frames.2 ⟨fun l hl => absurd hl List.not_mem_nil, hpend⟩
  | size => exact hone rfl (iff_of_true trivial h)

lemma deliversWhole_of_clean (h : Clean u) (call : Call) : DeliversWhole u call := by
  cases call with
  | readFront =>
    intro l hl
    exact (clean_iff_frames.1 h).1 l (List.mem_of_mem_head? hl)
  | _ => trivial

end Step

/-! ### Runs -/

section Run

variable {pf : Platform} {b c : ℕ} {u : Ledger} {s : FrameQueue} {calls : List Call}
  {os : List Result}

/-- The frames held in a run are whole exactly if each call drops a unit as a whole. -/
theorem clean_iff (h : Clean u) (calls : List Call) :
    Along (Ledger.step b) (DropsUnit b) u calls ↔ Along (Ledger.step b) (StaysClean b) u calls := by
  induction calls generalizing u with
  | nil => exact Iff.rfl
  | cons call calls ih =>
    constructor
    · rintro ⟨hd, hrest⟩
      have hstays := (dropsUnit_iff h call).1 hd
      exact ⟨hstays, fun e v hs => (ih (hstays e v hs)).1 (hrest e v hs)⟩
    · rintro ⟨hstays, hrest⟩
      exact ⟨(dropsUnit_iff h call).2 hstays, fun e v hs => (ih (hstays e v hs)).2 (hrest e v hs)⟩

lemma deliversWhole_run (h : Clean u) (hd : Along (Ledger.step b) (StaysClean b) u calls) :
    Along (Ledger.step b) DeliversWhole u calls := by
  induction calls generalizing u with
  | nil => trivial
  | cons call calls ih =>
    exact ⟨deliversWhole_of_clean h call, fun e v hs => ih (hd.1 e v hs) (hd.2 e v hs)⟩

lemma clean_empty : Clean .empty := fun _ hl => absurd hl List.not_mem_nil

/-- **No frame with a hole.** In a run of calls on an initialised queue, told as a ledger of its
fragments: no frame with bytes of a unit that has lost a fragment is ever held exactly if each call
drops a unit as a whole, and then none is delivered. -/
theorem delivers_whole (hw : pf.NoWrap b) (h : run (step pf) (initialised pf c b) calls = .ok (os, s)) :
    (∃ ts u, run (Ledger.step b) .empty calls = .ok (ts, u) ∧ os = ts.map Entry.result) ∧
    (Along (Ledger.step b) (DropsUnit b) .empty calls ↔
      Along (Ledger.step b) (StaysClean b) .empty calls) ∧
    (Along (Ledger.step b) (DropsUnit b) .empty calls →
      Along (Ledger.step b) DeliversWhole .empty calls) := by
  obtain ⟨ts, u, hledger, rfl, -⟩ :=
    ledger_of_run (u := .empty) hw.sizeT (inv_initialised pf c b) (abs_initialised pf c b) h
  refine ⟨⟨ts, u, hledger, rfl⟩, clean_iff clean_empty calls, fun hd => ?_⟩
  exact deliversWhole_run clean_empty ((clean_iff clean_empty calls).1 hd)

end Run

/-- The unit that overflows with its last fragment is dropped as a whole. -/
theorem delivers_whole_overflowing :
    ∃ os s, run (step (Platform.ideal fun _ _ => 0)) (initialised (Platform.ideal fun _ _ => 0) 1 1)
        overflowing = .ok (os, s) ∧
      (∃ ts u, run (Ledger.step 1) .empty overflowing = .ok (ts, u) ∧ os = ts.map Entry.result) ∧
      (Along (Ledger.step 1) (DropsUnit 1) .empty overflowing ↔
        Along (Ledger.step 1) (StaysClean 1) .empty overflowing) ∧
      (Along (Ledger.step 1) (DropsUnit 1) .empty overflowing →
        Along (Ledger.step 1) DeliversWhole .empty overflowing) := by
  have hw : (Platform.ideal fun _ _ => 0).NoWrap 1 := Or.inl rfl
  obtain ⟨os, s, h⟩ : ∃ os s, run (step (Platform.ideal fun _ _ => 0))
      (initialised (Platform.ideal fun _ _ => 0) 1 1) overflowing = .ok (os, s) := ⟨_, _, rfl⟩
  exact ⟨os, s, h, delivers_whole hw h⟩

/-- A unit of three fragments: the second overflows, and the third is a frame of its own. -/
def overflowInside : List Call :=
  [.writeBack (some (fragment 32 1)), .writeBack (some (fragment 0 2)),
    .writeBack (some (fragment 4 3)), .readFront]

/-- The last fragment is delivered without the other two. -/
theorem overflowInside_hole :
    ¬ ∀ (pf : Platform) (c b : ℕ) (calls : List Call) (os : List Result) (s : FrameQueue),
      pf.NoWrap b → run (step pf) (initialised pf c b) calls = .ok (os, s) →
      Along (Ledger.step b) DeliversWhole .empty calls := by
  intro hclaim
  have ha := hclaim (Platform.ideal fun _ _ => 0) 1 1 overflowInside _ _ (Or.inl rfl) rfl
  have hlast := (((ha.2 _ _ rfl).2 _ _ rfl).2 _ _ rfl).1
  have hwhole := hlast [⟨2, 0, fragment 4 3⟩] rfl
  exact hwhole 0 (by decide) ⟨_, List.mem_singleton_self _, by decide, rfl⟩

end RcControl.FrameQueue
