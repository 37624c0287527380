import RcControl.FrameQueue.Recycling

/-!
# The queue without its buffers

What `FrameQueue` is for, said of values: an unbounded FIFO of frames, a frame being its flags and
its bytes, and at most one frame under construction. `write_back`'s rules for refusing, starting,
extending, dropping and completing a frame are those of the code, applied to values.

`abs` reads the frames off the heap. As long as the reader keeps up, one call of the code is one call
of the plain queue with the same result (`step_refines`), and hence so is a run (`run_abs`): the
buffers cannot be seen from outside.
-/

namespace RcControl.FrameQueue

open Mmal Lib.Run

/-- The flags and the bytes of a frame. -/
abbrev Frame := Flags × List UInt8

def Frame.isConfig (f : Frame) : Bool := f.1.getLsbD kFrameFlagConfig
def Frame.isFrameEnd (f : Frame) : Bool := f.1.getLsbD kFrameFlagEnd

/-- The queue as values. -/
structure Plain where
  fifo : List Frame
  pending : Option Frame
  deriving DecidableEq

namespace Plain

def empty : Plain := ⟨[], none⟩

/-- `write_back` on values, with slots of `b` bytes. -/
def writeBack (b : ℕ) (u : Plain) : Option BufferHeader → Bool × Plain
  | none => (false, u)
  | some x =>
    if Skipped x then (true, u)
    else if b < x.length then (false, u)
    else
      match u.pending with
      | some f =>
        if b < f.2.length + x.length then (false, { u with pending := none })
        else
          let g : Frame := (Flags.ofHeader x, f.2 ++ x.payload)
          if g.isFrameEnd then (true, ⟨u.fifo ++ [g], none⟩) else (true, { u with pending := some g })
      | none =>
        let g : Frame := (Flags.ofHeader x, x.payload)
        if g.isConfig then (true, { u with pending := some g })
        else (true, { u with fifo := u.fifo ++ [g] })

def readFront (u : Plain) : Option Frame × Plain :=
  match u.fifo with
  | [] => (none, u)
  | f :: rest => (some f, { u with fifo := rest })

def clear (u : Plain) : Plain := { u with fifo := [] }

/-- One call. Nothing can go wrong. -/
def step (b : ℕ) (u : Plain) : Call → Except Empty (Result × Plain)
  | .writeBack x => .ok (.written (writeBack b u x).1, (writeBack b u x).2)
  | .readFront => .ok (.frame u.readFront.1, u.readFront.2)
  | .clear => .ok (.cleared, u.clear)
  | .size => .ok (.size u.fifo.length, u)

end Plain

/-! ### Reading the frames off the heap -/

/-- The frame a pointer stands for. -/
def frameAt (heap : Heap) (p : ℕ) : Frame :=
  match heap p with
  | none => (0, [])
  | some f => f.content

/-- The plain queue a `FrameQueue` stands for. -/
def abs (s : FrameQueue) : Plain where
  fifo := s.encodedFrameQueue.map (frameAt s.heap)
  pending := s.pending.head?.map (frameAt s.heap)

section Abs

variable {heap : Heap} {p : ℕ} {f : FrameBuffer} {l : List ℕ}

lemma frameAt_of_eq (h : heap p = some f) : frameAt heap p = f.content := by
  simp [frameAt, h]

@[simp] lemma frameAt_update_self : frameAt (Function.update heap p (some f)) p = f.content :=
  frameAt_of_eq (Function.update_self ..)

lemma map_frameAt_congr {heap' : Heap} (h : ∀ q ∈ l, heap' q = heap q) :
    l.map (frameAt heap') = l.map (frameAt heap) :=
  List.map_congr_left fun q hq => by simp only [frameAt, h q hq]

lemma map_frameAt_update (h : p ∉ l) :
    l.map (frameAt (Function.update heap p (some f))) = l.map (frameAt heap) :=
  map_frameAt_congr fun _ hq => Function.update_of_ne (by rintro rfl; exact h hq) ..

end Abs

/-- Two lengths up to `b` can be added without wrapping. -/
def Platform.NoWrap (pf : Platform) (b : ℕ) : Prop := pf.sizeMod = 0 ∨ 2 * b < pf.sizeMod

lemma Platform.NoWrap.add {pf : Platform} {b m n : ℕ} (h : pf.NoWrap b) (hm : m ≤ b) (hn : n ≤ b) :
    pf.add m n = m + n := by
  unfold Platform.add
  rcases h with h | h
  · rw [h, Nat.mod_zero]
  · exact Nat.mod_eq_of_lt (by omega)

/-- `b` is a `size_t`. -/
def Platform.SizeT (pf : Platform) (b : ℕ) : Prop := pf.sizeMod = 0 ∨ b < pf.sizeMod

lemma Platform.NoWrap.sizeT {pf : Platform} {b : ℕ} (h : pf.NoWrap b) : pf.SizeT b :=
  h.imp_right fun hlt => by omega

lemma Platform.SizeT.add {pf : Platform} {b m n : ℕ} (h : pf.SizeT b) (hsum : m + n ≤ b) :
    pf.add m n = m + n := by
  unfold Platform.add
  rcases h with h | h
  · rw [h, Nat.mod_zero]
  · exact Nat.mod_eq_of_lt (by omega)

/-! ### One call -/

section Step

variable {pf : Platform} {c b p : ℕ} {s : FrameQueue} {x : BufferHeader} {call : Call}

/-- The first half of `write_back`: a frame that starts. -/
theorem startFrame_refines (pf : Platform) (h : Inv c b s) (hcan : CanTake s) (hst : StartsFrame s x) :
    ∃ s', startFrame pf s x = .ok (true, s') ∧ Plain.writeBack b (abs s) (some x) = (true, abs s') := by
  have hx : x.length ≤ b := h.bufferSize ▸ hst.2.2.1
  obtain ⟨p, s₁, f, -, ht, hcont, -, hown, hstart⟩ := startFrame_ok pf h hcan hx
  refine ⟨_, hstart, ?_⟩
  have hp : s₁.pending = [] := ht.pending.trans hst.2.2.2
  -- the queued frames are where they were, and the new buffer is none of them
  have hnot : p ∉ s₁.encodedFrameQueue := fun hmem =>
    (List.nodup_cons.1 hown.nodup).1 (by simp [owned, hmem])
  have hfifo : s₁.encodedFrameQueue.map (frameAt (Function.update s₁.heap p (some f))) =
      (abs s).fifo := by
    rw [map_frameAt_update hnot, map_frameAt_congr fun q hq => ht.same q (by simp [owned, hq]),
      ht.encoded, abs]
  have hpend : (abs s).pending = none := by simp [abs, hst.2.2.2]
  have hconf : f.isConfig = Frame.isConfig (Flags.ofHeader x, x.payload) := by
    rw [Frame.isConfig, ← hcont]
    rfl
  simp only [Plain.writeBack]
  rw [if_neg hst.2.1, if_neg (not_lt.2 hx), hpend]
  simp only [← hconf, place]
  split
  · simp only [abs, hp, List.nil_append, List.head?_cons, Option.map_some, frameAt_update_self,
      hcont, hfifo]
  · simp only [abs, List.map_append, List.map_cons, List.map_nil, frameAt_update_self, hcont, hfifo,
      hp, List.head?_nil, Option.map_none, hst.2.2.2]

/-- The second half of `write_back`: a fragment for the pending frame. -/
theorem extendFrame_refines (hw : pf.NoWrap b) (h : Inv c b s) (hz : ¬ Skipped x)
    (hx : x.length ≤ b) (hp : s.pending = [p]) :
    ∃ r s', extendFrame pf s x p p = .ok (r, s') ∧
      Plain.writeBack b (abs s) (some x) = (r, abs s') := by
  obtain ⟨f, hf, hcap, hlen⟩ := h.owns.live p (by simp [owned, hp])
  have hadd : pf.add f.length x.length = f.length + x.length := hw.add hlen hx
  have hpend : (abs s).pending = some f.content := by simp [abs, hp, frameAt_of_eq hf]
  have hbytes : f.content.2.length = f.length := FrameBuffer.length_content (hlen.trans hcap.ge)
  have hnot : p ∉ s.encodedFrameQueue := by
    have hnd := h.owns.nodup
    rw [owned, hp] at hnd
    exact fun hmem => (List.nodup_cons.1 hnd).1 (by simp [hmem])
  simp only [Plain.writeBack, extendFrame, hf, hadd, h.bufferSize]
  rw [if_neg hz, if_neg (not_lt.2 hx), hpend]
  simp only [hbytes]
  by_cases hover : b < f.length + x.length
  · rw [if_pos hover, if_pos hover]
    exact ⟨false, _, rfl, rfl⟩
  · rw [if_neg hover, if_neg hover]
    obtain ⟨g, happ, hcont⟩ := FrameBuffer.append_ok (hlen.trans hcap.ge)
      (by rw [hcap]; exact not_lt.1 hover) hadd
    have hend : g.isFrameEnd = Frame.isFrameEnd (Flags.ofHeader x, f.content.2 ++ x.payload) := by
      rw [Frame.isFrameEnd, ← hcont]
      rfl
    simp only [happ, ← hend]
    split
    · refine ⟨true, _, rfl, ?_⟩
      simp only [abs, hp, List.dropLast_singleton, List.map_append, List.map_cons, List.map_nil,
        frameAt_update_self, hcont, map_frameAt_update hnot, List.head?_nil, Option.map_none]
    · refine ⟨true, _, rfl, ?_⟩
      simp only [abs, hp, List.head?_cons, Option.map_some, frameAt_update_self, hcont,
        map_frameAt_update hnot]

theorem writeBack_refines (hw : pf.NoWrap b) (h : Inv c b s) (o : Option BufferHeader)
    (hcan : ∀ x, o = some x → StartsFrame s x → CanTake s) :
    ∃ r s', writeBack pf s o = .ok (r, s') ∧ Plain.writeBack b (abs s) o = (r, abs s') := by
  rcases writeBack_shapes h o with rfl | ⟨x, rfl, hz | ⟨hz, hl⟩ | hst | ⟨hz, hl, p, hp⟩⟩
  · exact ⟨false, s, rfl, rfl⟩
  · refine ⟨true, s, writeBack_of_skipped h.inited hz, ?_⟩
    simp only [Plain.writeBack]
    rw [if_pos hz]
  · refine ⟨false, s, writeBack_of_large h.inited hz (h.bufferSize ▸ hl), ?_⟩
    simp only [Plain.writeBack]
    rw [if_neg hz, if_pos hl]
  · obtain ⟨s', hstart, habs⟩ := startFrame_refines pf h (hcan x rfl hst) hst
    exact ⟨true, s', (writeBack_of_starts hst).trans hstart, habs⟩
  · obtain ⟨r, s', hext, habs⟩ := extendFrame_refines hw h hz hl hp
    exact ⟨r, s', (writeBack_of_pending h.inited hz (h.bufferSize ▸ hl) hp).trans hext, habs⟩

/-- **One call of the code is one call of the plain queue**, if a buffer can be had. -/
theorem step_refines (hw : pf.NoWrap b) (h : Inv c b s) (hcan : CanServe s call) :
    ∃ o s', step pf s call = .ok (o, s') ∧ Plain.step b (abs s) call = .ok (o, abs s') := by
  cases call with
  | writeBack x =>
    obtain ⟨r, s', hs, ha⟩ := writeBack_refines hw h x fun y hy => hcan y (hy ▸ rfl)
    exact ⟨.written r, s', by simp only [step, hs], by simp only [Plain.step, ha]⟩
  | readFront =>
    rcases hq : s.encodedFrameQueue with _ | ⟨p, rest⟩
    · refine ⟨.frame none, s, by simp only [step, readFront_nil hq], ?_⟩
      simp only [Plain.step, Plain.readFront, abs, hq, List.map_nil]
    · obtain ⟨f, hf, -⟩ := h.owns.live p (by simp [owned, hq])
      refine ⟨.frame (some f.content), (readFront s).2, ?_, ?_⟩
      · simp only [step, readFront_eq p rest hq, hf]
      · simp only [Plain.step, Plain.readFront, abs, hq, List.map_cons, frameAt_of_eq hf,
          readFront_eq p rest hq]
  | clear => exact ⟨.cleared, s.clear, rfl, by simp only [Plain.step, Plain.clear, abs, clear, List.map_nil]⟩
  | size => exact ⟨.size s.size, s, rfl, by simp only [Plain.step, size, abs, List.length_map]⟩

end Step

/-! ### Runs -/

lemma abs_initialised (pf : Platform) (c b : ℕ) : abs (initialised pf c b) = Plain.empty := by
  obtain ⟨hp, hq⟩ := fillFreeList_containers pf c (construct true c b)
  unfold abs initialised
  rw [hp, hq]
  rfl

/-- A run of the code is a run of the plain queue, as long as a buffer can be had. -/
theorem run_abs {pf : Platform} {c b : ℕ} (hw : pf.NoWrap b) {s : FrameQueue} (h : Inv c b s)
    {calls : List Call} (hcan : Along (step pf) CanServe s calls) :
    ∃ os t, run (step pf) s calls = .ok (os, t) ∧
      run (Plain.step b) (abs s) calls = .ok (os, abs t) ∧ Inv c b t := by
  have hstep : ∀ s u call, (abs s = u ∧ Inv c b s) → CanServe s call →
      ∃ o s' u', step pf s call = .ok (o, s') ∧ Plain.step b u call = .ok (o, u') ∧
        (abs s' = u' ∧ Inv c b s') := by
    rintro s u call ⟨rfl, hs⟩ hg
    obtain ⟨o, s', hst, hplain⟩ := step_refines hw hs hg
    exact ⟨o, s', abs s', hst, hplain, rfl, inv_step pf c b s call o s' hs hst⟩
  obtain ⟨os, t, v, hr, hr', rfl, ht⟩ := run_refines hstep ⟨rfl, h⟩ hcan
  exact ⟨os, t, hr, hr', ht⟩

/-- **The buffers are invisible**: run on an initialised queue by a reader that keeps up, the calls
return what they return on an empty plain queue, on every machine whose `size_t` can add the lengths
of two slots. -/
theorem refines_plain {pf : Platform} {c b : ℕ} (hw : pf.NoWrap b) {calls : List Call}
    (hk : Along (step pf) (KeepsUp c) (initialised pf c b) calls) :
    ∃ os s, run (step pf) (initialised pf c b) calls = .ok (os, s) ∧
      run (Plain.step b) Plain.empty calls = .ok (os, abs s) := by
  have h0 := inv_initialised pf c b
  have hcan : Along (step pf) CanServe (initialised pf c b) calls :=
    along_mono (inv_step pf c b) (fun _ _ h hs => canServe_of_keepsUp h hs) h0 hk
  obtain ⟨os, t, hr, hr', -⟩ := run_abs hw h0 hcan
  rw [abs_initialised] at hr'
  exact ⟨os, t, hr, hr'⟩

/-- A machine with a `size_t` that does not wrap. -/
abbrev Platform.ideal (malloc : ℕ → ℕ → UInt8) : Platform := ⟨0, malloc⟩

/-! ### Sums that wrap -/

section Wrap

variable {pf : Platform} {c b : ℕ} {s t : FrameQueue} {calls : List Call} {os : List Result}

/-- Where the sum does not wrap, it is that of the lengths. -/
lemma extendFrame_ideal {p : ℕ} {f : FrameBuffer} {x : BufferHeader} (hf : s.heap p = some f)
    (hadd : pf.add f.length x.length = f.length + x.length) :
    extendFrame (Platform.ideal pf.malloc) s x p p = extendFrame pf s x p p := by
  have hideal : (Platform.ideal pf.malloc).add f.length x.length = f.length + x.length :=
    Nat.mod_zero _
  simp only [extendFrame, FrameBuffer.append, hf, hideal, hadd]

lemma writeBack_ideal {o : Option BufferHeader} (h : Inv c b s)
    (hext : ∀ x p f, o = some x → ¬ Skipped x → x.length ≤ b → s.pending = [p] → s.heap p = some f →
      extendFrame (Platform.ideal pf.malloc) s x p p = extendFrame pf s x p p) :
    writeBack (Platform.ideal pf.malloc) s o = writeBack pf s o := by
  rcases writeBack_shapes h o with rfl | ⟨x, rfl, hz | ⟨hz, hl⟩ | hst | ⟨hz, hl, p, hp⟩⟩
  · rfl
  · rw [writeBack_of_skipped h.inited hz, writeBack_of_skipped h.inited hz]
  · rw [writeBack_of_large h.inited hz (h.bufferSize ▸ hl),
      writeBack_of_large h.inited hz (h.bufferSize ▸ hl)]
  · rw [writeBack_of_starts hst, writeBack_of_starts hst]
    rfl
  · obtain ⟨f, hf, -⟩ := h.owns.live p (by simp [owned, hp])
    rw [writeBack_of_pending h.inited hz (h.bufferSize ▸ hl) hp,
      writeBack_of_pending h.inited hz (h.bufferSize ▸ hl) hp]
    exact hext x p f rfl hz hl hp hf

/-- An `extendFrame` that returns has not wrapped: it would have written past the end of the block. -/
lemma extendFrame_ideal_of_ok {p : ℕ} {f : FrameBuffer} {x : BufferHeader} {r : Bool}
    (hb : pf.SizeT b) (hcap : f.capacity = b) (hsize : s.bufferSize = b) (hf : s.heap p = some f)
    (hp : s.pending = [p]) (hs : extendFrame pf s x p p = .ok (r, t)) :
    extendFrame (Platform.ideal pf.malloc) s x p p = extendFrame pf s x p p := by
  by_cases hover : b < f.length + x.length
  · have hideal : (Platform.ideal pf.malloc).add f.length x.length = f.length + x.length :=
      Nat.mod_zero _
    have hsum : s.bufferSize < pf.add f.length x.length := by
      rcases extendFrame_cases hf hp hs with ⟨hlt, -⟩ | ⟨-, f', happ, -⟩
      · exact hlt
      · have hfits := FrameBuffer.append_fits happ
        omega
    simp only [extendFrame, hf, hideal]
    rw [if_pos (hsize ▸ hover), if_pos hsum]
  · exact extendFrame_ideal hf (hb.add (not_lt.1 hover))

/-- A step that returns has not wrapped. -/
lemma step_ideal (hb : pf.SizeT b) (h : Inv c b s) {call : Call} {o : Result}
    (hs : step pf s call = .ok (o, t)) : step (Platform.ideal pf.malloc) s call = .ok (o, t) := by
  cases call with
  | writeBack m =>
    have hwrite : writeBack (Platform.ideal pf.malloc) s m = writeBack pf s m := by
      refine writeBack_ideal h fun x p f hm hz hl hp hf => ?_
      obtain ⟨f', hf', hcap, -⟩ := h.owns.live p (by simp [owned, hp])
      obtain rfl : f' = f := Option.some.inj (hf'.symm.trans hf)
      rw [hm, step, writeBack_of_pending h.inited hz (h.bufferSize ▸ hl) hp] at hs
      rcases hext : extendFrame pf s x p p with g | ⟨r, s'⟩
      · simp [hext] at hs
      · exact hext ▸ extendFrame_ideal_of_ok hb hcap h.bufferSize hf hp hext
    simp only [step, hwrite] at hs ⊢
    exact hs
  | readFront | clear | size => exact hs

/-- The run of a machine with wrapping sums, if it returns, is that of one without. -/
theorem run_ideal (hb : pf.SizeT b) (h : Inv c b s) (hrun : run (step pf) s calls = .ok (os, t)) :
    run (step (Platform.ideal pf.malloc)) s calls = .ok (os, t) := by
  induction calls generalizing s os with
  | nil => exact hrun
  | cons call calls ih =>
    obtain ⟨o, s', os', hs, hrest, rfl⟩ := run_cons_eq_ok.1 hrun
    exact run_cons_ok (step_ideal hb h hs) (ih (inv_step pf c b s call o s' h hs) hrest)

end Wrap

/-- **The pool is invisible**, for every number and size of slots, with lengths that do not wrap. -/
theorem pool_invisible (malloc : ℕ → ℕ → UInt8) (c b : ℕ) (calls : List Call)
    (hk : Along (step (Platform.ideal malloc)) (KeepsUp c) (initialised (Platform.ideal malloc) c b)
      calls) :
    ∃ os s, run (step (Platform.ideal malloc)) (initialised (Platform.ideal malloc) c b) calls =
        .ok (os, s) ∧
      run (Plain.step b) Plain.empty calls = .ok (os, abs s) :=
  refines_plain (Or.inl rfl) hk

/-- One slot, read after each write. -/
theorem pool_invisible_oneSlot :
    ∃ os s, run (step (Platform.ideal fun _ _ => 0)) (initialised (Platform.ideal fun _ _ => 0) 1 4)
        [.writeBack (some (wholeFrame 1)), .readFront, .writeBack (some (wholeFrame 2))] =
        .ok (os, s) ∧
      run (Plain.step 4) Plain.empty
        [.writeBack (some (wholeFrame 1)), .readFront, .writeBack (some (wholeFrame 2))] =
        .ok (os, abs s) := by
  refine pool_invisible _ 1 4 _ ?_
  refine along_cons_ok rfl (fun _ _ _ => by decide) ?_
  refine along_cons_ok rfl (fun _ h _ => by simp at h) ?_
  exact along_cons_ok rfl (fun _ _ _ => by decide) trivial

end RcControl.FrameQueue
