import RcControl.FrameQueue.Plain
import Mathlib.Data.List.Forall2

/-!
# Reassembling access units

The encoder hands out an access unit in fragments: parameter sets flagged `CONFIG`, if there are
any, then the fragments of the picture. A unit that begins with a `CONFIG` fragment is held back as
the pending frame until `FRAME_END` and comes out whole. A unit that does not is never held back:
the branch of `write_back` that starts a frame looks at `CONFIG` only, so each of its fragments is
queued as a frame of its own. `reassembles_iff` is what follows, for every sequence of units and
every reader that keeps up.

The plain queue does the work: reads only move frames from the queue to the reader
(`run_schedule`), so what comes out is what writing alone would queue (`writes`).
-/

namespace RcControl.FrameQueue

open Mmal Lib.Run

/-- An access unit in fragments, of at most `b` bytes. -/
structure AccessUnit (b : ℕ) where
  config : List BufferHeader
  picture : List BufferHeader
  config_flag : ∀ x ∈ config, x.flags.getLsbD kFrameFlagConfig = true
  picture_flag : ∀ x ∈ picture, x.flags.getLsbD kFrameFlagConfig = false
  picture_ne : picture ≠ []
  start_head : (picture.head picture_ne).flags.getLsbD kFrameFlagStart = true
  end_last : (picture.getLast picture_ne).flags.getLsbD kFrameFlagEnd = true
  end_only : ∀ x ∈ config ++ picture.dropLast, x.flags.getLsbD kFrameFlagEnd = false
  length_le : ((config ++ picture).flatMap BufferHeader.payload).length ≤ b

namespace AccessUnit

variable {b : ℕ}

def fragments (u : AccessUnit b) : List BufferHeader := u.config ++ u.picture

def payload (u : AccessUnit b) : List UInt8 := u.fragments.flatMap BufferHeader.payload

/-- The units `write_back` keeps in one piece. -/
def KeptWhole (u : AccessUnit b) : Prop := u.config ≠ [] ∨ u.picture.length = 1

/-- `f` is the unit: all its bytes, and its end. -/
def IsFrame (u : AccessUnit b) (f : Frame) : Prop := f.2 = u.payload ∧ f.isFrameEnd = true

end AccessUnit

/-- `calls` writes the fragments `xs` in order, and reads in between. -/
inductive Schedule : List BufferHeader → List Call → Prop
  | done : Schedule [] []
  | write {xs calls} (x : BufferHeader) :
      Schedule xs calls → Schedule (x :: xs) (.writeBack (some x) :: calls)
  | read {xs calls} : Schedule xs calls → Schedule xs (.readFront :: calls)

/-- The frames among the results. -/
def delivered (os : List Result) : List Frame :=
  os.filterMap fun
    | .frame f => f
    | _ => none

/-- What the reader has been given and what is left for it in the queue are one frame for each unit,
in order, each the whole of its unit. -/
def Reassembles (pf : Platform) (c b : ℕ) (units : List (AccessUnit b)) (calls : List Call) : Prop :=
  ∃ os s, run (step pf) (initialised pf c b) calls = .ok (os, s) ∧
    List.Forall₂ AccessUnit.IsFrame units (delivered os ++ (abs s).fifo)

/-! ### Writing fragments to the plain queue -/

section Writes

variable {b : ℕ} {q q' : List Frame} {p : Option Frame} {f : Frame} {x : BufferHeader}
  {xs : List BufferHeader}

/-- The plain queue after the fragments `xs`. -/
def writes (b : ℕ) (u : Plain) (xs : List BufferHeader) : Plain :=
  xs.foldl (fun u x => (Plain.writeBack b u (some x)).2) u

lemma writes_cons (u : Plain) (x : BufferHeader) (xs : List BufferHeader) :
    writes b u (x :: xs) = writes b (Plain.writeBack b u (some x)).2 xs := rfl

lemma writes_append (u : Plain) (xs ys : List BufferHeader) :
    writes b u (xs ++ ys) = writes b (writes b u xs) ys := List.foldl_append ..

lemma isConfig_ofHeader (x : BufferHeader) (d : List UInt8) :
    Frame.isConfig (Flags.ofHeader x, d) = x.flags.getLsbD kFrameFlagConfig := by
  simp [Frame.isConfig, Flags.ofHeader, kFrameFlagConfig]

lemma isFrameEnd_ofHeader (x : BufferHeader) (d : List UInt8) :
    Frame.isFrameEnd (Flags.ofHeader x, d) = x.flags.getLsbD kFrameFlagEnd := by
  simp [Frame.isFrameEnd, Flags.ofHeader, kFrameFlagEnd]

lemma not_skipped_of_flag {i : ℕ} (h : x.flags.getLsbD i = true) : ¬ Skipped x := by
  rintro ⟨-, hf⟩
  rw [hf] at h
  simp at h

lemma payload_of_skipped (h : Skipped x) : x.payload = [] := by
  rw [← List.length_eq_zero_iff, BufferHeader.length_payload]
  exact h.1

lemma writeBack_skipped (u : Plain) (h : Skipped x) : (Plain.writeBack b u (some x)).2 = u := by
  simp only [Plain.writeBack]
  rw [if_pos h]

lemma writeBack_config (h : x.flags.getLsbD kFrameFlagConfig = true) (hx : x.length ≤ b) :
    (Plain.writeBack b ⟨q, none⟩ (some x)).2 = ⟨q, some (Flags.ofHeader x, x.payload)⟩ := by
  simp only [Plain.writeBack, isConfig_ofHeader, h]
  rw [if_neg (not_skipped_of_flag h), if_neg (not_lt.2 hx)]
  rfl

lemma writeBack_plain (hz : ¬ Skipped x) (h : x.flags.getLsbD kFrameFlagConfig = false)
    (hx : x.length ≤ b) :
    (Plain.writeBack b ⟨q, none⟩ (some x)).2 = ⟨q ++ [(Flags.ofHeader x, x.payload)], none⟩ := by
  simp only [Plain.writeBack, isConfig_ofHeader, h]
  rw [if_neg hz, if_neg (not_lt.2 hx)]
  rfl

lemma writeBack_extend (hz : ¬ Skipped x) (h : x.flags.getLsbD kFrameFlagEnd = false)
    (hx : f.2.length + x.length ≤ b) :
    (Plain.writeBack b ⟨q, some f⟩ (some x)).2 =
      ⟨q, some (Flags.ofHeader x, f.2 ++ x.payload)⟩ := by
  simp only [Plain.writeBack, isFrameEnd_ofHeader, h]
  rw [if_neg hz, if_neg (by omega), if_neg (not_lt.2 hx)]
  rfl

lemma writeBack_complete (h : x.flags.getLsbD kFrameFlagEnd = true)
    (hx : f.2.length + x.length ≤ b) :
    (Plain.writeBack b ⟨q, some f⟩ (some x)).2 =
      ⟨q ++ [(Flags.ofHeader x, f.2 ++ x.payload)], none⟩ := by
  simp only [Plain.writeBack, isFrameEnd_ofHeader, h]
  rw [if_neg (not_skipped_of_flag h), if_neg (by omega), if_neg (not_lt.2 hx)]
  rfl

/-- Frames already queued take no part in a write. -/
lemma writeBack_front (q q' : List Frame) (p : Option Frame) (x : BufferHeader) :
    (Plain.writeBack b ⟨q ++ q', p⟩ (some x)).2 =
      ⟨q ++ (Plain.writeBack b ⟨q', p⟩ (some x)).2.fifo,
        (Plain.writeBack b ⟨q', p⟩ (some x)).2.pending⟩ := by
  rcases p with _ | f
  · simp only [Plain.writeBack]
    split_ifs <;> simp only [List.append_assoc]
  · simp only [Plain.writeBack]
    split_ifs <;> simp only [List.append_assoc]

lemma writes_front (q q' : List Frame) (p : Option Frame) (xs : List BufferHeader) :
    writes b ⟨q ++ q', p⟩ xs =
      ⟨q ++ (writes b ⟨q', p⟩ xs).fifo, (writes b ⟨q', p⟩ xs).pending⟩ := by
  induction xs generalizing q' p with
  | nil => rfl
  | cons x xs ih => rw [writes_cons, writes_cons, writeBack_front, ih]

end Writes

/-! ### One unit -/

section Unit

variable {b : ℕ} {q : List Frame} {f : Frame} {x : BufferHeader} {xs : List BufferHeader}

/-- Fragments without `FRAME_END` are gathered in the pending frame. -/
theorem writes_extend (hend : ∀ x ∈ xs, x.flags.getLsbD kFrameFlagEnd = false)
    (hlen : f.2.length + (xs.flatMap BufferHeader.payload).length ≤ b) :
    ∃ g : Frame, writes b ⟨q, some f⟩ xs = ⟨q, some g⟩ ∧
      g.2 = f.2 ++ xs.flatMap BufferHeader.payload := by
  induction xs generalizing f with
  | nil => exact ⟨f, rfl, by simp⟩
  | cons x xs ih =>
    have hrest : ∀ y ∈ xs, y.flags.getLsbD kFrameFlagEnd = false := fun y hy =>
      hend y (List.mem_cons_of_mem x hy)
    rw [List.flatMap_cons, List.length_append, BufferHeader.length_payload] at hlen
    by_cases hz : Skipped x
    · obtain ⟨g, hg, hbytes⟩ := ih hrest (f := f) (by omega)
      refine ⟨g, ?_, ?_⟩
      · rw [writes_cons, writeBack_skipped _ hz, hg]
      · rw [hbytes, List.flatMap_cons, payload_of_skipped hz, List.nil_append]
    · obtain ⟨g, hg, hbytes⟩ := ih hrest (f := (Flags.ofHeader x, f.2 ++ x.payload))
        (by simp only [List.length_append, BufferHeader.length_payload]; omega)
      refine ⟨g, ?_, ?_⟩
      · rw [writes_cons, writeBack_extend hz (hend x List.mem_cons_self) (by omega), hg]
      · rw [hbytes, List.flatMap_cons, List.append_assoc]

/-- With no frame pending, fragments of a picture are frames. -/
theorem writes_plain (hcfg : ∀ x ∈ xs, x.flags.getLsbD kFrameFlagConfig = false)
    (hlen : ∀ x ∈ xs, x.length ≤ b) :
    writes b ⟨q, none⟩ xs =
      ⟨q ++ (xs.filter fun x => !decide (Skipped x)).map fun x => (Flags.ofHeader x, x.payload), none⟩ := by
  induction xs generalizing q with
  | nil => simp [writes]
  | cons x xs ih =>
    have ih := fun q => ih (q := q) (fun y hy => hcfg y (List.mem_cons_of_mem x hy))
      fun y hy => hlen y (List.mem_cons_of_mem x hy)
    rw [writes_cons]
    by_cases hz : Skipped x
    · rw [writeBack_skipped _ hz, ih, List.filter_cons_of_neg (by rw [decide_eq_true hz]; decide)]
    · rw [writeBack_plain hz (hcfg x List.mem_cons_self) (hlen x List.mem_cons_self), ih,
        List.filter_cons_of_pos (by rw [decide_eq_false hz]; decide), List.map_cons,
        List.append_assoc, List.singleton_append]

namespace AccessUnit

variable (u : AccessUnit b)

lemma picture_eq : u.picture = u.picture.dropLast ++ [u.picture.getLast u.picture_ne] :=
  (List.dropLast_append_getLast u.picture_ne).symm

lemma length_le_of_mem (hx : x ∈ u.fragments) : x.length ≤ b := by
  obtain ⟨l, r, hsplit⟩ := List.append_of_mem hx
  have hlen := u.length_le
  rw [show u.config ++ u.picture = u.fragments from rfl, hsplit, List.flatMap_append,
    List.flatMap_cons, List.length_append, List.length_append, BufferHeader.length_payload] at hlen
  omega

/-- A unit that begins with parameter sets is queued as one frame. -/
theorem writes_config (h : u.config ≠ []) (q : List Frame) :
    ∃ f, writes b ⟨q, none⟩ u.fragments = ⟨q ++ [f], none⟩ ∧ u.IsFrame f := by
  obtain ⟨x, rest, hcons⟩ := List.exists_cons_of_ne_nil h
  have hmem : x ∈ u.config := hcons ▸ List.mem_cons_self
  -- after the first fragment, everything up to the last one is gathered
  have hfrag : u.fragments =
      x :: ((rest ++ u.picture.dropLast) ++ [u.picture.getLast u.picture_ne]) := by
    rw [fragments, hcons, List.append_assoc, ← picture_eq]
    rfl
  have hsum : x.length + ((rest ++ u.picture.dropLast).flatMap BufferHeader.payload).length +
      (u.picture.getLast u.picture_ne).length ≤ b := by
    have hlen := u.length_le
    rw [show u.config ++ u.picture = u.fragments from rfl, hfrag, List.flatMap_cons,
      List.flatMap_append, List.flatMap_singleton, List.length_append, List.length_append,
      BufferHeader.length_payload, BufferHeader.length_payload] at hlen
    omega
  have hend : ∀ y ∈ rest ++ u.picture.dropLast, y.flags.getLsbD kFrameFlagEnd = false := by
    intro y hy
    refine u.end_only y ?_
    rw [hcons]
    exact List.mem_cons_of_mem x hy
  obtain ⟨g, hg, hbytes⟩ := writes_extend (b := b) (q := q) (f := (Flags.ofHeader x, x.payload)) hend
    (by simp only [BufferHeader.length_payload]; omega)
  have hglen : g.2.length + (u.picture.getLast u.picture_ne).length ≤ b := by
    rw [hbytes, List.length_append, BufferHeader.length_payload]
    exact hsum
  refine ⟨(Flags.ofHeader (u.picture.getLast u.picture_ne),
    g.2 ++ (u.picture.getLast u.picture_ne).payload), ?_, ?_, ?_⟩
  · rw [hfrag, writes_cons, writeBack_config (u.config_flag x hmem) (by omega), writes_append, hg,
      writes_cons, writeBack_complete u.end_last hglen]
    rfl
  · rw [payload, hfrag, hbytes]
    simp
  · rw [isFrameEnd_ofHeader]
    exact u.end_last

lemma writes_picture (h : u.config = []) (q : List Frame) :
    writes b ⟨q, none⟩ u.fragments =
      ⟨q ++ (u.picture.filter fun x => !decide (Skipped x)).map
        fun x => (Flags.ofHeader x, x.payload), none⟩ := by
  have hfrag : u.fragments = u.picture := by rw [fragments, h, List.nil_append]
  rw [hfrag]
  exact writes_plain u.picture_flag fun x hx => u.length_le_of_mem (hfrag ▸ hx)

/-- A unit of one fragment is queued as one frame. -/
theorem writes_single (h : u.config = []) (hone : u.picture.length = 1) (q : List Frame) :
    ∃ f, writes b ⟨q, none⟩ u.fragments = ⟨q ++ [f], none⟩ ∧ u.IsFrame f := by
  obtain ⟨x, hx⟩ := List.length_eq_one_iff.1 hone
  have hlast : u.picture.getLast u.picture_ne = x := by simp only [hx, List.getLast_singleton]
  have hend : x.flags.getLsbD kFrameFlagEnd = true := hlast ▸ u.end_last
  refine ⟨(Flags.ofHeader x, x.payload), ?_, ?_, ?_⟩
  · rw [writes_picture u h, hx, List.filter_cons_of_pos
      (by rw [decide_eq_false (not_skipped_of_flag hend)]; decide)]
    rfl
  · rw [payload, fragments, h, hx]
    simp
  · rw [isFrameEnd_ofHeader]
    exact hend

/-- A unit of several fragments, none of them a parameter set, comes out in pieces: its first and
its last fragment are two frames. -/
theorem writes_pieces (h : ¬ u.KeptWhole) (q : List Frame) :
    ∃ fs : List Frame, writes b ⟨q, none⟩ u.fragments = ⟨q ++ fs, none⟩ ∧ 2 ≤ fs.length := by
  rw [KeptWhole, not_or, not_not] at h
  refine ⟨_, writes_picture u h.1 q, ?_⟩
  rw [List.length_map]
  obtain ⟨x, rest, hcons⟩ := List.exists_cons_of_ne_nil u.picture_ne
  have hne : rest ≠ [] := by
    rintro rfl
    exact h.2 (by rw [hcons]; rfl)
  have hx : ¬ Skipped x := by
    refine not_skipped_of_flag (i := kFrameFlagStart) ?_
    have := u.start_head
    simpa only [hcons, List.head_cons] using this
  have hy : ¬ Skipped (rest.getLast hne) := by
    refine not_skipped_of_flag (i := kFrameFlagEnd) ?_
    have := u.end_last
    simpa only [hcons, List.getLast_cons hne] using this
  rw [hcons, List.filter_cons_of_pos (by rw [decide_eq_false hx]; decide), List.length_cons]
  have hmem : rest.getLast hne ∈ rest.filter fun x => !decide (Skipped x) :=
    List.mem_filter.2 ⟨List.getLast_mem hne, by rw [decide_eq_false hy]; decide⟩
  have := List.length_pos_of_mem hmem
  omega

theorem writes_whole (h : u.KeptWhole) (q : List Frame) :
    ∃ f, writes b ⟨q, none⟩ u.fragments = ⟨q ++ [f], none⟩ ∧ u.IsFrame f := by
  by_cases hc : u.config = []
  · exact u.writes_single hc (h.resolve_left (not_not.2 hc)) q
  · exact u.writes_config hc q

end AccessUnit

end Unit

/-! ### All the units -/

section Units

variable {b : ℕ}

/-- Units kept whole are queued as one frame each. -/
theorem writes_units_whole (units : List (AccessUnit b)) (h : ∀ u ∈ units, u.KeptWhole)
    (q : List Frame) :
    ∃ fs, writes b ⟨q, none⟩ (units.flatMap AccessUnit.fragments) = ⟨q ++ fs, none⟩ ∧
      List.Forall₂ AccessUnit.IsFrame units fs := by
  induction units generalizing q with
  | nil => exact ⟨[], by simp [writes], .nil⟩
  | cons u units ih =>
    obtain ⟨f, hf, hu⟩ := u.writes_whole (h u List.mem_cons_self) q
    obtain ⟨fs, hfs, hrest⟩ := ih (fun v hv => h v (List.mem_cons_of_mem u hv)) (q ++ [f])
    refine ⟨f :: fs, ?_, .cons hu hrest⟩
    rw [List.flatMap_cons, writes_append, hf, hfs, List.append_assoc, List.singleton_append]

/-- There are never fewer frames than units, and as many only if each unit is kept whole. -/
theorem writes_units (units : List (AccessUnit b)) (q : List Frame) :
    ∃ fs, writes b ⟨q, none⟩ (units.flatMap AccessUnit.fragments) = ⟨q ++ fs, none⟩ ∧
      units.length ≤ fs.length ∧ (units.length = fs.length → ∀ u ∈ units, u.KeptWhole) := by
  induction units generalizing q with
  | nil => exact ⟨[], by simp [writes], le_refl _, fun _ _ hu => absurd hu List.not_mem_nil⟩
  | cons u units ih =>
    by_cases hw : u.KeptWhole
    · obtain ⟨f, hf, -⟩ := u.writes_whole hw q
      obtain ⟨fs, hfs, hle, hall⟩ := ih (q ++ [f])
      refine ⟨f :: fs, ?_, by simpa using hle, fun heq v hv => ?_⟩
      · rw [List.flatMap_cons, writes_append, hf, hfs, List.append_assoc, List.singleton_append]
      · rcases List.mem_cons.1 hv with rfl | hv
        · exact hw
        · exact hall (by simpa using heq) v hv
    · obtain ⟨gs, hg, htwo⟩ := u.writes_pieces hw q
      obtain ⟨fs, hfs, hle, -⟩ := ih (q ++ gs)
      refine ⟨gs ++ fs, ?_, ?_, fun heq => ?_⟩
      · rw [List.flatMap_cons, writes_append, hg, hfs, List.append_assoc]
      · rw [List.length_append, List.length_cons]
        omega
      · rw [List.length_append, List.length_cons] at heq
        omega

/-- Reads move frames from the queue to the reader, and change nothing else. -/
theorem run_schedule {xs : List BufferHeader} {calls : List Call} (hs : Schedule xs calls)
    {u v : Plain} {os : List Result} (hr : run (Plain.step b) u calls = .ok (os, v)) :
    delivered os ++ v.fifo = (writes b u xs).fifo := by
  induction hs generalizing u os with
  | done =>
    simp only [run_nil, Except.ok.injEq, Prod.mk.injEq] at hr
    obtain ⟨rfl, rfl⟩ := hr
    rfl
  | write x hs ih =>
    obtain ⟨o, u', os', hstep, hrun, rfl⟩ := run_cons_eq_ok.1 hr
    simp only [Plain.step, Except.ok.injEq, Prod.mk.injEq] at hstep
    obtain ⟨rfl, rfl⟩ := hstep
    have ih := ih hrun
    rw [writes_cons]
    exact ih
  | @read xs calls hs ih =>
    obtain ⟨o, u', os', hstep, hrun, rfl⟩ := run_cons_eq_ok.1 hr
    simp only [Plain.step, Except.ok.injEq, Prod.mk.injEq] at hstep
    obtain ⟨rfl, rfl⟩ := hstep
    have ih := ih hrun
    obtain ⟨fifo, p⟩ := u
    rcases fifo with _ | ⟨f, rest⟩
    · exact ih
    · rw [show f :: rest = [f] ++ rest from rfl, writes_front, ← show _ = (writes b ⟨rest, p⟩ xs).fifo
        from ih]
      rfl

end Units

/-! ### Reassembly -/

/-- Reassembly, on every machine whose `size_t` can add the lengths of two slots. -/
theorem reassembles_iff_of_noWrap {pf : Platform} {c b : ℕ} (hw : pf.NoWrap b)
    {units : List (AccessUnit b)} {calls : List Call}
    (hs : Schedule (units.flatMap AccessUnit.fragments) calls)
    (hk : Along (step pf) (KeepsUp c) (initialised pf c b) calls) :
    Reassembles pf c b units calls ↔ ∀ u ∈ units, u.KeptWhole := by
  obtain ⟨os, s, hr, hplain⟩ := refines_plain hw hk
  have hout := run_schedule hs hplain
  constructor
  · rintro ⟨os', s', hr', hall⟩
    obtain ⟨rfl, rfl⟩ := Prod.mk.inj (Except.ok.inj (hr.symm.trans hr'))
    obtain ⟨fs, hfs, -, honly⟩ := writes_units units []
    rw [hout, Plain.empty, hfs] at hall
    exact honly hall.length_eq
  · intro hall
    obtain ⟨fs, hfs, hframes⟩ := writes_units_whole units hall []
    refine ⟨os, s, hr, ?_⟩
    rw [hout, Plain.empty, hfs]
    exact hframes

/-- **Reassembly.** Written to a queue whose reader keeps up, the units come out as one whole frame
each exactly if each of them has parameter sets in front or is a single fragment. -/
theorem reassembles_iff (malloc : ℕ → ℕ → UInt8) (c b : ℕ) (units : List (AccessUnit b))
    (calls : List Call) (hs : Schedule (units.flatMap AccessUnit.fragments) calls)
    (hk : Along (step (Platform.ideal malloc)) (KeepsUp c) (initialised (Platform.ideal malloc) c b)
      calls) :
    Reassembles (Platform.ideal malloc) c b units calls ↔ ∀ u ∈ units, u.KeptWhole :=
  reassembles_iff_of_noWrap (Or.inl rfl) hs hk

/-- A unit of two fragments, `FRAME_START` and `FRAME_END`, with nothing in front. -/
def plainUnit : AccessUnit 4 where
  config := []
  picture := [fragment 2 1, fragment 4 2]
  config_flag := by simp
  picture_flag := by decide
  picture_ne := by simp
  start_head := by decide
  end_last := by decide
  end_only := by decide
  length_le := by decide

/-- The same unit behind a parameter set. -/
def configUnit : AccessUnit 4 where
  config := [fragment 32 0]
  picture := [fragment 2 1, fragment 4 2]
  config_flag := by decide
  picture_flag := by decide
  picture_ne := by simp
  start_head := by decide
  end_last := by decide
  end_only := by decide
  length_le := by decide

/-- The unit in three fragments, read between the second and the third. -/
theorem reassembles_configUnit :
    Reassembles (Platform.ideal fun _ _ => 0) 1 4 [configUnit]
      [.writeBack (some (fragment 32 0)), .writeBack (some (fragment 2 1)), .readFront,
        .writeBack (some (fragment 4 2)), .readFront] ↔ ∀ u ∈ [configUnit], u.KeptWhole := by
  refine reassembles_iff _ 1 4 [configUnit] _ (.write _ (.write _ (.read (.write _ (.read .done))))) ?_
  refine along_cons_ok rfl (fun _ _ _ => by decide) ?_
  refine along_cons_ok rfl (fun _ _ _ => by decide) ?_
  refine along_cons_ok rfl (fun _ h _ => by simp at h) ?_
  refine along_cons_ok rfl (fun _ _ _ => by decide) ?_
  exact along_cons_ok rfl (fun _ h _ => by simp at h) trivial

/-- The two fragments of `plainUnit` come out as two frames. -/
theorem plainUnit_inPieces :
    ¬ ∀ units calls, Schedule ((units : List (AccessUnit 4)).flatMap AccessUnit.fragments) calls →
      Along (step (Platform.ideal fun _ _ => 0)) (KeepsUp 2)
        (initialised (Platform.ideal fun _ _ => 0) 2 4) calls →
      Reassembles (Platform.ideal fun _ _ => 0) 2 4 units calls := by
  intro hclaim
  have hk : Along (step (Platform.ideal fun _ _ => 0)) (KeepsUp 2)
      (initialised (Platform.ideal fun _ _ => 0) 2 4)
      [.writeBack (some (fragment 2 1)), .writeBack (some (fragment 4 2))] := by
    refine along_cons_ok rfl (fun _ _ _ => by decide) ?_
    exact along_cons_ok rfl (fun _ _ _ => by decide) trivial
  obtain ⟨os, s, hr, hall⟩ := hclaim [plainUnit] _ (.write _ (.write _ .done)) hk
  obtain ⟨rfl, rfl⟩ := Prod.mk.inj (Except.ok.inj hr)
  exact absurd hall.length_eq (by decide)

end RcControl.FrameQueue
