import RcControl.FrameQueue.Ledger
import RcControl.FrameQueue.Reinit

/-!
# The flags of a frame in pieces

`append` puts the flags of the fragment it copies in place of those of the buffer. What `isKeyFrame` and
`isFrame` say of a frame that was put together is then what they say of its last fragment, and
`shows_flags` is when this is right.
-/

namespace RcControl.FrameQueue

open Mmal Lib.Run

def Frame.isKeyFrame (f : Frame) : Bool := f.1.getLsbD kFrameFlagKeyFrame
def Frame.isFrame (f : Frame) : Bool := f.1.getLsbD kFrameFlagStart && f.1.getLsbD kFrameFlagEnd

example (b : FrameBuffer) :
    Frame.isKeyFrame b.content = b.isKeyFrame ∧ Frame.isFrame b.content = b.isFrame := ⟨rfl, rfl⟩

/-- The encoder has set the flag. -/
def Fragment.carries (f : Fragment) (flag : ℕ) : Bool := f.header.flags.getLsbD flag

/-- The frame begins with a `CONFIG` fragment. -/
def FromConfig (l : List Fragment) : Prop := ∃ f ∈ l.head?, f.carries kFrameFlagConfig = true

/-- The predicates of the frame speak for its fragments. -/
structure ShowsFlags (l : List Fragment) : Prop where
  key : (contentOf l).isKeyFrame = true ↔ ∃ f ∈ l, f.carries kFrameFlagKeyFrame = true
  frame : (contentOf l).isFrame = true ↔ (∃ f ∈ l, f.carries kFrameFlagStart = true) ∧
    ∃ f ∈ l.getLast?, f.carries kFrameFlagEnd = true

/-- The last fragment has the flag if any has. -/
def LastCarries (flag : ℕ) (l : List Fragment) : Prop :=
  (∃ f ∈ l, f.carries flag = true) → ∃ f ∈ l.getLast?, f.carries flag = true

/-- What is put together is queued by a fragment with `FRAME_END`. -/
def EndsFormed (u : Ledger) : Prop :=
  ∀ l ∈ u.fifo, FromConfig l → ∃ f ∈ l.getLast?, f.carries kFrameFlagEnd = true

section Flags

variable {b : ℕ} {u v : Ledger} {x : BufferHeader} {e : Entry} {l : List Fragment} {f : Fragment}

/-- The bitset has the flags the program knows. -/
lemma getLsbD_ofHeader {flag : ℕ} (h : flag < 8) (x : BufferHeader) :
    (Flags.ofHeader x).getLsbD flag = x.flags.getLsbD flag := by
  simp [Flags.ofHeader, h]

lemma carries_end (u : Ledger) (x : BufferHeader) :
    (u.next x).carries kFrameFlagEnd = endsUnit x := (getLsbD_ofHeader (by decide) x).symm

lemma carries_config (u : Ledger) (x : BufferHeader) :
    (u.next x).carries kFrameFlagConfig = isConfigUnit x := (getLsbD_ofHeader (by decide) x).symm

lemma isKeyFrame_contentOf (hl : f ∈ l.getLast?) :
    (contentOf l).isKeyFrame = f.carries kFrameFlagKeyFrame := by
  obtain ⟨init, rfl⟩ := List.getLast?_eq_some_iff.1 hl
  rw [contentOf_concat]
  exact getLsbD_ofHeader (by decide) f.header

lemma isFrame_contentOf (hl : f ∈ l.getLast?) :
    (contentOf l).isFrame = (f.carries kFrameFlagStart && f.carries kFrameFlagEnd) := by
  obtain ⟨init, rfl⟩ := List.getLast?_eq_some_iff.1 hl
  rw [contentOf_concat]
  exact congrArg₂ _ (getLsbD_ofHeader (by decide) f.header) (getLsbD_ofHeader (by decide) f.header)

lemma lastCarries_iff {flag : ℕ} (hl : f ∈ l.getLast?) :
    LastCarries flag l ↔ (f.carries flag = true ↔ ∃ g ∈ l, g.carries flag = true) := by
  constructor
  · intro h
    refine ⟨fun hf => ⟨f, List.mem_of_mem_getLast? hl, hf⟩, fun hany => ?_⟩
    obtain ⟨g, hg, hflag⟩ := h hany
    exact Option.mem_unique hg hl ▸ hflag
  · intro h hany
    exact ⟨f, hl, h.2 hany⟩

/-- **The flags of the last fragment** are those of the frame exactly if it has those of the others. -/
theorem showsFlags_iff (hl : f ∈ l.getLast?) (hend : f.carries kFrameFlagEnd = true) :
    ShowsFlags l ↔ LastCarries kFrameFlagKeyFrame l ∧ LastCarries kFrameFlagStart l := by
  have hlast : ∃ f ∈ l.getLast?, f.carries kFrameFlagEnd = true := ⟨f, hl, hend⟩
  have hframe : (contentOf l).isFrame = f.carries kFrameFlagStart := by
    rw [isFrame_contentOf hl, hend, Bool.and_true]
  rw [lastCarries_iff hl, lastCarries_iff hl]
  constructor
  · intro h
    refine ⟨?_, ?_⟩
    · rw [← isKeyFrame_contentOf hl]
      exact h.key
    · rw [← hframe, h.frame]
      exact and_iff_left hlast
  · rintro ⟨hkey, hstart⟩
    refine ⟨?_, ?_⟩
    · rw [isKeyFrame_contentOf hl]
      exact hkey
    · rw [hframe, hstart]
      exact (and_iff_left hlast).symm

/-! ### Along a run -/

lemma endsFormed_queue (h : EndsFormed u)
    (hl : FromConfig l → ∃ f ∈ l.getLast?, f.carries kFrameFlagEnd = true) :
    ∀ l' ∈ u.fifo ++ [l], FromConfig l' → ∃ f ∈ l'.getLast?, f.carries kFrameFlagEnd = true := by
  intro l' hl'
  rcases List.mem_append.1 hl' with hl' | hl'
  · exact h l' hl'
  · exact List.mem_singleton.1 hl' ▸ hl

lemma endsFormed_writes (h : EndsFormed u) (hw : Writes b u x e v) : EndsFormed v := by
  cases hw with
  | skips | tooLarge | overflows | «extends» | begins => exact h
  | completes l hz hl hp hfits hend =>
    refine endsFormed_queue h fun _ => ⟨u.next x, by simp, ?_⟩
    rw [carries_end, hend]
  | queues hz hl hp hconfig =>
    refine endsFormed_queue h fun ⟨f, hf, hcarries⟩ => ?_
    rw [← Option.some.inj hf, carries_config, hconfig] at hcarries
    exact absurd hcarries (by decide)

theorem endsFormed_step (b : ℕ) : Invariant (Ledger.step b) EndsFormed := by
  intro u call e v h hs
  cases call with
  | writeBack o =>
    obtain ⟨rfl, rfl⟩ := Prod.mk.inj (Except.ok.inj hs)
    rcases o with _ | x
    · exact h
    · exact endsFormed_writes h (writes_writeBack b u x)
  | readFront =>
    have hread : u.readFront = (e, v) := Except.ok.inj hs
    rcases readFront_cases u with ⟨-, heq⟩ | ⟨l, rest, hq, heq⟩
    · obtain ⟨-, rfl⟩ := Prod.mk.inj (heq.symm.trans hread)
      exact h
    · obtain ⟨-, rfl⟩ := Prod.mk.inj (heq.symm.trans hread)
      exact fun l' hl' => h l' (hq ▸ List.mem_cons_of_mem l hl')
  | clear =>
    obtain ⟨-, rfl⟩ := Prod.mk.inj (Except.ok.inj hs)
    exact fun l hl => absurd hl List.not_mem_nil
  | size =>
    obtain ⟨-, rfl⟩ := Prod.mk.inj (Except.ok.inj hs)
    exact h

/-- **When the flags of a frame are right.** Of the frames that a queue, initialised any number of times,
puts together from a `CONFIG` fragment on and delivers, those show the flags of their fragments whose
last fragment has `KEYFRAME` and `FRAME_START` if any has. -/
theorem shows_flags {pf : Platform} {g : Bool} {m n c b : ℕ} {ops : List Op}
    {os₀ : List (Option Result)} {s₀ s : FrameQueue} {calls : List Call} {os : List Result}
    (h₀ : run (opStep pf) (construct g m n) (ops ++ [.init c b]) = .ok (os₀, s₀)) (hb : pf.SizeT b)
    (h : run (step pf) s₀ calls = .ok (os, s)) :
    ∃ ts u, run (Ledger.step b) .empty calls = .ok (ts, u) ∧ os = ts.map Entry.result ∧
      ∀ l, .delivered l ∈ ts → FromConfig l →
        (ShowsFlags l ↔ LastCarries kFrameFlagKeyFrame l ∧ LastCarries kFrameFlagStart l) := by
  obtain ⟨hinv, habs⟩ := init_fresh h₀
  obtain ⟨ts, u, hledger, hres, -, -⟩ := ledger_of_run (u := .empty) hb hinv habs h
  refine ⟨ts, u, hledger, hres, fun l hl hconfig => ?_⟩
  have hformed : FromConfig l → ∃ f ∈ l.getLast?, f.carries kFrameFlagEnd = true := by
    refine delivered_run (endsFormed_step b) (fun u l hu hl => hu l hl) ?_ hledger l hl
    exact fun l hl => absurd hl List.not_mem_nil
  obtain ⟨f, hlast, hend⟩ := hformed hconfig
  exact showsFlags_iff hlast hend

end Flags

/-- A key frame in three pieces: the flags of the picture are on its first. -/
def keyFrameInPieces : List Call :=
  [.writeBack (some (fragment 32 1)), .writeBack (some (fragment 10 2)),
    .writeBack (some (fragment 4 3)), .readFront]

theorem shows_flags_keyFrame :
    ∃ os₀ s₀ os s, run (opStep (Platform.ideal fun _ _ => 0)) (construct false 0 0) ([] ++ [.init 1 3]) =
        .ok (os₀, s₀) ∧
      run (step (Platform.ideal fun _ _ => 0)) s₀ keyFrameInPieces = .ok (os, s) ∧
      ∃ ts u, run (Ledger.step 3) .empty keyFrameInPieces = .ok (ts, u) ∧ os = ts.map Entry.result ∧
        ∀ l, .delivered l ∈ ts → FromConfig l →
          (ShowsFlags l ↔ LastCarries kFrameFlagKeyFrame l ∧ LastCarries kFrameFlagStart l) := by
  obtain ⟨os₀, s₀, os, s, h₀, h⟩ : ∃ os₀ s₀ os s,
      run (opStep (Platform.ideal fun _ _ => 0)) (construct false 0 0) ([] ++ [.init 1 3]) =
        .ok (os₀, s₀) ∧
      run (step (Platform.ideal fun _ _ => 0)) s₀ keyFrameInPieces = .ok (os, s) :=
    ⟨_, _, _, _, rfl, rfl⟩
  exact ⟨os₀, s₀, os, s, h₀, h, shows_flags h₀ (Or.inl rfl) h⟩

/-- It is delivered as no key frame. -/
theorem keyFrameInPieces_hidden :
    ¬ ∀ (pf : Platform) (g : Bool) (m n : ℕ) (ops : List Op) (c b : ℕ) (os₀ : List (Option Result))
      (s₀ : FrameQueue) (calls : List Call) (os : List Result) (s : FrameQueue) (ts : List Entry)
      (u : Ledger), pf.SizeT b →
      run (opStep pf) (construct g m n) (ops ++ [.init c b]) = .ok (os₀, s₀) →
      run (step pf) s₀ calls = .ok (os, s) → run (Ledger.step b) .empty calls = .ok (ts, u) →
      ∀ l, .delivered l ∈ ts → FromConfig l → ShowsFlags l := by
  intro hclaim
  have hshows := hclaim (Platform.ideal fun _ _ => 0) false 0 0 [] 1 3 _ _ keyFrameInPieces _ _ _ _
    (Or.inl rfl) rfl rfl rfl [⟨0, 0, fragment 32 1⟩, ⟨1, 0, fragment 10 2⟩, ⟨2, 0, fragment 4 3⟩]
    (List.mem_of_getLast? rfl) ⟨_, rfl, by decide⟩
  exact absurd (hshows.key.2 ⟨⟨1, 0, fragment 10 2⟩, by simp, by decide⟩) (by decide)

end RcControl.FrameQueue
