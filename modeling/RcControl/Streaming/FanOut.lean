import RcControl.Streaming.Model
import RcControl.FrameQueue.Plain

/-!
# Who is sent what

Every client is sent the buffers the camera delivers from the moment its track opened to the moment
it is erased, each once and in order, whatever becomes of the others (`fan_out`). The state of a
client after a run is one of three (`Served`), and a step takes it from one to the next; that the
callback runs at all rests on `Inv`: once a client is ready the callback is set, and no client is in
the registry twice.
-/

namespace RcControl.Streaming

open Lib Lib.Run Mmal Streamer

variable {κ : Type} [DecidableEq κ]

/-- What is sent to a client, and whether the call failed. -/
def sendsTo (c : ℕ) (actions : List Action) : List (List UInt8 × Bool) :=
  actions.filterMap fun
    | .send d sample threw => if d = c then some (sample, threw) else none
    | _ => none

/-- What the camera delivers, with the failures of the client's own calls. -/
def deliveries (c : ℕ) (es : List (Event κ)) : List (List UInt8 × Bool) :=
  es.filterMap fun
    | .camBuffer x throws => some (x.payload, throws c)
    | _ => none

/-- After these events the client is in `clients` and not yet ready. -/
def Waits (pf : FrameQueue.Platform) (q : FrameQueue) (k : κ) (c : ℕ) (es : List (Event κ)) : Prop :=
  ∃ os s, run (step pf) (start q) es = .ok (os, s) ∧ s.clients.lookup k = some c ∧
    (s.object c).state ≠ .Ready

/-- What a client has been sent after a run, by what has become of it. -/
inductive Served (pf : FrameQueue.Platform) (q : FrameQueue) (c : ℕ) (es : List (Event κ))
    (os : List (List Action)) (s : Streamer κ) : Prop
  /-- It was never ready: nothing. -/
  | waiting (hstate : (s.object c).state ≠ .Ready) (hsends : sendsTo c os.flatten = [])
  /-- It became ready and is still in `clients`: all that was delivered since. -/
  | streaming (k : κ) (es₁ : List (Event κ)) (now : ℕ) (es₂ : List (Event κ))
      (hes : es = es₁ ++ .trackOpen c now :: es₂) (hwaits : Waits pf q k c es₁)
      (hup : .hangup k ∉ es₂) (hin : s.clients.lookup k = some c)
      (hstate : (s.object c).state = .Ready)
      (hsends : sendsTo c os.flatten = deliveries c es₂)
  /-- It became ready and was erased: all that was delivered in between. -/
  | erased (k : κ) (es₁ : List (Event κ)) (now : ℕ) (es₂ es₃ : List (Event κ))
      (hes : es = es₁ ++ .trackOpen c now :: es₂ ++ .hangup k :: es₃) (hwaits : Waits pf q k c es₁)
      (hup : .hangup k ∉ es₂) (hout : ∀ k', s.clients.lookup k' ≠ some c)
      (hstate : (s.object c).state = .Ready)
      (hsends : sendsTo c os.flatten = deliveries c es₂)

/-- No sample goes to a client before `setStartTime` and `startRecording` have completed for it. -/
def Started (actions : List Action) : Prop :=
  ∀ c sample threw before after, actions = before ++ .send c sample threw :: after →
    .setStartTime c ∈ before ∧ .startRecording c ∈ before

/-! ### One buffer -/

section Send

variable {s : Streamer κ} {x : BufferHeader} {throws : ℕ → Bool} {object : ℕ → Client} {c : ℕ}
  {cs : List ℕ}

lemma sendAll_actions (x : BufferHeader) (throws : ℕ → Bool) (object : ℕ → Client) (cs : List ℕ) :
    (sendAll x throws object cs).1 = cs.map fun c => .send c x.payload (throws c) := by
  induction cs generalizing object with
  | nil => rfl
  | cons c cs ih => exact congrArg _ (ih _)

/-- The loop changes the RTP times of the clients, and neither their states nor that they have a
track. -/
lemma sendAll_object (x : BufferHeader) (throws : ℕ → Bool) (object : ℕ → Client) (cs : List ℕ)
    (c : ℕ) :
    ((sendAll x throws object cs).2 c).state = (object c).state ∧
      ((sendAll x throws object cs).2 c).video.isSome = (object c).video.isSome := by
  induction cs generalizing object with
  | nil => exact ⟨rfl, rfl⟩
  | cons d cs ih =>
    obtain ⟨hstate, hvideo⟩ := ih (sendSample x (throws d) object d).2
    by_cases hcd : c = d
    · subst hcd
      refine ⟨hstate.trans ?_, hvideo.trans ?_⟩
      · simp [sendSample]
      · simp [sendSample]
    · refine ⟨hstate.trans ?_, hvideo.trans ?_⟩
      · simp [sendSample, hcd]
      · simp [sendSample, hcd]

lemma sendsTo_append (c : ℕ) (l l' : List Action) : sendsTo c (l ++ l') = sendsTo c l ++ sendsTo c l' :=
  List.filterMap_append ..

/-- A client among the tracks is sent the sample, once if it is among them once. -/
lemma sendsTo_sendAll (hnd : cs.Nodup) :
    sendsTo c (cs.map fun d => .send d x.payload (throws d)) =
      if c ∈ cs then [(x.payload, throws c)] else [] := by
  induction cs with
  | nil => rfl
  | cons d cs ih =>
    obtain ⟨hnot, hnd⟩ := List.nodup_cons.1 hnd
    rw [List.map_cons, ← List.singleton_append, sendsTo_append, ih hnd]
    by_cases hcd : d = c
    · subst hcd
      simp [sendsTo, hnot]
    · simp [sendsTo, hcd, Ne.symm hcd]

end Send

/-! ### The registry and the clients that are ready -/

/-- Each client is in the registry once and was created; the ready ones have a track, and the callback
is set if there is one. -/
structure Inv (s : Streamer κ) : Prop where
  born : ∀ k c, s.clients.lookup k = some c → c < s.next
  once : ∀ k k' c, s.clients.lookup k = some c → s.clients.lookup k' = some c → k = k'
  unborn : ∀ c, s.next ≤ c → (s.object c).state ≠ .Ready
  ready : ∀ c, (s.object c).state = .Ready → s.onCamBuffer = true ∧ (s.object c).video.isSome = true

section Inv

variable {pf : FrameQueue.Platform} {s s' : Streamer κ} {k : κ} {c : ℕ} {e : Event κ}
  {o : List Action}

lemma inv_start (q : FrameQueue) : Inv (start q : Streamer κ) where
  born k c h := absurd h (by simp [start])
  once k k' c h := absurd h (by simp [start])
  unborn c _ := by simp [start]
  ready c h := absurd h (by simp [start])

lemma alive_iff : s.alive c = true ↔ ∃ k, s.clients.lookup k = some c := by
  simp only [alive, List.any_eq_true, beq_iff_eq]
  constructor
  · rintro ⟨⟨k, d⟩, hmem, rfl⟩
    exact ⟨k, AList.mem_lookup_iff.2 hmem⟩
  · rintro ⟨k, hk⟩
    exact ⟨⟨k, c⟩, AList.mem_lookup_iff.1 hk, rfl⟩

lemma mem_tracks : c ∈ s.tracks ↔ (∃ k, s.clients.lookup k = some c) ∧
    (s.object c).state = .Ready ∧ (s.object c).video.isSome = true := by
  rw [← alive_iff]
  simp only [tracks, alive, List.mem_filter, List.mem_map, Bool.and_eq_true, beq_iff_eq,
    List.any_eq_true]

lemma nodup_tracks (h : Inv s) : s.tracks.Nodup := by
  refine List.Nodup.filter _ (List.Nodup.map_on ?_ (List.Nodup.of_map Sigma.fst s.clients.nodupKeys))
  rintro ⟨k, d⟩ hk ⟨k', d'⟩ hk' (heq : d = d')
  subst heq
  have hkk := h.once k k' d (AList.mem_lookup_iff.2 hk) (AList.mem_lookup_iff.2 hk')
  subst hkk
  rfl

lemma lookup_register {id : κ} {timestamp : BitVec 32}
    (h : (s.register id timestamp).clients.lookup k = some c) :
    s.clients.lookup k = some c ∨ k = id ∧ s.clients.lookup id = none ∧ c = s.next := by
  simp only [register, createClient] at h
  rcases hid : s.clients.lookup id with _ | d
  · rw [Registry.emplace_of_lookup_none hid] at h
    by_cases hk : k = id
    · subst hk
      rw [AList.lookup_insert, Option.some.injEq] at h
      exact Or.inr ⟨rfl, rfl, h.symm⟩
    · rw [AList.lookup_insert_ne hk] at h
      exact Or.inl h
  · rw [Registry.emplace_of_lookup hid] at h
    exact Or.inl h

lemma lookup_register_of_some {id : κ} {timestamp : BitVec 32} (h : s.clients.lookup k = some c) :
    (s.register id timestamp).clients.lookup k = some c := by
  simp only [register, createClient]
  by_cases hk : k = id
  · subst hk
    rw [Registry.emplace_of_lookup h, h]
  · rw [Registry.lookup_emplace_ne hk, h]

lemma inv_register (h : Inv s) (id : κ) (timestamp : BitVec 32) : Inv (s.register id timestamp) where
  born k c hk := by
    rcases lookup_register hk with hk | ⟨-, -, rfl⟩
    · exact Nat.lt_succ_of_lt (h.born k c hk)
    · exact Nat.lt_succ_self _
  once k k' c hk hk' := by
    rcases lookup_register hk with h₁ | ⟨h₁, -, hc₁⟩ <;>
      rcases lookup_register hk' with h₂ | ⟨h₂, -, hc₂⟩
    · exact h.once k k' c h₁ h₂
    · exact absurd (h.born k c h₁) (by omega)
    · exact absurd (h.born k' c h₂) (by omega)
    · exact h₁.trans h₂.symm
  unborn c hc := by
    have hc : s.next + 1 ≤ c := hc
    simp only [register, createClient, Function.update_of_ne (show c ≠ s.next by omega)]
    exact h.unborn c (by omega)
  ready c hc := by
    have hne : c ≠ s.next := by
      rintro rfl
      simp [register, createClient] at hc
    simp only [register, createClient, Function.update_of_ne hne] at hc ⊢
    exact h.ready c hc

/-- `addToStream` on a client with a track: the two calls, the state, the callback. -/
lemma addToStream_of_video {video : Sender} (hv : (s.object c).video = some video) (now : ℕ) :
    ∃ video', s.addToStream c now = ([.setStartTime c, .startRecording c],
      { s with object := Function.update s.object c ⟨.Ready, some video'⟩, onCamBuffer := true }) := by
  simp only [addToStream, hv, startStream]
  exact ⟨_, rfl⟩

lemma onOpen_cases (s : Streamer κ) (c : ℕ) (now : ℕ) :
    s.onOpen c now = ([], s) ∨
      (∃ k, s.clients.lookup k = some c) ∧
        ∃ video', s.onOpen c now = ([.setStartTime c, .startRecording c],
          { s with
            object := Function.update s.object c ⟨.Ready, some video'⟩
            onCamBuffer := true }) := by
  unfold onOpen
  split
  · rename_i halive
    rcases hv : (s.object c).video with _ | video
    · left
      simp only [addToStream, hv]
    · right
      exact ⟨alive_iff.1 halive, addToStream_of_video hv now⟩
  · exact Or.inl rfl

lemma lookup_hangup {k k' : κ} (h : (s.hangup k').clients.lookup k = some c) :
    k ≠ k' ∧ s.clients.lookup k = some c := by
  simp only [hangup] at h
  by_cases hk : k = k'
  · subst hk
    rw [AList.lookup_erase] at h
    exact absurd h (by simp)
  · rw [AList.lookup_erase_ne hk] at h
    exact ⟨hk, h⟩

lemma inv_hangup (h : Inv s) (k : κ) : Inv (s.hangup k) where
  born k' c hk' := h.born k' c (lookup_hangup hk').2
  once k₁ k₂ c h₁ h₂ := h.once k₁ k₂ c (lookup_hangup h₁).2 (lookup_hangup h₂).2
  unborn := h.unborn
  ready := h.ready

/-- The callback, if the queue does its part: a sample to each of the tracks. -/
lemma camCallback_ok {x : BufferHeader} {throws : ℕ → Bool}
    (hs : s.camCallback pf x throws = .ok (o, s')) :
    o = s.tracks.map (fun c => .send c x.payload (throws c)) ∧
      s'.clients = s.clients ∧ s'.next = s.next ∧ s'.onCamBuffer = s.onCamBuffer ∧
      ∀ c, (s'.object c).state = (s.object c).state ∧
        (s'.object c).video.isSome = (s.object c).video.isSome := by
  unfold camCallback at hs
  rcases hw : FrameQueue.writeBack pf s.frameQueue (some x) with f | ⟨r, q⟩
  · simp [hw] at hs
  · simp only [hw, Except.ok.injEq, Prod.mk.injEq] at hs
    obtain ⟨rfl, rfl⟩ := hs
    exact ⟨sendAll_actions .., rfl, rfl, rfl, sendAll_object x throws s.object s.tracks⟩

lemma step_camBuffer_unset {x : BufferHeader} {throws : ℕ → Bool} (h : ¬ s.onCamBuffer = true) :
    step pf s (.camBuffer x throws) = .ok ([], s) := by
  simp only [step]
  rw [if_neg h]

/-- What a step does. -/
inductive Does (s : Streamer κ) : Event κ → List Action → Streamer κ → Prop
  | registers (id : κ) (timestamp : BitVec 32) :
      Does s (.register id timestamp) [] (s.register id timestamp)
  | opens (c now : ℕ) (video' : Sender) (hin : ∃ k, s.clients.lookup k = some c) :
      Does s (.trackOpen c now) [.setStartTime c, .startRecording c]
        { s with
          object := Function.update s.object c ⟨.Ready, some video'⟩
          onCamBuffer := true }
  /-- The client is gone, or has no track. -/
  | misses (c now : ℕ) : Does s (.trackOpen c now) [] s
  | hangsUp (id : κ) : Does s (.hangup id) [] (s.hangup id)
  | sends (x : BufferHeader) (throws : ℕ → Bool) {s' : Streamer κ} (hcb : s.onCamBuffer = true)
      (hclients : s'.clients = s.clients) (hnext : s'.next = s.next)
      (hon : s'.onCamBuffer = s.onCamBuffer)
      (hobject : ∀ c, (s'.object c).state = (s.object c).state ∧
        (s'.object c).video.isSome = (s.object c).video.isSome) :
      Does s (.camBuffer x throws) (s.tracks.map fun c => .send c x.payload (throws c)) s'
  /-- There is no callback yet. -/
  | ignores (x : BufferHeader) (throws : ℕ → Bool) (hcb : ¬ s.onCamBuffer = true) :
      Does s (.camBuffer x throws) [] s

theorem does_of_step (hs : step pf s e = .ok (o, s')) : Does s e o s' := by
  cases e with
  | register id timestamp =>
    simp only [step, Except.ok.injEq, Prod.mk.injEq] at hs
    obtain ⟨rfl, rfl⟩ := hs
    exact .registers id timestamp
  | trackOpen c now =>
    simp only [step, Except.ok.injEq] at hs
    rcases onOpen_cases s c now with ho | ⟨hin, video', ho⟩
    · rw [ho, Prod.mk.injEq] at hs
      obtain ⟨rfl, rfl⟩ := hs
      exact .misses c now
    · rw [ho, Prod.mk.injEq] at hs
      obtain ⟨rfl, rfl⟩ := hs
      exact .opens c now video' hin
  | hangup id =>
    simp only [step, Except.ok.injEq, Prod.mk.injEq] at hs
    obtain ⟨rfl, rfl⟩ := hs
    exact .hangsUp id
  | camBuffer x throws =>
    by_cases hcb : s.onCamBuffer = true
    · simp only [step, hcb, if_true] at hs
      obtain ⟨rfl, hclients, hnext, hon, hobject⟩ := camCallback_ok hs
      exact .sends x throws hcb hclients hnext hon hobject
    · rw [step_camBuffer_unset hcb, Except.ok.injEq, Prod.mk.injEq] at hs
      obtain ⟨rfl, rfl⟩ := hs
      exact .ignores x throws hcb

theorem inv_step (pf : FrameQueue.Platform) : Invariant (step pf) (Inv (κ := κ)) := by
  intro s e o s' h hs
  cases does_of_step hs with
  | registers id timestamp => exact inv_register h id timestamp
  | opens c now video' hin =>
    obtain ⟨k, hk⟩ := hin
    refine ⟨h.born, h.once, fun d hd => ?_, fun d hd => ⟨rfl, ?_⟩⟩
    · have hlt := h.born k c hk
      have hd : s.next ≤ d := hd
      simp only [Function.update_of_ne (show d ≠ c by omega)]
      exact h.unborn d hd
    · by_cases hdc : d = c
      · subst hdc
        simp
      · simp only [Function.update_of_ne hdc] at hd ⊢
        exact (h.ready d hd).2
  | misses => exact h
  | hangsUp id => exact inv_hangup h id
  | sends x throws hcb hclients hnext hon hobject =>
    refine ⟨?_, ?_, ?_, ?_⟩
    · rw [hclients, hnext]
      exact h.born
    · rw [hclients]
      exact h.once
    · intro c hc
      rw [(hobject c).1]
      exact h.unborn c (hnext ▸ hc)
    · intro c hc
      rw [(hobject c).1] at hc
      rw [hon, (hobject c).2]
      exact h.ready c hc
  | ignores => exact h

end Inv

/-! ### What one step sends -/

section Step

variable {pf : FrameQueue.Platform} {s s' : Streamer κ} {k : κ} {c : ℕ} {e : Event κ}
  {o : List Action}

/-- **A step sends a client what it delivers**, if the client is in the registry and ready, and
otherwise nothing. -/
theorem sendsTo_step (h : Inv s) (hs : step pf s e = .ok (o, s')) (c : ℕ) :
    ((∃ k, s.clients.lookup k = some c) ∧ (s.object c).state = .Ready →
      sendsTo c o = deliveries c [e]) ∧
    (¬ ((∃ k, s.clients.lookup k = some c) ∧ (s.object c).state = .Ready) → sendsTo c o = []) := by
  cases does_of_step hs with
  | sends x throws hcb =>
    rw [sendsTo_sendAll (nodup_tracks h)]
    constructor
    · rintro ⟨hin, hr⟩
      rw [if_pos (mem_tracks.2 ⟨hin, hr, (h.ready c hr).2⟩)]
      rfl
    · intro hno
      rw [if_neg]
      intro hmem
      exact hno ⟨(mem_tracks.1 hmem).1, (mem_tracks.1 hmem).2.1⟩
  | ignores x throws hcb =>
    -- no client is ready before the callback is set
    constructor
    · intro hr
      exact absurd (h.ready c hr.2).1 hcb
    · intro _
      exact rfl
  | _ => exact ⟨fun _ => rfl, fun _ => rfl⟩

/-- A client stays ready; it becomes ready when its track opens while it is in the registry. -/
theorem ready_step (hs : step pf s e = .ok (o, s')) (c : ℕ) :
    ((s.object c).state = .Ready → c < s.next → (s'.object c).state = .Ready) ∧
    ((s.object c).state ≠ .Ready → (s'.object c).state = .Ready →
      (∃ now, e = .trackOpen c now) ∧ s'.clients = s.clients ∧ ∃ k, s.clients.lookup k = some c) := by
  cases does_of_step hs with
  | registers id timestamp =>
    constructor
    · intro hr hlt
      simpa only [register, createClient, Function.update_of_ne hlt.ne] using hr
    · intro hr hr'
      by_cases hc : c = s.next
      · subst hc
        simp [register, createClient] at hr'
      · simp only [register, createClient, Function.update_of_ne hc] at hr'
        exact absurd hr' hr
  | opens d now video' hin =>
    by_cases hc : c = d
    · subst hc
      constructor
      · intro _ _
        exact by simp
      · intro _ _
        exact ⟨⟨now, rfl⟩, rfl, hin⟩
    · simp only [Function.update_of_ne hc]
      constructor
      · intro hr _
        exact hr
      · intro hr hr'
        exact absurd hr' hr
  | sends x throws hcb hclients hnext hon hobject =>
    rw [(hobject c).1]
    constructor
    · intro hr _
      exact hr
    · intro hr hr'
      exact absurd hr' hr
  | _ => exact ⟨fun hr _ => hr, fun hr hr' => absurd hr' hr⟩

/-- Only a hangup takes an entry out of the registry, and only its own. -/
theorem lookup_step (hs : step pf s e = .ok (o, s')) :
    (s.clients.lookup k = some c → e ≠ .hangup k → s'.clients.lookup k = some c) ∧
    (s'.clients.lookup k = some c → s.clients.lookup k = some c ∨ c = s.next) ∧
    (e = .hangup k → s'.clients.lookup k = none) := by
  cases does_of_step hs with
  | registers id timestamp =>
    refine ⟨fun h _ => lookup_register_of_some h, fun h => ?_, fun h => nomatch h⟩
    rcases lookup_register h with h | ⟨-, -, h⟩
    · exact Or.inl h
    · exact Or.inr h
  | hangsUp id =>
    refine ⟨fun h hne => ?_, fun h => Or.inl (lookup_hangup h).2, fun h => ?_⟩
    · have hk : k ≠ id := by
        rintro rfl
        exact hne rfl
      simpa only [hangup, AList.lookup_erase_ne hk] using h
    · rw [Event.hangup.inj h]
      exact AList.lookup_erase ..
  | sends x throws hcb hclients =>
    rw [hclients]
    exact ⟨fun h _ => h, fun h => Or.inl h, fun h => nomatch h⟩
  | _ => exact ⟨fun h _ => h, fun h => Or.inl h, fun h => nomatch h⟩

end Step

/-! ### A whole run -/

section Run

variable {pf : FrameQueue.Platform} {q : FrameQueue} {s s' : Streamer κ} {c : ℕ} {e : Event κ}
  {es : List (Event κ)} {o : List Action} {os : List (List Action)}

omit [DecidableEq κ] in
lemma deliveries_append (c : ℕ) (es es' : List (Event κ)) :
    deliveries c (es ++ es') = deliveries c es ++ deliveries c es' := List.filterMap_append ..

lemma sendsTo_snoc (c : ℕ) (os : List (List Action)) (o : List Action) :
    sendsTo c (os ++ [o]).flatten = sendsTo c os.flatten ++ sendsTo c o := by
  rw [List.flatten_append, sendsTo_append, List.flatten_singleton]

/-- **One step of a client's story.** -/
theorem served_step (h : Inv s) (hrun : run (step pf) (start q) es = .ok (os, s))
    (hserved : Served pf q c es os s) (hs : step pf s e = .ok (o, s')) :
    Served pf q c (es ++ [e]) (os ++ [o]) s' := by
  obtain ⟨hsend, hquiet⟩ := sendsTo_step h hs c
  obtain ⟨hstays, hbecomes⟩ := ready_step hs c
  cases hserved with
  | waiting hstate hsends =>
    have hsends' : sendsTo c (os ++ [o]).flatten = [] := by
      rw [sendsTo_snoc, hsends, hquiet fun hr => hstate hr.2, List.append_nil]
    by_cases hr : (s'.object c).state = .Ready
    · obtain ⟨⟨now, rfl⟩, hcl, k, hk⟩ := hbecomes hstate hr
      exact .streaming k es now [] rfl ⟨os, s, hrun, hk, hstate⟩ List.not_mem_nil (hcl ▸ hk) hr hsends'
    · exact .waiting hr hsends'
  | streaming k es₁ now es₂ hes hwaits hup hin hstate hsends =>
    obtain ⟨hkeep, -, herase⟩ := lookup_step (k := k) (c := c) hs
    have hr := hstays hstate (h.born k c hin)
    have hsends' : sendsTo c (os ++ [o]).flatten = deliveries c (es₂ ++ [e]) := by
      rw [sendsTo_snoc, hsends, hsend ⟨⟨k, hin⟩, hstate⟩, deliveries_append]
    by_cases he : e = .hangup k
    · subst he
      refine .erased k es₁ now es₂ [] (by rw [hes]) hwaits hup (fun k' hk' => ?_) hr ?_
      · -- the client was under no other key
        rcases (lookup_step (k := k') (c := c) hs).2.1 hk' with hold | hnew
        · have hkk := h.once k k' c hin hold
          rw [← hkk, herase rfl] at hk'
          exact absurd hk' (by simp)
        · exact absurd (h.born k c hin) (by omega)
      · rw [hsends', deliveries_append]
        exact List.append_nil _
    · refine .streaming k es₁ now (es₂ ++ [e]) ?_ hwaits ?_ (hkeep hin he) hr hsends'
      · rw [hes, List.append_assoc, List.cons_append]
      · intro hmem
        rcases List.mem_append.1 hmem with hmem | hmem
        · exact hup hmem
        · exact he (List.mem_singleton.1 hmem).symm
  | erased k es₁ now es₂ es₃ hes hwaits hup hout hstate hsends =>
    have hlt : c < s.next := by
      by_contra hge
      exact h.unborn c (not_lt.1 hge) hstate
    refine .erased k es₁ now es₂ (es₃ ++ [e]) ?_ hwaits hup (fun k' hk' => ?_) (hstays hstate hlt) ?_
    · rw [hes, List.append_assoc, List.cons_append]
    · rcases (lookup_step (k := k') (c := c) hs).2.1 hk' with hold | hnew
      · exact hout k' hold
      · omega
    · rw [sendsTo_snoc, hsends, hquiet fun hr => hout hr.1.choose hr.1.choose_spec, List.append_nil]

/-- A client that is ready has been started. -/
def ReadyStarted (actions : List Action) (s : Streamer κ) : Prop :=
  ∀ c, (s.object c).state = .Ready → .setStartTime c ∈ actions ∧ .startRecording c ∈ actions

lemma started_append {l l' : List Action} (h : Started l)
    (h' : ∀ c sample threw, .send c sample threw ∈ l' →
      .setStartTime c ∈ l ∧ .startRecording c ∈ l) : Started (l ++ l') := by
  intro c sample threw before after heq
  rcases List.append_eq_append_iff.1 heq with ⟨m, hb, hl'⟩ | ⟨m, hl, hr⟩
  · -- the sample is in `l'`
    obtain ⟨h₁, h₂⟩ := h' c sample threw (by rw [hl']; simp)
    rw [hb]
    exact ⟨List.mem_append_left _ h₁, List.mem_append_left _ h₂⟩
  · rcases m with _ | ⟨a, m⟩
    · rw [List.append_nil] at hl
      have hmem : .send c sample threw ∈ l' := by
        rw [List.nil_append] at hr
        rw [← hr]
        exact List.mem_cons_self
      exact hl ▸ h' c sample threw hmem
    · obtain ⟨rfl, -⟩ := List.cons.inj hr
      exact h c sample threw before m hl

theorem started_step (h : Inv s) (hst : Started os.flatten) (hready : ReadyStarted os.flatten s)
    (hs : step pf s e = .ok (o, s')) :
    Started (os ++ [o]).flatten ∧ ReadyStarted (os ++ [o]).flatten s' := by
  rw [List.flatten_append, List.flatten_singleton]
  constructor
  · refine started_append hst fun c sample threw hmem => hready c ?_
    -- what is sent is sent to clients that are ready
    by_contra hno
    have hnil := (sendsTo_step h hs c).2 fun hr => hno hr.2
    have hin : (sample, threw) ∈ sendsTo c o := List.mem_filterMap.2 ⟨_, hmem, if_pos rfl⟩
    rw [hnil] at hin
    exact List.not_mem_nil hin
  · intro c hr
    by_cases hold : (s.object c).state = .Ready
    · obtain ⟨h₁, h₂⟩ := hready c hold
      exact ⟨List.mem_append_left _ h₁, List.mem_append_left _ h₂⟩
    · obtain ⟨⟨now, rfl⟩, -⟩ := (ready_step hs c).2 hold hr
      cases does_of_step hs with
      | opens => exact ⟨by simp, by simp⟩
      | misses => exact absurd hr hold

/-- What holds of every run that does not fault. -/
theorem served_run (h : run (step pf) (start q) es = .ok (os, s)) :
    (∀ c, Served pf q c es os s) ∧ Started os.flatten := by
  have hall : Inv s ∧ (∀ c, Served pf q c es os s) ∧ Started os.flatten ∧
      ReadyStarted os.flatten s := by
    refine history_run (J := fun es os s => Inv s ∧ (∀ c, Served pf q c es os s) ∧
      Started os.flatten ∧ ReadyStarted os.flatten s) ?_ ?_ h
    · refine ⟨inv_start q, fun c => .waiting (by simp [start]) rfl, ?_, fun c hc => ?_⟩
      · intro c sample threw before after heq
        simp at heq
      · exact absurd hc (by simp [start])
    · rintro es os s e o s' hrun ⟨hinv, hserved, hst, hready⟩ hs
      obtain ⟨hst', hready'⟩ := started_step hinv hst hready hs
      exact ⟨inv_step pf s e o s' hinv hs, fun c => served_step hinv hrun (hserved c) hs, hst', hready'⟩
  exact ⟨hall.2.1, hall.2.2.1⟩

end Run

/-! ### The queue does its part -/

section Queue

variable {pf : FrameQueue.Platform} {q : FrameQueue} {b n : ℕ} {x : BufferHeader}

lemma length_fifo_writeBack (p : Option FrameQueue.Frame) (o : Option BufferHeader) :
    (FrameQueue.Plain.writeBack b ⟨[], p⟩ o).2.fifo.length ≤ 1 := by
  rcases o with _ | x
  · simp [FrameQueue.Plain.writeBack]
  · rcases p with _ | f
    · simp only [FrameQueue.Plain.writeBack]
      split_ifs <;> simp
    · simp only [FrameQueue.Plain.writeBack]
      split_ifs <;> simp

/-- A write and a read leave no frame in the queue, if there is a slot. -/
theorem writeRead_ok (hw : pf.NoWrap b) (hn : 1 ≤ n) (h : FrameQueue.Inv n b q)
    (hq : q.encodedFrameQueue = []) (x : BufferHeader) :
    ∃ r q', FrameQueue.writeBack pf q (some x) = .ok (r, q') ∧
      FrameQueue.Inv n b (FrameQueue.readFront q').2 ∧
      (FrameQueue.readFront q').2.encodedFrameQueue = [] := by
  have hcan : ∀ y, some x = some y → FrameQueue.StartsFrame q y → FrameQueue.CanTake q := by
    intro y hy hst
    have hk : FrameQueue.KeepsUp n q (.writeBack (some x)) := by
      intro _ _ _
      rw [hq]
      exact hn
    exact FrameQueue.canServe_of_keepsUp h hk y (by rw [hy]) hst
  obtain ⟨r, q', hwb, habs⟩ := FrameQueue.writeBack_refines hw h (some x) hcan
  have hlen : q'.encodedFrameQueue.length ≤ 1 := by
    have hle := length_fifo_writeBack (b := b) (FrameQueue.abs q).pending (some x)
    rw [show (⟨[], (FrameQueue.abs q).pending⟩ : FrameQueue.Plain) = FrameQueue.abs q by
      simp [FrameQueue.abs, hq], habs] at hle
    simpa [FrameQueue.abs] using hle
  refine ⟨r, q', hwb, FrameQueue.inv_readFront (FrameQueue.inv_writeBack h hwb), ?_⟩
  rcases hq' : q'.encodedFrameQueue with _ | ⟨p, rest⟩
  · simp [FrameQueue.readFront, hq']
  · rw [FrameQueue.readFront_eq p rest hq']
    rw [hq', List.length_cons] at hlen
    have hrest : rest.length = 0 := by omega
    exact List.length_eq_zero_iff.1 hrest

/-- The streamer has read all frames there are. -/
def Drained (n b : ℕ) (s : Streamer κ) : Prop :=
  FrameQueue.Inv n b s.frameQueue ∧ s.frameQueue.encodedFrameQueue = []

lemma drained_step (hw : pf.NoWrap b) (hn : 1 ≤ n) {s : Streamer κ} (h : Drained n b s)
    (e : Event κ) : ∃ o s', step pf s e = .ok (o, s') ∧ Drained n b s' := by
  cases e with
  | register id timestamp => exact ⟨_, _, rfl, h⟩
  | trackOpen c now =>
    rcases onOpen_cases s c now with ho | ⟨-, video', ho⟩
    · exact ⟨_, _, congrArg _ ho, h⟩
    · exact ⟨_, _, congrArg _ ho, h⟩
  | hangup k => exact ⟨_, _, rfl, h⟩
  | camBuffer x throws =>
    by_cases hcb : s.onCamBuffer = true
    · obtain ⟨r, q', hwb, hinv, hempty⟩ := writeRead_ok hw hn h.1 h.2 x
      refine ⟨(sendAll x throws s.object s.tracks).1,
        { s with
          frameQueue := (FrameQueue.readFront q').2
          object := (sendAll x throws s.object s.tracks).2 }, ?_, hinv, hempty⟩
      simp only [step, hcb, if_true, camCallback, hwb]
    · exact ⟨_, _, step_camBuffer_unset hcb, h⟩

/-- With a slot in the queue, no run of the streamer faults. -/
theorem run_total (hw : pf.NoWrap b) (hn : 1 ≤ n) (es : List (Event κ)) :
    ∃ os s, run (step pf) (start (FrameQueue.initialised pf n b)) es = .ok (os, s) := by
  have hI : Invariant (step pf) (Drained (κ := κ) n b) := by
    intro s e o s' hs hst
    obtain ⟨o', t, ht, hIt⟩ := drained_step hw hn hs e
    rw [ht, Except.ok.injEq, Prod.mk.injEq] at hst
    exact hst.2 ▸ hIt
  have h0 : Drained (κ := κ) n b (start (FrameQueue.initialised pf n b)) := by
    refine ⟨FrameQueue.inv_initialised pf n b, ?_⟩
    exact (FrameQueue.fillFreeList_containers pf n (FrameQueue.construct true n b)).2
  refine run_ok_of_along (P := fun _ _ => True) hI (fun s e hs _ => ?_) h0
    (along_of_inv hI (fun _ _ _ => trivial) h0 es)
  obtain ⟨o, s', hst, -⟩ := drained_step hw hn hs e
  exact ⟨o, s', hst⟩

end Queue

/-- **Fan-out.** After every run each client has been sent what the camera delivered from the moment it
became ready until it was erased, each buffer once and in order, and nothing before it was started;
and no run faults if the queue has a slot. -/
theorem fan_out (pf : FrameQueue.Platform) (q : FrameQueue) (es : List (Event κ)) :
    (∀ os s, run (step pf) (start q) es = .ok (os, s) →
      (∀ c, Served pf q c es os s) ∧ Started os.flatten) ∧
    ∀ n b, 1 ≤ n → pf.NoWrap b → q = FrameQueue.initialised pf n b →
      ∃ os s, run (step pf) (start q) es = .ok (os, s) :=
  ⟨fun _ _ h => served_run h, fun _ _ hn hw hq => hq ▸ run_total hw hn es⟩

/-- One client, one buffer before its track opens and one after: it streams, and has been sent the second. -/
theorem fan_out_oneClient :
    ∃ os s, run (step (FrameQueue.Platform.ideal fun _ _ => 0))
        (start (FrameQueue.initialised (FrameQueue.Platform.ideal fun _ _ => 0) 1 4))
        [.register "999" 0, .camBuffer (FrameQueue.wholeFrame 1) (fun _ => false), .trackOpen 0 0,
          .camBuffer (FrameQueue.wholeFrame 2) (fun _ => false)] = .ok (os, s) ∧
      s.clients.lookup "999" = some 0 ∧ (s.object 0).state = .Ready ∧
      sendsTo 0 os.flatten = [((FrameQueue.wholeFrame 2).payload, false)] ∧
      Served (FrameQueue.Platform.ideal fun _ _ => 0)
        (FrameQueue.initialised (FrameQueue.Platform.ideal fun _ _ => 0) 1 4) 0
        [.register "999" 0, .camBuffer (FrameQueue.wholeFrame 1) (fun _ => false), .trackOpen 0 0,
          .camBuffer (FrameQueue.wholeFrame 2) (fun _ => false)] os s ∧ Started os.flatten := by
  obtain ⟨hserved, -⟩ := fan_out (FrameQueue.Platform.ideal fun _ _ => 0)
    (FrameQueue.initialised (FrameQueue.Platform.ideal fun _ _ => 0) 1 4)
    [.register "999" 0, .camBuffer (FrameQueue.wholeFrame 1) (fun _ => false), .trackOpen 0 0,
      .camBuffer (FrameQueue.wholeFrame 2) (fun _ => false)]
  obtain ⟨os, s, h, hin, hstate, hsends⟩ : ∃ os s, run (step (FrameQueue.Platform.ideal fun _ _ => 0))
      (start (FrameQueue.initialised (FrameQueue.Platform.ideal fun _ _ => 0) 1 4))
      [.register "999" 0, .camBuffer (FrameQueue.wholeFrame 1) (fun _ => false), .trackOpen 0 0,
        .camBuffer (FrameQueue.wholeFrame 2) (fun _ => false)] = .ok (os, s) ∧
      s.clients.lookup "999" = some 0 ∧ (s.object 0).state = .Ready ∧
      sendsTo 0 os.flatten = [((FrameQueue.wholeFrame 2).payload, false)] := ⟨_, _, rfl, rfl, rfl, rfl⟩
  exact ⟨os, s, h, hin, hstate, hsends, (hserved os s h).1 0, (hserved os s h).2⟩

end RcControl.Streaming
