import RcControl.Signalling.Sessions

/-!
# The history of a session

A session that has opened has sent its call first, and no call after it, and it has sent a hangup
exactly if the user clicked on Hangup while the socket was open (`Tracks`). What the server has read is
what was sent, but for what is still on its way, and an entry is that of a session whose call was read
and no hangup of that session after it (`Recorded`).
-/

namespace RcControl.Signalling

open Lib Lib.Run Browser
open Server (ConnId PeerId Json readMessage)

/-! ### The phase of a session -/

/-- The socket has not opened. -/
structure Unopened (con : ConnId) (notes : List Note) (g : Signal) : Prop where
  opened : .opened con ∉ notes
  before : Before g
  ws : g.ws = true
  closed : .closed con ∈ notes → g.readyState = .closed
  sent : sentBy con notes = []
  clicked : .hangupClicked con .open ∉ notes

/-- The socket has opened. -/
structure Opened (con : ConnId) (notes : List Note) (g : Signal) : Prop where
  opened : .opened con ∈ notes
  phase : During g ∧ .closed con ∉ notes ∨ After g ∧ .closed con ∈ notes
  sent : ∃ rest, sentBy con notes = callRequest :: rest ∧
    (∀ m ∈ rest, (readMessage m).isCall = false) ∧
    ((∃ m ∈ rest, (readMessage m).isHangup = true) ↔ .hangupClicked con .open ∈ notes)

/-- The notes of a session go with its state. -/
def Tracks (con : ConnId) (notes : List Note) (g : Signal) : Prop :=
  Unopened con notes g ∨ Opened con notes g

section Tracks

variable {con : ConnId} {notes o : List Note} {g g' : Signal} {r : Effect × Signal}

lemma Unopened.stays (h : Unopened con notes g) (hr : Stays g r) :
    Unopened con (notes ++ r.1.sent.map (.sent con)) r.2 := by
  rw [hr.sent_eq_nil h.before.readyState, List.map_nil, List.append_nil]
  refine ⟨h.opened, hr.before h.before, hr.ws.trans h.ws, fun hclosed => ?_, h.sent, h.clicked⟩
  rcases hr.readyState with heq | ⟨hne, -⟩
  · exact heq.trans (h.closed hclosed)
  · exact absurd (h.closed hclosed) hne

lemma Opened.stays (h : Opened con notes g) (hr : Stays g r) :
    Opened con (notes ++ r.1.sent.map (.sent con)) r.2 := by
  obtain ⟨rest, hsent, hcall, hup⟩ := h.sent
  refine ⟨List.mem_append_left _ h.opened, ?_, rest ++ r.1.sent, by simp [hsent], ?_, ?_⟩
  · rcases h.phase with ⟨hduring, hclosed⟩ | ⟨hafter, hclosed⟩
    · exact Or.inl ⟨hr.during hduring, by simpa using hclosed⟩
    · exact Or.inr ⟨hr.after hafter, List.mem_append_left _ hclosed⟩
  · intro m hm
    rcases List.mem_append.1 hm with hm | hm
    · exact hcall m hm
    · exact (hr.sent m hm).2.1
  · have hreply : ¬ ∃ m ∈ r.1.sent, (readMessage m).isHangup = true := by
      rintro ⟨m, hm, hm'⟩
      simp [(hr.sent m hm).2.2] at hm'
    simp only [List.mem_append, or_and_right, exists_or, or_iff_left hreply, hup]
    simp

lemma Unopened.opens (h : Unopened con notes g) (hready : g.readyState = .connecting) :
    Opened con (notes ++ .opened con :: g.onopen.1.sent.map (.sent con)) g.onopen.2 := by
  obtain ⟨hduring, hsent, -⟩ := Before.onopen g h.ws
  have hclosed : .closed con ∉ notes := fun hin => by simp [h.closed hin] at hready
  have hclicked := h.clicked
  refine ⟨by simp, Or.inl ⟨hduring, by simp [hclosed, hsent]⟩, [], ?_, by simp, by simp [hclicked, hsent]⟩
  rw [sentBy_append, h.sent, hsent]
  simp [sentBy]

lemma Unopened.closes (h : Unopened con notes g) :
    Unopened con (notes ++ [.closed con]) g.onclose.2 := by
  have hready : g.onclose.2.readyState = .closed := by
    simp [Signal.onclose, h.before.pc]
  refine ⟨?_, h.before.onclose, ?_, fun _ => hready, ?_, ?_⟩
  · simpa using h.opened
  · simp [Signal.onclose, h.before.pc, h.ws]
  · simpa [sentBy] using h.sent
  · simpa using h.clicked

lemma Opened.closes (h : Opened con notes g) (hready : g.readyState ≠ .closed) :
    Opened con (notes ++ [.closed con]) g.onclose.2 := by
  rcases h.phase with ⟨hduring, -⟩ | ⟨hafter, -⟩
  · obtain ⟨rest, hsent, hcall, hup⟩ := h.sent
    refine ⟨List.mem_append_left _ h.opened, Or.inr ⟨hduring.onclose, by simp⟩, rest, ?_, hcall, ?_⟩
    · simpa [sentBy] using hsent
    · simpa using hup
  · exact absurd hafter.readyState hready

lemma Unopened.clicks (h : Unopened con notes g) :
    Unopened con (notes ++ .hangupClicked con g.readyState :: g.hangup.1.sent.map (.sent con)) g := by
  have hready := h.before.readyState
  rw [hangup_sent, if_neg fun hand => hready hand.2]
  refine ⟨?_, h.before, h.ws, fun hclosed => h.closed (by simpa using hclosed), ?_, ?_⟩
  · simpa using h.opened
  · simpa [sentBy] using h.sent
  · simpa [Ne.symm hready] using h.clicked

lemma Opened.clicks (h : Opened con notes g) :
    Opened con (notes ++ .hangupClicked con g.readyState :: g.hangup.1.sent.map (.sent con)) g := by
  obtain ⟨rest, hsent, hcall, hup⟩ := h.sent
  have hphase : ∀ ms : List Json, During g ∧ .closed con ∉
      notes ++ .hangupClicked con g.readyState :: ms.map (.sent con) ∨ After g ∧ .closed con ∈
      notes ++ .hangupClicked con g.readyState :: ms.map (.sent con) := by
    intro ms
    rcases h.phase with ⟨hduring, hclosed⟩ | ⟨hafter, hclosed⟩
    · exact Or.inl ⟨hduring, by simpa using hclosed⟩
    · exact Or.inr ⟨hafter, List.mem_append_left _ hclosed⟩
  by_cases hopen : g.ws = true ∧ g.readyState = .open
  · rw [hangup_sent, if_pos hopen]
    refine ⟨List.mem_append_left _ h.opened, hphase _, rest ++ [hangupRequest], ?_, ?_, ?_⟩
    · rw [sentBy_append, hsent]
      simp [sentBy]
    · intro m hm
      rcases List.mem_append.1 hm with hm | hm
      · exact hcall m hm
      · rw [List.mem_singleton.1 hm, readMessage_hangupRequest]
        rfl
    · refine iff_of_true ⟨hangupRequest, by simp, ?_⟩ (by simp [hopen.2])
      rw [readMessage_hangupRequest]
      rfl
  · rw [hangup_sent, if_neg hopen]
    have hready : g.readyState ≠ .open := by
      rcases h.phase with ⟨hduring, -⟩ | ⟨hafter, -⟩
      · exact fun heq => hopen ⟨hduring.ws, heq⟩
      · simp [hafter.readyState]
    refine ⟨List.mem_append_left _ h.opened, hphase _, rest, ?_, hcall, ?_⟩
    · rw [sentBy_append, hsent]
      simp [sentBy]
    · simpa [Ne.symm hready] using hup

/-- **One step of a session keeps track of it.** -/
theorem Tracks.step (h : Tracks con notes g) (hstep : Local con g o g') : Tracks con (notes ++ o) g' := by
  cases hstep with
  | idle => rwa [List.append_nil]
  | opens hready =>
    rcases h with h | h
    · exact Or.inr (h.opens hready)
    · rcases h.phase with ⟨hduring, -⟩ | ⟨hafter, -⟩
      · rcases hduring.readyState with heq | heq <;> simp [heq] at hready
      · simp [hafter.readyState] at hready
  | closes hready =>
    rcases h with h | h
    · exact Or.inl h.closes
    · exact Or.inr (h.closes hready)
  | clicked =>
    rcases h with h | h
    · exact Or.inl h.clicks
    · exact Or.inr h.clicks
  | stays hr =>
    rcases h with h | h
    · exact Or.inl (h.stays hr)
    · exact Or.inr (h.stays hr)

/-- While the socket connects there is no peer connection. -/
lemma Tracks.connecting (h : Tracks con notes g) (hready : g.readyState = .connecting) :
    g.ws = true ∧ g.peer = none := by
  rcases h with hun | hop
  · exact ⟨hun.ws, hun.before.peer⟩
  · rcases hop.phase with ⟨hduring, -⟩ | ⟨hafter, -⟩
    · rcases hduring.readyState with heq | heq <;> simp [heq] at hready
    · simp [hafter.readyState] at hready

/-- The variable `pc` refers to a peer connection. -/
lemma Tracks.peer (h : Tracks con notes g) (hpc : g.pc = true) : g.peer.isSome = true := by
  rcases h with hun | hop
  · simp [hun.before.pc] at hpc
  · rcases hop.phase with ⟨hduring, -⟩ | ⟨hafter, -⟩
    · obtain ⟨peer, hpeer, -⟩ := Option.map_eq_some_iff.1 hduring.peer
      rw [hpeer]
      rfl
    · simp [hafter.pc] at hpc

end Tracks

/-! ### The record of a run -/

/-- What the notes of a run say of the state it leads to. -/
structure Recorded (notes : List Note) (s : Signalling) : Prop where
  wf : Wf s
  tracks : ∀ con, Tracks con (notes.filter (about con)) (s.signal con)
  up : ∀ con, sentBy con notes = handledOf con notes ++ s.up con
  /-- The server has read the call of the session of an entry, and no hangup of it since. -/
  entry : ∀ k pc, s.server.clients.lookup k = some pc → k = Server.id ∧
    ∃ l₁ m l₂, handledOf pc.ws notes = l₁ ++ m :: l₂ ∧ (readMessage m).isCall = true ∧
      ∀ x ∈ l₂, (readMessage x).isHangup = false
  /-- If there is one session only, the entry stays until its hangup. -/
  single : s.next ≤ 1 → (∃ m ∈ handledOf 0 notes, (readMessage m).isCall = true) →
    (∀ m ∈ handledOf 0 notes, (readMessage m).isHangup = false) →
    ∃ pc, s.server.clients.lookup Server.id = some pc ∧ pc.ws = 0

section Recorded

variable {env : Server.Env} {js : Browser.Env} {notes o : List Note} {s s' : Signalling}
  {con : ConnId} {m : Json} {es : List Event} {os : List (List Note)}

lemma not_isHangup_of_isCall {r : Server.Received} (h : r.isCall = true) : r.isHangup = false := by
  revert h
  unfold Server.Received.isCall Server.Received.isHangup
  rcases r with threw | _ | ⟨_ | _ | _ | _, type, message⟩ <;> simp

/-- Only a session that was started has sent anything. -/
lemma Recorded.lt_next (h : Recorded notes s) (hsent : sentBy con notes ≠ []) : con < s.next := by
  rcases h.tracks con with hun | hop
  · rw [← sentBy_filter] at hsent
    exact absurd hun.sent hsent
  · apply h.wf.lt_of_ne_new
    intro hnew
    rcases hop.phase with ⟨hduring, -⟩ | ⟨hafter, -⟩
    · simpa [hnew, Signal.new] using hduring.peer
    · simpa [hnew, Signal.new] using hafter.peer

lemma handledOf_handled (c con : ConnId) (m : Json) :
    handledOf c [Note.handled con m] = if con = c then [m] else [] := by
  by_cases hc : con = c <;> simp [handledOf, hc]

/-- An entry survives every message but a hangup. -/
lemma Recorded.entry_kept (h : Recorded notes s) {k : String} {pc : PeerId}
    (hpc : s.server.clients.lookup k = some pc) (con : ConnId)
    (hup : (readMessage m).isHangup = false) :
    k = Server.id ∧ ∃ l₁ x l₂, handledOf pc.ws (notes ++ [.handled con m]) = l₁ ++ x :: l₂ ∧
      (readMessage x).isCall = true ∧ ∀ y ∈ l₂, (readMessage y).isHangup = false := by
  obtain ⟨hid, l₁, x, l₂, heq, hx, hl₂⟩ := h.entry k pc hpc
  refine ⟨hid, l₁, x, l₂ ++ if con = pc.ws then [m] else [], ?_, hx, ?_⟩
  · rw [handledOf_append, heq, handledOf_handled, List.append_assoc, List.cons_append]
  · intro y hy
    rcases List.mem_append.1 hy with hy | hy
    · exact hl₂ y hy
    · split at hy
      · rw [List.mem_singleton.1 hy]
        exact hup
      · exact absurd hy List.not_mem_nil

lemma Recorded.entry_step (h : Recorded notes s) (hread : Unread s o s' ∨ ∃ con m, Reads s o s' con m)
    (k : String) (pc : PeerId) (hk : s'.server.clients.lookup k = some pc) :
    k = Server.id ∧ ∃ l₁ m l₂, handledOf pc.ws (notes ++ o) = l₁ ++ m :: l₂ ∧
      (readMessage m).isCall = true ∧ ∀ x ∈ l₂, (readMessage x).isHangup = false := by
  rcases hread with ⟨hnone, hclients⟩ | ⟨con, m, -, rfl, hclients⟩
  · rw [handledOf_append, hnone, List.append_nil]
    exact h.entry k pc (hclients ▸ hk)
  rw [hclients] at hk
  by_cases hcall : (readMessage m).isCall = true
  · have hup := not_isHangup_of_isCall hcall
    rw [if_pos hcall] at hk
    rcases hs : s.server.clients.lookup Server.id with _ | q
    · by_cases hid : k = Server.id
      · -- the entry is the caller's
        subst hid
        rw [Registry.lookup_emplace, hs, Option.getD_none, Option.some.injEq] at hk
        subst hk
        refine ⟨rfl, handledOf con notes, m, [], ?_, hcall, fun _ hx => absurd hx List.not_mem_nil⟩
        rw [handledOf_append, handledOf_handled, if_pos rfl]
      · rw [Registry.lookup_emplace_ne hid] at hk
        exact h.entry_kept hk con hup
    · rw [Registry.emplace_of_lookup hs] at hk
      exact h.entry_kept hk con hup
  · rw [if_neg hcall] at hk
    by_cases hup : (readMessage m).isHangup = true
    · rw [if_pos hup] at hk
      by_cases hid : k = Server.id
      · subst hid
        rw [AList.lookup_erase] at hk
        simp at hk
      · rw [AList.lookup_erase_ne hid] at hk
        exact absurd (h.entry k pc hk).1 hid
    · rw [if_neg hup] at hk
      exact h.entry_kept hk con (by simpa using hup)

lemma Recorded.single_step (h : Recorded notes s) (ha : Advances s o s') (hnext : s'.next ≤ 1)
    (hcall : ∃ m ∈ handledOf 0 (notes ++ o), (readMessage m).isCall = true)
    (hup : ∀ m ∈ handledOf 0 (notes ++ o), (readMessage m).isHangup = false) :
    ∃ pc, s'.server.clients.lookup Server.id = some pc ∧ pc.ws = 0 := by
  have hnext' : s.next ≤ 1 := le_trans ha.next hnext
  rw [handledOf_append] at hcall hup
  have hupOld : ∀ m ∈ handledOf 0 notes, (readMessage m).isHangup = false :=
    fun m hm => hup m (List.mem_append_left _ hm)
  rcases ha.reads with ⟨hnone, hclients⟩ | ⟨con, m, ⟨rest, hrest⟩, rfl, hclients⟩
  · rw [hnone, List.append_nil] at hcall
    rw [hclients]
    exact h.single hnext' hcall hupOld
  have hzero : ∀ c, sentBy c notes ≠ [] → c = 0 := fun c hc =>
    Nat.lt_one_iff.1 (lt_of_lt_of_le (h.lt_next hc) hnext')
  obtain rfl : con = 0 := hzero con (by simp [h.up, hrest])
  have hm : (readMessage m).isHangup = false := hup m (by simp [handledOf])
  rw [hclients]
  by_cases hmc : (readMessage m).isCall = true
  · rw [if_pos hmc, Registry.lookup_emplace]
    refine ⟨_, rfl, ?_⟩
    rcases hs : s.server.clients.lookup Server.id with _ | pc
    · rfl
    · obtain ⟨-, l₁, x, l₂, heq, -⟩ := h.entry Server.id pc hs
      exact hzero pc.ws (by simp [h.up, heq])
  · rw [if_neg hmc, if_neg (by simp [hm])]
    refine h.single hnext' ?_ hupOld
    obtain ⟨x, hx, hxc⟩ := hcall
    rcases List.mem_append.1 hx with hx | hx
    · exact ⟨x, hx, hxc⟩
    · simp only [handledOf, List.filterMap_cons, if_true, List.filterMap_nil, List.mem_singleton] at hx
      exact absurd (hx ▸ hxc) hmc

/-- **One step keeps the record.** -/
theorem Recorded.step (h : Recorded notes s) (ha : Advances s o s') : Recorded (notes ++ o) s' where
  wf := ha.wf
  tracks con := by
    rw [List.filter_append]
    exact (h.tracks con).step (ha.step con)
  up con := by
    rw [sentBy_append, handledOf_append, h.up, List.append_assoc, ha.up, List.append_assoc]
  entry := h.entry_step ha.reads
  single := h.single_step ha

theorem recorded_start : Recorded [] start where
  wf := ⟨fun _ _ hp => by simp [start] at hp, fun _ _ => rfl⟩
  tracks con := Or.inl ⟨by simp, ⟨rfl, rfl, by simp [start, Signal.new]⟩, rfl, by simp, rfl, by simp⟩
  up _ := rfl
  entry k pc hk := by simp [start, Server.start] at hk
  single _ hcall := by simp [handledOf] at hcall

/-- **The notes of a run record it.** -/
theorem recorded_run (h : run (step env js) start es = .ok (os, s)) : Recorded os.flatten s := by
  refine history_run (J := fun _ os s => Recorded os.flatten s) recorded_start ?_ h
  intro _ os s e o s' _ hrec hstep
  rw [List.flatten_append, List.flatten_singleton]
  exact hrec.step (step_advances hrec.wf hstep)

end Recorded

end RcControl.Signalling
