import RcControl.Lib.Unwinding
import RcControl.Server.Handlers

/-!
# Two sockets

Every `call` is filed under the same id, so the one entry of `clients` belongs to whoever called
first, and every other message goes to it, whoever sends it. `isolated_iff`: what happens to the peer
connections of one socket is independent of the messages of another exactly as long as neither finds
a peer connection of the other in the registry where it would matter.

The proof is an unwinding (`Agree`): the run without the messages of `B` has the entry of `clients` if
it belongs to `A`, and an empty registry if it belongs to `B`.
-/

namespace RcControl.Server

open Lib Lib.Run Lib.Unwinding

/-- What happens to the peer connections of a socket. -/
def actionsOf (A : ConnId) (o : Output) : List (PeerId × Action) :=
  o.actions.filter fun x => x.1.ws == A

def Event.isMessageOf (B : ConnId) : Event → Bool
  | .data con _ => con == B
  | _ => false

/-- A message, if it is one, of `A` or of `B`. -/
def Event.OfEither (A B : ConnId) : Event → Prop
  | .data con _ => con = A ∨ con = B
  | _ => True

/-- Over every prefix of the run, the same happens to the peer connections of `A` as without the
messages of `B`. -/
def Isolated (env : Env) (A B : ConnId) (es : List Event) : Prop :=
  Undisturbed (step env) (actionsOf A) (fun e => !e.isMessageOf B) start start es

/-- The entry of `clients` is one of a socket's peer connections. -/
def Holds (s : Server) (A : ConnId) : Prop := ∃ pc, s.clients.lookup id = some pc ∧ pc.ws = A

/-- `B` operates on a peer connection of `A`, or `A` calls while `B` has the entry; or `B` sends a
`what` that `getType` does not know. -/
def Interferes (env : Env) (A B : ConnId) (s : Server) : Event → Prop
  | .data con text =>
    con = B ∧ (received env text = .undefined ∨ operates env text = true ∧ Holds s A) ∨
      con = A ∧ isCall env text = true ∧ Holds s B
  | _ => False

/-! ### The run without the messages of `B` -/

section Agree

variable {A B : ConnId} {env : Env} {s t : Server} {con : ConnId} {text : String} {e : Event}

/-- `t` is `s` as `A` knows it: the entry if it is one of `A`'s, and none if it is one of `B`'s. -/
structure Agree (A B : ConnId) (s t : Server) : Prop where
  entry : (∃ pc, s.clients.lookup id = some pc ∧ t.clients.lookup id = some pc ∧ pc.ws = A) ∨
    t.clients.lookup id = none ∧ ∀ pc, s.clients.lookup id = some pc → pc.ws = B
  created : s.created A = t.created A
  history : ∀ pc, pc.ws = A → s.history pc = t.history pc

lemma Agree.refl : Agree A B start start where
  entry := Or.inr ⟨rfl, fun pc h => absurd h (by simp [start])⟩
  created := rfl
  history _ _ := rfl

lemma actionsOf_of_ne {o : Output} (h : ∀ x ∈ o.actions, x.1.ws ≠ A) : actionsOf A o = [] :=
  List.filter_eq_nil_iff.2 fun x hx => by simpa using h x hx

lemma update_history_of_ne {pc q : PeerId} (hpc : pc.ws ≠ A) (hq : q.ws = A) (l : List PcOp) :
    Function.update s.history pc l q = s.history q :=
  Function.update_of_ne (by rintro rfl; exact hpc hq) ..

/-- An operation on a peer connection of `A` in both runs. -/
lemma Agree.perform (env : Env) (h : Agree A B s t) {pc : PeerId} (hpc : pc.ws = A) (o : PcOp) :
    (Server.perform env s pc o).1 = (Server.perform env t pc o).1 ∧
      Agree A B (Server.perform env s pc o).2 (Server.perform env t pc o).2 := by
  have hh := h.history pc hpc
  simp only [Server.perform, hh]
  split
  · refine ⟨rfl, h.entry, h.created, fun q hq => ?_⟩
    simp only [Function.update_apply]
    split
    · rfl
    · exact h.history q hq
  · exact ⟨rfl, h⟩

/-- An operation on a peer connection of `B`, whoever asks for it. -/
lemma Agree.perform_left (hne : A ≠ B) (h : Agree A B s t) {pc : PeerId} (hpc : pc.ws = B)
    (o : PcOp) : actionsOf A (Server.perform env s pc o).1 = [] ∧
      Agree A B (Server.perform env s pc o).2 t := by
  have hpcA : pc.ws ≠ A := fun hA => hne (hA.symm.trans hpc)
  refine ⟨actionsOf_of_ne fun x hx => ?_, ?_⟩
  · rw [perform_actions, List.mem_singleton] at hx
    exact hx ▸ hpcA
  · obtain ⟨l, hl⟩ := perform_state env s pc o
    rw [hl]
    exact ⟨h.entry, h.created, fun q hq => (update_history_of_ne hpcA hq l).trans (h.history q hq)⟩

/-- The same where the entry, if there is one, is of `B`. -/
lemma Agree.operation_left (hne : A ≠ B) (h : Agree A B s t)
    (hB : ∀ pc, s.clients.lookup id = some pc → pc.ws = B) (env : Env) (o : PcOp) :
    actionsOf A (onOperation env s (some o)).1 = [] ∧ Agree A B (onOperation env s (some o)).2 t := by
  rcases hs : s.clients.lookup id with _ | pc
  · rw [onOperation_of_none hs]
    exact ⟨rfl, h⟩
  · rw [onOperation_of_some hs]
    exact h.perform_left hne (hB pc hs) o

/-- A call of `B`. -/
lemma Agree.call_left (hne : A ≠ B) (h : Agree A B s t) :
    actionsOf A (onCall s B).1 = [] ∧ Agree A B (onCall s B).2 t := by
  rcases hs : s.clients.lookup id with _ | pc
  · rw [onCall_of_none hs]
    have ht : t.clients.lookup id = none := by
      rcases h.entry with ⟨pc, hs', -⟩ | ⟨ht, -⟩
      · exact absurd (hs.symm.trans hs') (by simp)
      · exact ht
    refine ⟨actionsOf_of_ne fun x hx => ?_, Or.inr ⟨ht, fun q hq => ?_⟩, ?_, h.history⟩
    · rw [List.mem_singleton] at hx
      rw [hx]
      exact hne.symm
    · rw [AList.lookup_insert, Option.some.injEq] at hq
      rw [← hq]
    · exact (Function.update_of_ne hne ..).trans h.created
  · rw [onCall_of_some hs]
    exact ⟨rfl, h.entry, (Function.update_of_ne hne ..).trans h.created, h.history⟩

/-- The end of a peer connection of `B`, whoever asks for it. -/
lemma Agree.hangup_left (hne : A ≠ B) (h : Agree A B s t) (ht : t.clients.lookup id = none)
    (hB : ∀ pc, s.clients.lookup id = some pc → pc.ws = B) :
    actionsOf A (onHangup s).1 = [] ∧ Agree A B (onHangup s).2 t := by
  rcases hs : s.clients.lookup id with _ | pc
  · rw [onHangup_of_none hs]
    exact ⟨rfl, h⟩
  · have hpcA : pc.ws ≠ A := fun hA => hne (hA.symm.trans (hB pc hs))
    rw [onHangup_of_some hs]
    refine ⟨actionsOf_of_ne fun x hx => ?_, Or.inr ⟨ht, fun q hq => ?_⟩, h.created, fun q hq => ?_⟩
    · have hx : x = (pc, .op .close) ∨ x = (pc, .removed) := by simpa using hx
      rcases hx with rfl | rfl
      · exact hpcA
      · exact hpcA
    · simp only [AList.lookup_erase] at hq
      exact absurd hq (by simp)
    · exact (update_history_of_ne hpcA hq _).trans (h.history q hq)

/-- A call of `A`, where the entry is not one of `B`. -/
lemma Agree.call (h : Agree A B s t) (hno : ∀ pc, s.clients.lookup id = some pc → pc.ws ≠ B) :
    actionsOf A (onCall s A).1 = actionsOf A (onCall t A).1 ∧
      Agree A B (onCall s A).2 (onCall t A).2 := by
  rcases h.entry with ⟨pc, hs, ht, hpc⟩ | ⟨ht, hB⟩
  · rw [onCall_of_some hs, onCall_of_some ht]
    exact ⟨rfl, Or.inl ⟨pc, hs, ht, hpc⟩, by simp [h.created], h.history⟩
  · rcases hs : s.clients.lookup id with _ | pc
    · rw [onCall_of_none hs, onCall_of_none ht, h.created]
      refine ⟨rfl, Or.inl ⟨_, AList.lookup_insert .., AList.lookup_insert .., rfl⟩, ?_, h.history⟩
      simp
    · exact absurd (hB pc hs) (hno pc hs)

lemma Agree.operation (hne : A ≠ B) (h : Agree A B s t) (env : Env) (o : PcOp) :
    actionsOf A (onOperation env s (some o)).1 = actionsOf A (onOperation env t (some o)).1 ∧
      Agree A B (onOperation env s (some o)).2 (onOperation env t (some o)).2 := by
  rcases h.entry with ⟨pc, hs, ht, hpc⟩ | ⟨ht, hB⟩
  · rw [onOperation_of_some hs, onOperation_of_some ht]
    obtain ⟨hout, hag⟩ := h.perform env hpc o
    exact ⟨by rw [hout], hag⟩
  · rw [onOperation_of_none ht]
    exact h.operation_left hne hB env o

lemma Agree.hangup (hne : A ≠ B) (h : Agree A B s t) :
    actionsOf A (onHangup s).1 = actionsOf A (onHangup t).1 ∧
      Agree A B (onHangup s).2 (onHangup t).2 := by
  rcases h.entry with ⟨pc, hs, ht, hpc⟩ | ⟨ht, hB⟩
  · rw [onHangup_of_some hs, onHangup_of_some ht]
    refine ⟨rfl, Or.inr ⟨AList.lookup_erase .., fun q hq => ?_⟩, h.created, fun q hq => ?_⟩
    · simp only [AList.lookup_erase] at hq
      exact absurd hq (by simp)
    · simp only [Function.update_apply, h.history pc hpc]
      split
      · rfl
      · exact h.history q hq
  · rw [onHangup_of_none ht]
    exact h.hangup_left hne ht hB

/-- A message of `A` has the same effect on `A`'s peer connections in both runs. -/
theorem Agree.handled (hne : A ≠ B) (h : Agree A B s t)
    (hP : ¬ Interferes env A B s (.data A text)) :
    (∃ f, onData env s A text = .error f ∧ onData env t A text = .error f) ∨
      ∃ o o' s' t', onData env s A text = .ok (o, s') ∧ onData env t A text = .ok (o', t') ∧
        actionsOf A o = actionsOf A o' ∧ Agree A B s' t' := by
  rcases onData_cases env A text with ⟨-, heq⟩ | ⟨-, -, heq⟩ | ⟨hcall, -, heq⟩ | ⟨-, -, -, o, heq⟩ |
    ⟨-, -, -, heq⟩
  · exact Or.inl ⟨.flowsOff, heq s, heq t⟩
  · obtain ⟨_, hs⟩ := heq s
    obtain ⟨_, ht⟩ := heq t
    exact Or.inr ⟨_, _, s, t, hs, ht, rfl, h⟩
  · have hno : ∀ pc, s.clients.lookup id = some pc → pc.ws ≠ B := fun pc hs hws =>
      hP (Or.inr ⟨rfl, hcall, pc, hs, hws⟩)
    exact Or.inr ⟨_, _, _, _, heq s, heq t, h.call hno⟩
  · exact Or.inr ⟨_, _, _, _, heq s, heq t, h.operation hne env o⟩
  · exact Or.inr ⟨_, _, _, _, heq s, heq t, h.hangup hne⟩

/-- A message of `B` that does not interfere does nothing to `A`'s peer connections. -/
theorem Agree.removed (hne : A ≠ B) (h : Agree A B s t)
    (hP : ¬ Interferes env A B s (.data B text)) :
    ∃ o s', onData env s B text = .ok (o, s') ∧ actionsOf A o = [] ∧ Agree A B s' t := by
  rcases onData_cases env B text with ⟨hund, -⟩ | ⟨-, -, heq⟩ | ⟨-, -, heq⟩ | ⟨hop, -, -, o, heq⟩ |
    ⟨hop, -, -, heq⟩
  · exact absurd (Or.inl ⟨rfl, Or.inl hund⟩) hP
  · obtain ⟨_, hs⟩ := heq s
    exact ⟨_, s, hs, rfl, h⟩
  · exact ⟨_, _, heq s, h.call_left hne⟩
  · refine ⟨_, _, heq s, ?_⟩
    rcases h.entry with ⟨pc, hs, -, hpc⟩ | ⟨-, hB⟩
    · exact absurd (Or.inl ⟨rfl, Or.inr ⟨hop, pc, hs, hpc⟩⟩) hP
    · exact h.operation_left hne hB env o
  · refine ⟨_, _, heq s, ?_⟩
    rcases h.entry with ⟨pc, hs, -, hpc⟩ | ⟨ht, hB⟩
    · exact absurd (Or.inl ⟨rfl, Or.inr ⟨hop, pc, hs, hpc⟩⟩) hP
    · exact h.hangup_left hne ht hB

/-- A message of `B` that interferes is seen: as a fault, or as what is done to `A`'s peer
connection. -/
theorem seen_removed (hne : A ≠ B) (hP : Interferes env A B s (.data B text)) :
    seen (step env) (actionsOf A) s [.data B text] ≠ .ok [] := by
  rcases hP with ⟨-, hund | ⟨hop, pc, hs, hpc⟩⟩ | ⟨heq, -⟩
  · have herr : step env s (.data B text) = .error .flowsOff := by
      simp only [step, onData, hund, dispatch]
    rw [seen_cons_error herr]
    simp
  · obtain ⟨o, s', hst, hin⟩ := operates_seen B hop hs
    rw [seen_singleton hst, ne_eq, Except.ok.injEq]
    intro hnil
    have hmem : (pc, hin.choose) ∈ actionsOf A o :=
      List.mem_filter.2 ⟨hin.choose_spec, by simpa using hpc⟩
    rw [hnil] at hmem
    exact List.not_mem_nil hmem
  · exact absurd heq.symm hne

/-- A call of `A` while `B` has the entry is dropped, and is not without `B`'s messages. -/
theorem Agree.seen_kept (hne : A ≠ B) (h : Agree A B s t)
    (hP : Interferes env A B s (.data A text)) :
    seen (step env) (actionsOf A) s [.data A text] ≠
      seen (step env) (actionsOf A) t [.data A text] := by
  rcases hP with ⟨heq, -⟩ | ⟨-, hcall, pc, hs, hpc⟩
  · exact absurd heq hne
  -- the entry is `B`'s, so the registry of the other run is empty
  have ht : t.clients.lookup id = none := by
    rcases h.entry with ⟨q, hq, -, hqA⟩ | ⟨ht, -⟩
    · rw [hs, Option.some.injEq] at hq
      exact absurd (hqA.symm.trans (hq ▸ hpc)) hne
    · exact ht
  have hstep : ∀ r, step env r (.data A text) = .ok (onCall r A) := by
    intro r
    rcases onData_cases env A text with ⟨hund, -⟩ | ⟨-, hno, -⟩ | ⟨-, -, heq⟩ | ⟨-, hno, -⟩ |
      ⟨-, hno, -⟩
    · simp [isCall, hund, Received.isCall] at hcall
    · simp [hno] at hcall
    · exact heq r
    · simp [hno] at hcall
    · simp [hno] at hcall
  rw [seen_singleton ((hstep s).trans (congrArg _ (onCall_of_some hs))),
    seen_singleton ((hstep t).trans (congrArg _ (onCall_of_none ht)))]
  simp [actionsOf]

/-- The two runs go hand in hand until something interferes, and `A` can tell when it does. -/
theorem unwinds (env : Env) (hne : A ≠ B) :
    Unwinds (step env) (actionsOf A) (fun e => !e.isMessageOf B) (Event.OfEither A B) (Agree A B)
      (fun s e => ¬ Interferes env A B s e) where
  removed := by
    intro s t e h _ hk hP
    cases e with
    | data con text =>
      have hcon : con = B := by simpa [Event.isMessageOf] using hk
      subst hcon
      exact h.removed hne hP
    | _ => simp [Event.isMessageOf] at hk
  kept := by
    intro s t e h he hk hP
    cases e with
    | data con text =>
      have hcon : con = A := he.resolve_right (by simpa [Event.isMessageOf] using hk)
      subst hcon
      exact h.handled hne hP
    | connect con => exact Or.inr ⟨_, _, _, _, rfl, rfl, rfl, h⟩
    | disconnect con =>
      exact Or.inr ⟨_, _, _, _, rfl, rfl, rfl, h.entry, h.created, h.history⟩
    | stateChange pc state => exact Or.inr ⟨_, _, _, _, rfl, rfl, rfl, h⟩
    | gatheringStateChange pc state type sdp =>
      obtain ⟨o, hs, ho⟩ := onGatheringStateChange_eq env s pc state type sdp
      obtain ⟨o', ht, ho'⟩ := onGatheringStateChange_eq env t pc state type sdp
      refine Or.inr ⟨o, o', s, t, congrArg _ hs, congrArg _ ht, ?_, h⟩
      rw [actionsOf, actionsOf, ho, ho']
  seen_removed := by
    intro s t e _ _ hk hP
    cases e with
    | data con text =>
      have hcon : con = B := by simpa [Event.isMessageOf] using hk
      subst hcon
      exact Server.seen_removed hne (not_not.1 hP)
    | _ => simp [Event.isMessageOf] at hk
  seen_kept := by
    intro s t e h he hk hP
    cases e with
    | data con text =>
      have hcon : con = A := he.resolve_right (by simpa [Event.isMessageOf] using hk)
      subst hcon
      exact h.seen_kept hne (not_not.1 hP)
    | _ => exact absurd (fun hf => hf) hP

end Agree

/-- **Isolation.** In a run of the messages of two sockets, the same happens to the peer connections
of one as without the messages of the other exactly if no message interferes. -/
theorem isolated_iff (env : Env) {A B : ConnId} (hne : A ≠ B) (es : List Event)
    (hes : ∀ e ∈ es, e.OfEither A B) :
    Isolated env A B es ↔ Along (step env) (fun s e => ¬ Interferes env A B s e) start es :=
  undisturbed_iff (unwinds env hne) Agree.refl hes

theorem isolated_oneCall :
    Isolated sampleEnv 1 2 [.connect 1, .data 1 callText, .data 1 hangupText, .data 2 callText] ↔
      Along (step sampleEnv) (fun s e => ¬ Interferes sampleEnv 1 2 s e) start
        [.connect 1, .data 1 callText, .data 1 hangupText, .data 2 callText] := by
  refine isolated_iff sampleEnv (by decide) _ ?_
  simp [Event.OfEither]

/-- A socket calls, and another hangs up. -/
theorem foreignHangup_notIsolated :
    ¬ ∀ es : List Event, (∀ e ∈ es, e.OfEither 1 2) → Isolated sampleEnv 1 2 es := by
  intro hclaim
  have h := hclaim [.data 1 callText, .data 2 hangupText] (by simp [Event.OfEither])
    [.data 1 callText, .data 2 hangupText] (List.prefix_refl _)
  have hl : seen (step sampleEnv) (actionsOf 1) start [.data 1 callText, .data 2 hangupText] =
      .ok [(⟨1, 0⟩, .inserted), (⟨1, 0⟩, .op .close), (⟨1, 0⟩, .removed)] := by rfl
  have hr : seen (step sampleEnv) (actionsOf 1) start
      ([.data 1 callText, .data 2 hangupText].filter fun e => !e.isMessageOf 2) =
      .ok [(⟨1, 0⟩, .inserted)] := by rfl
  rw [hl, hr] at h
  simp at h

end RcControl.Server
