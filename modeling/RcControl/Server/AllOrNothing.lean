import RcControl.Server.Handlers

/-!
# A message does one thing or nothing

A text is parsed twice, looked up and read field by field, and each of that may throw. Everything that
may throw comes before what has an effect, so a text does all of what its `what` names or none of it
(`allOrNothing_iff`). Not so a text whose `what` names nothing: `getType` has no value to return.
-/

namespace RcControl.Server

open Lib

/-- The remote description after these operations: the last that was set. -/
def remoteDescription (ops : List PcOp) : Option (String × String) :=
  (ops.filterMap fun
    | .setRemoteDescription sdp type => some (sdp, type)
    | _ => none).getLast?

/-- The candidates added by these operations. -/
def candidates (ops : List PcOp) : List (String × String) :=
  ops.filterMap fun
    | .addRemoteCandidate candidate mid => some (candidate, mid)
    | _ => none

/-- The registry, the remote descriptions and the candidates are as they were. -/
structure Untouched (s s' : Server) : Prop where
  clients : s'.clients = s.clients
  description : ∀ pc, remoteDescription (s'.history pc) = remoteDescription (s.history pc)
  candidates : ∀ pc, candidates (s'.history pc) = candidates (s.history pc)

/-- The registry and all peer connections but `pc` are as they were. -/
def OnlyOn (pc : PeerId) (s s' : Server) : Prop :=
  s'.clients = s.clients ∧ ∀ q, q ≠ pc → s'.history q = s.history q

/-- All of what the message names has been done. -/
def Completes (env : Env) (s : Server) (con : ConnId) (s' : Server) : Received → Prop
  | .signal .call _ _ =>
    s'.clients = s.clients.insert id ⟨con, s.created con⟩ ∧ s'.history = s.history
  | .signal .answer type message =>
    ∃ pc sdp, s.clients.lookup id = some pc ∧
      descriptionOf env type message = some (.setRemoteDescription sdp type) ∧
      remoteDescription (s'.history pc) = some (sdp, type) ∧
      candidates (s'.history pc) = candidates (s.history pc) ∧ OnlyOn pc s s'
  | .signal .addIceCandidate _ message =>
    ∃ pc candidate mid, s.clients.lookup id = some pc ∧
      candidateOf env message = some (.addRemoteCandidate candidate mid) ∧
      remoteDescription (s'.history pc) = remoteDescription (s.history pc) ∧
      candidates (s'.history pc) = candidates (s.history pc) ++ [(candidate, mid)] ∧ OnlyOn pc s s'
  | .signal .hangup _ _ =>
    ∃ pc, s.clients.lookup id = some pc ∧ s'.history pc = s.history pc ++ [.close] ∧
      s'.clients = s.clients.erase id ∧ ∀ q, q ≠ pc → s'.history q = s.history q
  | _ => False

/-- `onData` has a result, and it is all of what the text names, or nothing. -/
def AllOrNothing (env : Env) (s : Server) (con : ConnId) (text : String) : Prop :=
  ∃ o s', onData env s con text = .ok (o, s') ∧
    (Completes env s con s' (received env text) ∨ Untouched s s')

/-- The text is an object whose `what` is a string, and none of the four. -/
def UnknownWhat (env : Env) (text : String) : Prop :=
  ∃ message what, env.parse text = some message ∧ message.find? "what" = some (.string what) ∧
    what ∉ ["call", "answer", "addIceCandidate", "hangup"]

section AllOrNothing

variable {env : Env} {s s' : Server} {con : ConnId} {text type : String} {message : Json} {o : PcOp}
  {pc : PeerId}

lemma getType_eq_none (s : String) :
    getType s = none ↔ s ∉ ["call", "answer", "addIceCandidate", "hangup"] := by
  simp only [getType, List.mem_cons, List.not_mem_nil, or_false, not_or]
  split_ifs <;> simp_all

/-- `getType` flows off its end on the texts that name nothing. -/
theorem received_eq_undefined (env : Env) (text : String) :
    received env text = .undefined ↔ UnknownWhat env text := by
  unfold received UnknownWhat
  rcases hparse : env.parse text with _ | message
  · simp
  simp only [readMessage, Option.some.injEq, ← getType_eq_none]
  rcases hfind : message.find? "what" with _ | what
  · simp [hfind]
  cases what with
  | string what =>
    rcases hget : getType what with _ | t
    · simp [hfind, Json.getString, hget]
    · simp [hfind, Json.getString, hget]
  | _ => simp [hfind, Json.getString]

lemma descriptionOf_shape (h : descriptionOf env type message = some o) :
    ∃ sdp, o = .setRemoteDescription sdp type := by
  unfold descriptionOf at h
  split at h
  · simp at h
  · split at h
    · simp at h
    · split at h
      · exact ⟨_, (Option.some.inj h).symm⟩
      · simp at h

lemma candidateOf_shape (h : candidateOf env message = some o) :
    ∃ candidate mid, o = .addRemoteCandidate candidate mid := by
  unfold candidateOf at h
  split at h
  · simp at h
  · split at h
    · simp at h
    · split at h
      · simp at h
      · split at h
        · exact ⟨_, _, (Option.some.inj h).symm⟩
        · simp at h

lemma Untouched.refl (s : Server) : Untouched s s := ⟨rfl, fun _ => rfl, fun _ => rfl⟩

/-- An operation takes effect on its peer connection and nowhere else, or throws and does nothing. -/
lemma perform_effect (env : Env) (s : Server) (pc : PeerId) (o : PcOp) :
    ((perform env s pc o).2.history pc = s.history pc ++ [o] ∧ OnlyOn pc s (perform env s pc o).2) ∨
      (perform env s pc o).2 = s := by
  unfold perform
  split
  · refine Or.inl ⟨Function.update_self .., rfl, fun q hq => ?_⟩
    exact Function.update_of_ne hq ..
  · exact Or.inr rfl

/-- An operation that cannot be read, has nowhere to go or throws does nothing. -/
lemma onOperation_effect (env : Env) (s : Server) (o : Option PcOp) :
    (∃ pc op, s.clients.lookup id = some pc ∧ o = some op ∧
      (onOperation env s o).2.history pc = s.history pc ++ [op] ∧ OnlyOn pc s (onOperation env s o).2) ∨
    (onOperation env s o).2 = s := by
  rcases o with _ | op
  · obtain ⟨threw, heq⟩ := onOperation_none env s
    exact Or.inr (by rw [heq])
  · rcases hs : s.clients.lookup id with _ | pc
    · exact Or.inr (by rw [onOperation_of_none hs])
    · rw [onOperation_of_some hs]
      rcases perform_effect env s pc op with ⟨hhist, honly⟩ | hsame
      · exact Or.inl ⟨pc, op, rfl, rfl, hhist, honly⟩
      · exact Or.inr hsame

lemma completes_or_untouched_call (env : Env) (s : Server) (con : ConnId) (type : String)
    (message : Json) :
    Completes env s con (onCall s con).2 (.signal .call type message) ∨ Untouched s (onCall s con).2 := by
  rcases hs : s.clients.lookup id with _ | pc
  · left
    rw [onCall_of_none hs]
    exact ⟨rfl, rfl⟩
  · -- the new peer connection is dropped again
    right
    rw [onCall_of_some hs]
    exact ⟨rfl, fun _ => rfl, fun _ => rfl⟩

lemma completes_or_untouched_answer (env : Env) (s : Server) (con : ConnId) (type : String)
    (message : Json) :
    Completes env s con (onOperation env s (descriptionOf env type message)).2
      (.signal .answer type message) ∨
    Untouched s (onOperation env s (descriptionOf env type message)).2 := by
  rcases onOperation_effect env s (descriptionOf env type message) with
    ⟨pc, op, hpc, hop, hhist, honly⟩ | hsame
  · obtain ⟨sdp, rfl⟩ := descriptionOf_shape hop
    refine Or.inl ⟨pc, sdp, hpc, hop, ?_, ?_, honly⟩
    · rw [hhist]
      simp [remoteDescription]
    · rw [hhist]
      simp [candidates]
  · rw [hsame]
    exact Or.inr (Untouched.refl s)

lemma completes_or_untouched_candidate (env : Env) (s : Server) (con : ConnId) (type : String)
    (message : Json) :
    Completes env s con (onOperation env s (candidateOf env message)).2
      (.signal .addIceCandidate type message) ∨
    Untouched s (onOperation env s (candidateOf env message)).2 := by
  rcases onOperation_effect env s (candidateOf env message) with ⟨pc, op, hpc, hop, hhist, honly⟩ | hsame
  · obtain ⟨candidate, mid, rfl⟩ := candidateOf_shape hop
    refine Or.inl ⟨pc, candidate, mid, hpc, hop, ?_, ?_, honly⟩
    · rw [hhist]
      simp [remoteDescription]
    · rw [hhist]
      simp [candidates]
  · rw [hsame]
    exact Or.inr (Untouched.refl s)

lemma completes_or_untouched_hangup (env : Env) (s : Server) (con : ConnId) (type : String)
    (message : Json) :
    Completes env s con (onHangup s).2 (.signal .hangup type message) ∨ Untouched s (onHangup s).2 := by
  rcases hs : s.clients.lookup id with _ | pc
  · rw [onHangup_of_none hs]
    exact Or.inr (Untouched.refl s)
  · rw [onHangup_of_some hs]
    refine Or.inl ⟨pc, hs, Function.update_self .., rfl, fun q hq => ?_⟩
    exact Function.update_of_ne hq ..

/-- **All or nothing.** In every state and for every text, `onData` does all of what the text names or
nothing of it, exactly if the text is not an object whose `what` is a string other than the four. -/
theorem allOrNothing_iff (env : Env) (s : Server) (con : ConnId) (text : String) :
    AllOrNothing env s con text ↔ ¬ UnknownWhat env text := by
  rw [← received_eq_undefined]
  unfold AllOrNothing onData
  rcases received env text with threw | _ | ⟨_ | _ | _ | _, type, message⟩
  · exact iff_of_true ⟨_, _, rfl, Or.inr (Untouched.refl s)⟩ (by simp)
  · simp [dispatch]
  · exact iff_of_true ⟨_, _, rfl, completes_or_untouched_call env s con type message⟩ (by simp)
  · exact iff_of_true ⟨_, _, rfl, completes_or_untouched_answer env s con type message⟩ (by simp)
  · exact iff_of_true ⟨_, _, rfl, completes_or_untouched_candidate env s con type message⟩ (by simp)
  · exact iff_of_true ⟨_, _, rfl, completes_or_untouched_hangup env s con type message⟩ (by simp)

end AllOrNothing

def byeText : String := "\x7b\"what\":\"bye\"\x7d"

/-- A server that has received nothing yet receives a text that names nothing. -/
theorem byeText_undefined :
    ¬ ∀ (env : Env) (s : Server) (con : ConnId) (text : String), AllOrNothing env s con text := by
  intro hclaim
  let env : Env := { sampleEnv with
    parse := fun text => if text = byeText then some (.object [("what", .string "bye")]) else none }
  obtain ⟨o, s', h, -⟩ := hclaim env start 0 byeText
  have hfault : onData env start 0 byeText = .error .flowsOff := rfl
  rw [hfault] at h
  exact absurd h (by simp)

end RcControl.Server
