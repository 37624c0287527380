import RcControl.Server.Model

/-!
# What the handlers do

One equation for each handler and each thing `clients` can hold under the id, and `onData_cases`: a
text makes `onData` do one of five things, whatever the state. What follows about runs is derived
from these.
-/

namespace RcControl.Server

open Lib

section Handlers

variable {env : Env} {s : Server} {con : ConnId} {text : String} {pc : PeerId} {o : PcOp}

lemma onCall_of_none (h : s.clients.lookup id = none) :
    onCall s con = ({ actions := [(⟨con, s.created con⟩, .inserted)] },
      { s with
        created := Function.update s.created con (s.created con + 1)
        clients := s.clients.insert id ⟨con, s.created con⟩ }) := by
  simp [onCall, createPeerConnection, h, Registry.emplace_of_lookup_none h]

lemma onCall_of_some (h : s.clients.lookup id = some pc) :
    onCall s con = ({}, { s with created := Function.update s.created con (s.created con + 1) }) := by
  simp [onCall, createPeerConnection, h, Registry.emplace_of_lookup h]

lemma onOperation_none (env : Env) (s : Server) :
    ∃ threw, onOperation env s none = ({ threw := threw }, s) := by
  unfold onOperation
  rcases s.clients.lookup id with _ | pc
  · exact ⟨false, rfl⟩
  · exact ⟨true, rfl⟩

lemma onOperation_of_none (h : s.clients.lookup id = none) (o : Option PcOp) :
    onOperation env s o = ({}, s) := by
  simp only [onOperation, h]

lemma onOperation_of_some (h : s.clients.lookup id = some pc) (o : PcOp) :
    onOperation env s (some o) = perform env s pc o := by
  simp only [onOperation, h]

lemma perform_actions (env : Env) (s : Server) (pc : PeerId) (o : PcOp) :
    (perform env s pc o).1.actions = [(pc, .op o)] := by
  unfold perform
  split <;> rfl

/-- An operation, whether it throws or not, changes the history of its peer connection only. -/
lemma perform_state (env : Env) (s : Server) (pc : PeerId) (o : PcOp) :
    ∃ l, (perform env s pc o).2 = { s with history := Function.update s.history pc l } := by
  unfold perform
  split
  · exact ⟨_, rfl⟩
  · exact ⟨s.history pc, by rw [Function.update_eq_self]⟩

lemma onHangup_of_none (h : s.clients.lookup id = none) : onHangup s = ({}, s) := by
  simp only [onHangup, h]

lemma onHangup_of_some (h : s.clients.lookup id = some pc) :
    onHangup s = ({ actions := [(pc, .op .close), (pc, .removed)] },
      { s with
        history := Function.update s.history pc (s.history pc ++ [.close])
        clients := s.clients.erase id }) := by
  simp only [onHangup, h]

/-- What `onData` does with what it received, in cases: nothing is known of it, it stays out of
everything, or it calls, operates or hangs up. -/
theorem dispatch_cases (env : Env) (con : ConnId) (r : Received) :
    (r = .undefined ∧ ∀ s, dispatch env s con r = .error .flowsOff) ∨
    (r.operates env = false ∧ r.isCall = false ∧
      ∀ s, ∃ threw, dispatch env s con r = .ok ({ threw := threw }, s)) ∨
    (r.isCall = true ∧ r.operates env = false ∧ ∀ s, dispatch env s con r = .ok (onCall s con)) ∨
    (r.operates env = true ∧ r.isCall = false ∧ r.isHangup = false ∧
      ∃ o, ∀ s, dispatch env s con r = .ok (onOperation env s (some o))) ∨
    (r.operates env = true ∧ r.isCall = false ∧ r.isHangup = true ∧
      ∀ s, dispatch env s con r = .ok (onHangup s)) := by
  rcases r with threw | _ | ⟨_ | _ | _ | _, type, message⟩
  · exact Or.inr (Or.inl ⟨rfl, rfl, fun _ => ⟨threw, rfl⟩⟩)
  · exact Or.inl ⟨rfl, fun _ => rfl⟩
  · exact Or.inr (Or.inr (Or.inl ⟨rfl, rfl, fun _ => rfl⟩))
  · simp only [dispatch, Received.operates]
    rcases hd : descriptionOf env type message with _ | o
    · refine Or.inr (Or.inl ⟨rfl, rfl, fun s => ?_⟩)
      obtain ⟨threw, hno⟩ := onOperation_none env s
      exact ⟨threw, congrArg _ hno⟩
    · exact Or.inr (Or.inr (Or.inr (Or.inl ⟨rfl, rfl, rfl, o, fun _ => rfl⟩)))
  · simp only [dispatch, Received.operates]
    rcases hd : candidateOf env message with _ | o
    · refine Or.inr (Or.inl ⟨rfl, rfl, fun s => ?_⟩)
      obtain ⟨threw, hno⟩ := onOperation_none env s
      exact ⟨threw, congrArg _ hno⟩
    · exact Or.inr (Or.inr (Or.inr (Or.inl ⟨rfl, rfl, rfl, o, fun _ => rfl⟩)))
  · exact Or.inr (Or.inr (Or.inr (Or.inr ⟨rfl, rfl, rfl, fun _ => rfl⟩)))

/-- The same of a text. -/
theorem onData_cases (env : Env) (con : ConnId) (text : String) :
    (received env text = .undefined ∧ ∀ s, onData env s con text = .error .flowsOff) ∨
    (operates env text = false ∧ isCall env text = false ∧
      ∀ s, ∃ threw, onData env s con text = .ok ({ threw := threw }, s)) ∨
    (isCall env text = true ∧ operates env text = false ∧
      ∀ s, onData env s con text = .ok (onCall s con)) ∨
    (operates env text = true ∧ isCall env text = false ∧ isHangup env text = false ∧
      ∃ o, ∀ s, onData env s con text = .ok (onOperation env s (some o))) ∨
    (operates env text = true ∧ isCall env text = false ∧ isHangup env text = true ∧
      ∀ s, onData env s con text = .ok (onHangup s)) :=
  dispatch_cases env con (received env text)

lemma Received.operates_of_isHangup {r : Received} (h : r.isHangup = true) : r.operates env = true := by
  revert h
  unfold Received.isHangup Received.operates
  rcases r with threw | _ | ⟨_ | _ | _ | _, type, message⟩ <;> simp

/-- What becomes of `clients`: a call emplaces, a hangup erases, and nothing else touches it. -/
theorem dispatch_clients {r : Received} {o : Output} {s' : Server} (h : dispatch env s con r = .ok (o, s')) :
    s'.clients =
      if r.isCall then s.clients.emplace id ⟨con, s.created con⟩
      else if r.isHangup then s.clients.erase id else s.clients := by
  rcases dispatch_cases env con r with ⟨-, heq⟩ | ⟨hop, hcall, heq⟩ | ⟨hcall, -, heq⟩ |
    ⟨-, hcall, hup, op, heq⟩ | ⟨-, hcall, hup, heq⟩
  · simp [heq] at h
  · obtain ⟨threw, hthrew⟩ := heq s
    rw [hthrew] at h
    obtain ⟨-, rfl⟩ := Prod.mk.inj (Except.ok.inj h)
    have hup : r.isHangup = false := by
      by_contra hup
      rw [Received.operates_of_isHangup (by simpa using hup)] at hop
      simp at hop
    simp [hcall, hup]
  · rw [heq] at h
    obtain rfl : (onCall s con).2 = s' := congrArg Prod.snd (Except.ok.inj h)
    rw [if_pos hcall]
    rfl
  · rw [heq] at h
    obtain rfl : (onOperation env s (some op)).2 = s' := congrArg Prod.snd (Except.ok.inj h)
    rw [if_neg (by simp [hcall]), if_neg (by simp [hup])]
    rcases hs : s.clients.lookup id with _ | pc
    · rw [onOperation_of_none hs]
    · obtain ⟨l, hl⟩ := perform_state env s pc op
      rw [onOperation_of_some hs, hl]
  · rw [heq] at h
    obtain rfl : (onHangup s).2 = s' := congrArg Prod.snd (Except.ok.inj h)
    rw [if_neg (by simp [hcall]), if_pos hup]
    rcases hs : s.clients.lookup id with _ | pc
    · rw [onHangup_of_none hs, Registry.erase_of_lookup_none hs]
    · rw [onHangup_of_some hs]

/-- A text that operates does so on the entry. -/
lemma operates_seen (con : ConnId) (hop : operates env text = true) (hs : s.clients.lookup id = some pc) :
    ∃ o s', step env s (.data con text) = .ok (o, s') ∧ ∃ a, (pc, a) ∈ o.actions := by
  rcases onData_cases env con text with ⟨hund, -⟩ | ⟨hno, -⟩ | ⟨-, hno, -⟩ | ⟨-, -, -, o, heq⟩ |
    ⟨-, -, -, heq⟩
  · simp [operates, hund, Received.operates] at hop
  · simp [hno] at hop
  · simp [hno] at hop
  · refine ⟨(perform env s pc o).1, (perform env s pc o).2,
      (heq s).trans (congrArg _ (onOperation_of_some hs o)), .op o, ?_⟩
    rw [perform_actions]
    exact List.mem_singleton_self _
  · exact ⟨_, _, (heq s).trans (congrArg _ (onHangup_of_some hs)), .removed, by simp⟩

/-- The callback for gathering sends at most. -/
lemma onGatheringStateChange_eq (env : Env) (s : Server) (pc : PeerId) (state : GatheringState)
    (type sdp : String) :
    ∃ o, onGatheringStateChange env s pc state type sdp = (o, s) ∧ o.actions = [] := by
  unfold onGatheringStateChange
  split
  · split
    · exact ⟨_, rfl, rfl⟩
    · exact ⟨_, rfl, rfl⟩
  · exact ⟨_, rfl, rfl⟩

end Handlers

/-! ### Two texts -/

def callText : String := "\x7b\"what\":\"call\"\x7d"

def hangupText : String := "\x7b\"what\":\"hangup\"\x7d"

/-- A parser that knows these two texts. -/
def sampleEnv : Env where
  parse text :=
    if text = callText then some (.object [("what", .string "call")])
    else if text = hangupText then some (.object [("what", .string "hangup")])
    else none
  dump _ := ""
  description _ _ := true
  candidate _ _ := true
  accepts _ _ := true

end RcControl.Server
