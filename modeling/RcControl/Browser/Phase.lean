import RcControl.Browser.Signal

/-!
# The three phases of a session at the page

Until the socket opens there is no peer connection; from `onopen` to `onclose` there is one, and `pc`
and `ws` refer to it and to the socket; after that it is closed. Only `onopen` and `onclose` lead from
one phase to the next, and nothing is sent but in the second.
-/

namespace RcControl.Browser

open Server (Json readMessage)

/-- The socket has not opened. -/
structure Before (g : Signal) : Prop where
  peer : g.peer = none
  pc : g.pc = false
  readyState : g.readyState ≠ .open

/-- The socket has opened and not closed. -/
structure During (g : Signal) : Prop where
  peer : g.peer.map Peer.closed = some false
  pc : g.pc = true
  ws : g.ws = true
  readyState : g.readyState = .open ∨ g.readyState = .closing

/-- The socket has opened and closed. -/
structure After (g : Signal) : Prop where
  peer : g.peer.map Peer.closed = some true
  pc : g.pc = false
  ws : g.ws = false
  readyState : g.readyState = .closed

/-- What the page sends besides the call and the hangup. -/
def Reply (m : Json) : Prop := (readMessage m).isCall = false ∧ (readMessage m).isHangup = false

@[simp] lemma readMessage_callRequest : readMessage callRequest = .signal .call "call" callRequest := by
  simp [callRequest, readMessage, Json.find?, Json.getString, Server.getType]

@[simp] lemma readMessage_hangupRequest :
    readMessage hangupRequest = .signal .hangup "hangup" hangupRequest := by
  simp [hangupRequest, readMessage, Json.find?, Json.getString, Server.getType]

lemma reply_answerRequest (js : Env) (description : Json) : Reply (answerRequest js description) := by
  simp [Reply, answerRequest, readMessage, Json.find?, Json.getString, Server.getType,
    Server.Received.isCall, Server.Received.isHangup]

lemma reply_candidateRequest (js : Env) (c : LocalCandidate) : Reply (candidateRequest js c) := by
  simp [Reply, candidateRequest, readMessage, Json.find?, Json.getString, Server.getType,
    Server.Received.isCall, Server.Received.isHangup]

/-- A handler that stays in the phase. -/
structure Stays (g : Signal) (r : Effect × Signal) : Prop where
  peer : r.2.peer.map Peer.closed = g.peer.map Peer.closed
  pc : r.2.pc = g.pc
  ws : r.2.ws = g.ws
  readyState : r.2.readyState = g.readyState ∨ g.readyState ≠ .closed ∧ r.2.readyState = .closing
  onClose : r.1.onClose = false
  sent : ∀ m ∈ r.1.sent, g.readyState = .open ∧ Reply m

namespace Stays

variable {g g' : Signal} {r : Effect × Signal}

lemma before (h : Stays g r) (hg : Before g) : Before r.2 := by
  have hpeer := h.peer
  rw [hg.peer, Option.map_none, Option.map_eq_none_iff] at hpeer
  refine ⟨hpeer, h.pc.trans hg.pc, ?_⟩
  rcases h.readyState with hr | ⟨-, hr⟩
  · rw [hr]
    exact hg.readyState
  · simp [hr]

lemma during (h : Stays g r) (hg : During g) : During r.2 := by
  refine ⟨h.peer.trans hg.peer, h.pc.trans hg.pc, h.ws.trans hg.ws, ?_⟩
  rcases h.readyState with hr | ⟨-, hr⟩
  · rw [hr]
    exact hg.readyState
  · exact Or.inr hr

lemma after (h : Stays g r) (hg : After g) : After r.2 := by
  refine ⟨h.peer.trans hg.peer, h.pc.trans hg.pc, h.ws.trans hg.ws, ?_⟩
  rcases h.readyState with hr | ⟨hne, -⟩
  · exact hr.trans hg.readyState
  · exact absurd hg.readyState hne

/-- Only an open socket takes messages. -/
lemma sent_eq_nil (h : Stays g r) (hg : g.readyState ≠ .open) : r.1.sent = [] :=
  List.eq_nil_iff_forall_not_mem.2 fun m hm => hg (h.sent m hm).1

lemma of_eq (h : Stays g' r) (hpeer : g'.peer.map Peer.closed = g.peer.map Peer.closed)
    (hpc : g'.pc = g.pc) (hws : g'.ws = g.ws) (hready : g'.readyState = g.readyState) : Stays g r where
  peer := h.peer.trans hpeer
  pc := h.pc.trans hpc
  ws := h.ws.trans hws
  readyState := hready ▸ h.readyState
  onClose := h.onClose
  sent := hready ▸ h.sent

/-- A handler that does nothing, or throws at once. -/
lemma refl (g : Signal) (threw : Bool) : Stays g ({ threw := threw }, g) :=
  ⟨rfl, rfl, rfl, Or.inl rfl, rfl, fun _ hm => absurd hm List.not_mem_nil⟩

lemma wsSend (g : Signal) {m : Json} (hm : Reply m) : Stays g (g.wsSend m, g) := by
  unfold Signal.wsSend
  split
  · cases hr : g.readyState with
    | «open» => exact ⟨rfl, rfl, rfl, Or.inl rfl, rfl, fun x hx => ⟨hr, List.mem_singleton.1 hx ▸ hm⟩⟩
    | _ => exact refl g _
  · exact refl g true

lemma wsClose (g : Signal) : Stays g g.wsClose := by
  unfold Signal.wsClose
  split
  · cases hr : g.readyState with
    | connecting | «open» =>
      exact ⟨rfl, rfl, rfl, Or.inr ⟨by simp [hr], rfl⟩, rfl, fun _ hm => absurd hm List.not_mem_nil⟩
    | _ => exact refl g false
  · exact refl g true

lemma addIceCandidates (g : Signal) : Stays g g.addIceCandidates := by
  unfold Signal.addIceCandidates
  split
  · split
    · exact refl g false
    · split
      · refine (refl _ false).of_eq ?_ rfl rfl rfl
        simp only [Signal.updatePeer, Option.map_map]
        rfl
      · exact refl g true
  · exact refl g false

lemma onicecandidate (js : Env) (g : Signal) (c : Option LocalCandidate) :
    Stays g (Signal.onicecandidate js g c) := by
  unfold Signal.onicecandidate
  cases c with
  | none => exact refl g false
  | some c =>
    simp only []
    split
    · exact refl g false
    · exact wsSend g (reply_candidateRequest js c)

lemma onOffer (js : Env) (g : Signal) (data : Option Json) : Stays g (Signal.onOffer js g data) := by
  unfold Signal.onOffer
  split
  · split
    · exact refl g true
    · split
      · exact (refl _ false).of_eq rfl rfl rfl rfl
      · exact refl g true
  · exact refl g true

lemma onIceCandidate (js : Env) (g : Signal) (data : Option Json) :
    Stays g (Signal.onIceCandidate js g data) := by
  unfold Signal.onIceCandidate
  split
  · split
    · exact refl g true
    · exact (addIceCandidates _).of_eq rfl rfl rfl rfl
  · exact refl g false

lemma pushCandidates (js : Env) (elts : List (Option Json)) (g : Signal) :
    Stays g (Signal.pushCandidates js g elts) := by
  induction elts generalizing g with
  | nil => exact addIceCandidates g
  | cons elt elts ih =>
    unfold Signal.pushCandidates
    split
    · exact refl g true
    · exact (ih _).of_eq rfl rfl rfl rfl

lemma onIceCandidates (js : Env) (g : Signal) (data : Option Json) :
    Stays g (Signal.onIceCandidates js g data) := by
  unfold Signal.onIceCandidates
  split
  · exact refl g true
  · exact refl g true
  · exact pushCandidates js _ g
  · exact pushCandidates js _ g

lemma onmessage (js : Env) (g : Signal) (msg : Json) : Stays g (Signal.onmessage js g msg) := by
  unfold Signal.onmessage
  split
  · exact onOffer js g _
  · exact onIceCandidate js g _
  · exact onIceCandidates js g _
  · exact refl g false
  · exact refl g true

lemma onRemoteSdpSuccess (g : Signal) : Stays g g.onRemoteSdpSuccess := by
  have hadd : Stays g (Signal.addIceCandidates { g with hasRemoteDesc := true }) :=
    (addIceCandidates _).of_eq rfl rfl rfl rfl
  unfold Signal.onRemoteSdpSuccess
  simp only []
  split
  · exact hadd
  · split
    · exact ⟨hadd.peer, hadd.pc, hadd.ws, hadd.readyState, rfl, fun _ hm => absurd hm List.not_mem_nil⟩
    · exact ⟨hadd.peer, hadd.pc, hadd.ws, hadd.readyState, rfl, fun _ hm => absurd hm List.not_mem_nil⟩

lemma onAnswer (js : Env) (g : Signal) (description : Option Json) :
    Stays g (Signal.onAnswer js g description) := by
  unfold Signal.onAnswer
  cases description with
  | none => exact refl g false
  | some description =>
    simp only []
    split
    · refine (wsSend _ (reply_answerRequest js description)).of_eq ?_ rfl rfl rfl
      simp only [Signal.updatePeer, Option.map_map]
      rfl
    · exact refl g true

end Stays

/-! ### From one phase to the next -/

section Phases

variable {g : Signal}

lemma Before.onopen (g : Signal) (hws : g.ws = true) :
    During g.onopen.2 ∧ g.onopen.1.sent = [callRequest] ∧ g.onopen.1.onClose = false := by
  refine ⟨⟨rfl, rfl, hws, Or.inl rfl⟩, ?_, ?_⟩ <;> simp [Signal.onopen, Signal.wsSend, hws]

lemma Before.onclose (h : Before g) : Before g.onclose.2 := by
  simp only [Signal.onclose, h.pc, Bool.false_eq_true, if_false]
  exact ⟨h.peer, rfl, by simp⟩

lemma During.onclose (h : During g) : After g.onclose.2 := by
  simp only [Signal.onclose, h.pc, if_true, Signal.updatePeer]
  refine ⟨?_, rfl, rfl, rfl⟩
  obtain ⟨peer, hpeer, -⟩ := Option.map_eq_some_iff.1 h.peer
  simp [hpeer]

@[simp] lemma onclose_sent (g : Signal) : g.onclose.1.sent = [] := rfl

@[simp] lemma hangup_state (g : Signal) : g.hangup.2 = g := by
  unfold Signal.hangup
  split <;> rfl

/-- Hangup sends on an open socket, and on no other. -/
lemma hangup_sent (g : Signal) :
    g.hangup.1.sent = if g.ws = true ∧ g.readyState = .open then [hangupRequest] else [] := by
  unfold Signal.hangup Signal.wsSend
  cases hws : g.ws <;> cases hr : g.readyState <;> simp

end Phases

end RcControl.Browser
