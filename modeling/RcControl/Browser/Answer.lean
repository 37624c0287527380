import RcControl.Browser.Phase

/-!
# How often a page answers

An offer the page reads is set as the remote description, then an answer is created, then it is set as
the local description and sent, each in the callback of the one before. So what a page still has to do
for the offers it has read, and what it has done, never comes to more than their number (`Mute`,
`onAnswer_spends`); and a candidate is sent only after an answer.
-/

namespace RcControl.Browser

open Server (Json)

/-- `setLocalDescription` was called. -/
def Signal.hasLocalDesc (g : Signal) : Bool := g.peer.any Peer.hasLocalDesc

/-- The callbacks that are still to come. -/
def Signal.pending (g : Signal) : ℕ := g.settingRemote + g.creatingAnswer

/-- The offers of which something is still to come, or an answer has. -/
def Signal.owed (g : Signal) : ℕ := g.pending + if g.hasLocalDesc then 1 else 0

def isOffer (m : Json) : Bool :=
  match property m "what" with
  | some (some (.string what)) => what == "offer"
  | _ => false

/-- A handler that sends nothing, and leaves at most so many callbacks more. -/
structure Mute (n : ℕ) (g : Signal) (r : Effect × Signal) : Prop where
  sent : r.1.sent = []
  hasLocalDesc : r.2.hasLocalDesc = g.hasLocalDesc
  pending : r.2.pending ≤ g.pending + n

namespace Mute

variable {n n' : ℕ} {g g' : Signal} {r : Effect × Signal}

lemma refl (n : ℕ) (g : Signal) (threw : Bool) : Mute n g ({ threw := threw }, g) :=
  ⟨rfl, rfl, Nat.le_add_right _ _⟩

lemma mono (h : Mute n g r) (hn : n ≤ n') : Mute n' g r :=
  ⟨h.sent, h.hasLocalDesc, Nat.le_trans h.pending (Nat.add_le_add_left hn _)⟩

lemma of_eq (h : Mute n g' r) (hpeer : g'.peer = g.peer) (hpending : g'.pending = g.pending) :
    Mute n g r := by
  refine ⟨h.sent, h.hasLocalDesc.trans ?_, hpending ▸ h.pending⟩
  rw [Signal.hasLocalDesc, Signal.hasLocalDesc, hpeer]

lemma owed (h : Mute n g r) : r.2.owed ≤ g.owed + n := by
  have hpending := h.pending
  unfold Signal.owed
  rw [h.hasLocalDesc]
  omega

lemma wsClose (g : Signal) : Mute 0 g g.wsClose := by
  unfold Signal.wsClose
  split
  · split
    · exact ⟨rfl, rfl, Nat.le_refl _⟩
    · exact ⟨rfl, rfl, Nat.le_refl _⟩
    · exact refl 0 g false
    · exact refl 0 g false
  · exact refl 0 g true

lemma addIceCandidates (g : Signal) : Mute 0 g g.addIceCandidates := by
  unfold Signal.addIceCandidates
  split
  · split
    · exact refl 0 g false
    · split
      · refine ⟨rfl, ?_, Nat.le_refl _⟩
        unfold Signal.hasLocalDesc Signal.updatePeer
        cases g.peer <;> rfl
      · exact refl 0 g true
  · exact refl 0 g false

lemma onOffer (js : Env) (g : Signal) (data : Option Json) : Mute 1 g (Signal.onOffer js g data) := by
  unfold Signal.onOffer
  split
  · split
    · exact refl 1 g true
    · split
      · refine ⟨rfl, rfl, ?_⟩
        unfold Signal.pending
        simp only []
        omega
      · exact refl 1 g true
  · exact refl 1 g true

lemma onIceCandidate (js : Env) (g : Signal) (data : Option Json) :
    Mute 0 g (Signal.onIceCandidate js g data) := by
  unfold Signal.onIceCandidate
  split
  · split
    · exact refl 0 g true
    · exact (addIceCandidates _).of_eq rfl rfl
  · exact refl 0 g false

lemma pushCandidates (js : Env) (elts : List (Option Json)) (g : Signal) :
    Mute 0 g (Signal.pushCandidates js g elts) := by
  induction elts generalizing g with
  | nil => exact addIceCandidates g
  | cons elt elts ih =>
    unfold Signal.pushCandidates
    split
    · exact refl 0 g true
    · exact (ih _).of_eq rfl rfl

lemma onIceCandidates (js : Env) (g : Signal) (data : Option Json) :
    Mute 0 g (Signal.onIceCandidates js g data) := by
  unfold Signal.onIceCandidates
  split
  · exact refl 0 g true
  · exact refl 0 g true
  · exact pushCandidates js _ g
  · exact pushCandidates js _ g

/-- Of the messages, only an offer leads to callbacks. -/
theorem onmessage (js : Env) (g : Signal) (msg : Json) :
    Mute (if isOffer msg then 1 else 0) g (Signal.onmessage js g msg) := by
  generalize hn : (if isOffer msg then 1 else 0) = n
  unfold Signal.onmessage
  split
  · next data hwhat hdata =>
    rw [if_pos (by simp [isOffer, hwhat])] at hn
    subst hn
    exact onOffer js g data
  · exact (onIceCandidate js g _).mono (Nat.zero_le _)
  · exact (onIceCandidates js g _).mono (Nat.zero_le _)
  · exact refl _ g false
  · exact refl _ g true

lemma onRemoteSdpSuccess (g : Signal) : Mute 1 g g.onRemoteSdpSuccess := by
  have hadd : Mute 0 g (Signal.addIceCandidates { g with hasRemoteDesc := true }) :=
    (addIceCandidates _).of_eq rfl rfl
  unfold Signal.onRemoteSdpSuccess
  simp only []
  split
  · exact hadd.mono (Nat.zero_le 1)
  · have hpending := hadd.pending
    split
    · refine ⟨rfl, hadd.hasLocalDesc, ?_⟩
      unfold Signal.pending at hpending ⊢
      simp only []
      omega
    · exact ⟨rfl, hadd.hasLocalDesc, Nat.le_trans hpending (Nat.le_succ _)⟩

lemma onclose (g : Signal) : Mute 0 g g.onclose := by
  unfold Signal.onclose
  simp only []
  split
  · refine ⟨rfl, ?_, Nat.le_refl _⟩
    unfold Signal.hasLocalDesc Signal.updatePeer
    cases g.peer <;> rfl
  · exact ⟨rfl, rfl, Nat.le_refl _⟩

end Mute

section Answer

variable {js : Env} {g : Signal} {m : Json}

lemma wsSend_sent (g : Signal) (m : Json) : (g.wsSend m).sent = [] ∨ (g.wsSend m).sent = [m] := by
  unfold Signal.wsSend
  cases g.ws <;> cases g.readyState <;> simp

lemma onopen_owed (g : Signal) (hpeer : g.peer = none) :
    g.onopen.2.owed = g.owed ∧ g.onopen.2.hasLocalDesc = false := by
  refine ⟨?_, rfl⟩
  unfold Signal.owed Signal.hasLocalDesc
  rw [hpeer]
  rfl

/-- **The callback of `createAnswer`** sends nothing, or one answer after `setLocalDescription`. -/
theorem onAnswer_spends (js : Env) (g : Signal) (description : Option Json) (hpeer : g.pc → g.peer.isSome) :
    Mute 0 g (Signal.onAnswer js g description) ∨
      (Signal.onAnswer js g description).2.hasLocalDesc = true ∧
      (Signal.onAnswer js g description).2.pending = g.pending ∧
      ((Signal.onAnswer js g description).1.sent = [] ∨
        ∃ d, (Signal.onAnswer js g description).1.sent = [answerRequest js d]) := by
  unfold Signal.onAnswer
  cases description with
  | none => exact Or.inl (Mute.refl 0 g false)
  | some d =>
    simp only []
    split
    · next hpc =>
      obtain ⟨peer, hpeer⟩ := Option.isSome_iff_exists.1 (hpeer hpc)
      refine Or.inr ⟨?_, rfl, ?_⟩
      · simp [Signal.hasLocalDesc, Signal.updatePeer, hpeer]
      · rcases wsSend_sent (g.updatePeer fun p => { p with hasLocalDesc := true })
          (answerRequest js d) with hsent | hsent
        · exact Or.inl hsent
        · exact Or.inr ⟨d, hsent⟩
    · exact Or.inl (Mute.refl 0 g true)

end Answer

end RcControl.Browser
