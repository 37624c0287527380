import RcControl.Browser.Answer
import RcControl.Signalling.Served

/-!
# What the page sends for one session

The server offers when the candidates of its peer connection are gathered. So the offers on their way to
the page, those it has in hand and the answer it has sent are no more than the times gathering has
completed (`Pays`); and what the page sends besides the answer needs a local description (`Sends`).
-/

namespace RcControl.Signalling

open Lib Lib.Run Browser
open Server (ConnId PeerId PcOp Json readMessage)

/-- Gathering completes for this peer connection. -/
def completes (pc : PeerId) : Event → Bool
  | .gatheringStateChange pc' .complete _ _ => pc' == pc
  | _ => false

/-- How many of the messages are offers. -/
def offers (ms : List Json) : ℕ := ms.countP isOffer

/-- What the page sends in a step, and what that has to do with its local description. -/
inductive Sends (js : Browser.Env) (e : Event) (g g' : Signal) : List Json → Prop
  | nothing (hdesc : g'.hasLocalDesc = g.hasLocalDesc) : Sends js e g g' []
  | call (hdesc : g'.hasLocalDesc = g.hasLocalDesc) : Sends js e g g' [callRequest]
  | hangup (hdesc : g'.hasLocalDesc = g.hasLocalDesc) : Sends js e g g' [hangupRequest]
  | answers (hpending : 0 < g.pending) (hdesc : g'.hasLocalDesc = true) (ms : List Json)
    (hms : ms = [] ∨ ∃ d, ms = [answerRequest js d]) : Sends js e g g' ms
  | candidate (con : ConnId) (c : LocalCandidate) (he : e = .iceCandidate con (some c))
    (hc : c.candidate ≠ "") (hdesc : g.hasLocalDesc = true) (hsame : g'.hasLocalDesc = g.hasLocalDesc) :
    Sends js e g g' [candidateRequest js c]

/-- One step of the only session. -/
structure Pays (js : Browser.Env) (s : Signalling) (o : List Note) (s' : Signalling) (e : Event) :
    Prop where
  owed : offers (s'.down 0) + (s'.signal 0).owed ≤
    offers (s.down 0) + (s.signal 0).owed + if completes only e then 1 else 0
  sends : Sends js e (s.signal 0) (s'.signal 0) (sentBy 0 o)

section Pays

variable {env : Server.Env} {js : Browser.Env} {s s' : Signalling} {con : ConnId}
  {r : Effect × Signal} {o notes : List Note} {e : Event}

/-- Nothing happens to the session at its page, and no offer joins the others. -/
lemma Pays.idle (hsignal : s'.signal 0 = s.signal 0) (hdown : offers (s'.down 0) ≤ offers (s.down 0))
    (ho : sentBy 0 o = []) : Pays js s o s' e := by
  constructor
  · rw [hsignal]
    omega
  · rw [ho, hsignal]
    exact .nothing rfl

/-- A handler of a session runs, with the messages to the page as given. -/
lemma Pays.handler {t : Signalling} (before : List Note) (hbefore : sentBy 0 before = [])
    (hsignal : t.signal = s.signal)
    (howed : con = 0 → offers (t.down 0) + r.2.owed ≤ offers (s.down 0) + (s.signal 0).owed)
    (hdown : con ≠ 0 → t.down 0 = s.down 0)
    (hsends : con = 0 → Sends js e (s.signal 0) r.2 r.1.sent) :
    Pays js s (before ++ (t.runHandler con r).1) (t.runHandler con r).2 e := by
  have hsent : sentBy 0 (before ++ (t.runHandler con r).1) = if 0 = con then r.1.sent else [] := by
    rw [sentBy_append, hbefore, List.nil_append, ← sentBy_filter, runHandler, filter_sent]
    split <;> simp [sentBy]
  by_cases hcon : con = 0
  · subst hcon
    constructor
    · have := howed rfl
      simp only [runHandler, Function.update_self]
      omega
    · rw [hsent, if_pos rfl]
      simpa [runHandler] using hsends rfl
  · have hne : (0 : ℕ) ≠ con := Ne.symm hcon
    refine .idle ?_ ?_ ?_
    · rw [runHandler_signal, if_neg hne, hsignal]
    · exact Nat.le_of_eq (congrArg offers (hdown hcon))
    · rw [hsent, if_neg hne]

/-- A handler that is mute. -/
lemma Pays.mute {t : Signalling} {n : ℕ} (before : List Note) (hbefore : sentBy 0 before = [])
    (hsignal : t.signal = s.signal) (hdown : con ≠ 0 → t.down 0 = s.down 0)
    (hmute : con = 0 → Mute n (s.signal 0) r)
    (hoffers : con = 0 → offers (t.down 0) + n ≤ offers (s.down 0)) :
    Pays js s (before ++ (t.runHandler con r).1) (t.runHandler con r).2 e := by
  refine .handler before hbefore hsignal (fun hcon => ?_) hdown fun hcon => ?_
  · have howed := (hmute hcon).owed
    have := hoffers hcon
    omega
  · rw [(hmute hcon).sent]
    exact .nothing (hmute hcon).hasLocalDesc

/-- The button, with a session at the page. -/
lemma Pays.clicks (p : PageId) (con : ConnId) :
    Pays js s (.hangupClicked con (s.signal con).readyState :: (s.runHandler con (s.signal con).hangup).1)
      (s.runHandler con (s.signal con).hangup).2 (.clickHangup p) := by
  refine Pays.handler [.hangupClicked con (s.signal con).readyState] rfl rfl (fun hcon => ?_)
    (fun _ => rfl) fun hcon => ?_
  · rw [hcon, hangup_state]
  · subst hcon
    rw [hangup_sent, hangup_state]
    split
    · exact .hangup rfl
    · exact .nothing rfl

/-- The socket opens. -/
lemma Pays.opens (hpeer : (s.signal con).peer = none) :
    Pays js s (.opened con :: (s.runHandler con (s.signal con).onopen).1)
      (s.runHandler con (s.signal con).onopen).2 e := by
  refine Pays.handler [.opened con] rfl rfl (fun hcon => ?_) (fun _ => rfl) fun hcon => ?_
  · subst hcon
    rw [(onopen_owed _ hpeer).1]
  · subst hcon
    have hdesc : (s.signal 0).onopen.2.hasLocalDesc = (s.signal 0).hasLocalDesc := by
      rw [Signal.hasLocalDesc, Signal.hasLocalDesc, hpeer]
      rfl
    rcases wsSend_sent (s.signal 0).onopen.2 callRequest with hsent | hsent
    · exact hsent ▸ .nothing hdesc
    · exact hsent ▸ .call hdesc

/-- The callbacks of `setRemoteDescription`. -/
lemma Pays.remoteSet {g : Signal} (success : Bool) (hpos : 0 < (s.signal con).settingRemote)
    (hg : g = { s.signal con with settingRemote := (s.signal con).settingRemote - 1 }) :
    Pays js s (s.runHandler con (if success then g.onRemoteSdpSuccess else g.onRemoteSdpError)).1
      (s.runHandler con (if success then g.onRemoteSdpSuccess else g.onRemoteSdpError)).2 e := by
  refine Pays.mute [] rfl rfl (fun _ => rfl) (n := 0) (fun hcon => ?_) fun _ => Nat.le_refl _
  subst hcon
  -- the callback that has come makes room for the one that may follow
  have hless : ∀ r, Mute 1 g r → Mute 0 (s.signal 0) r := by
    intro r hr
    rw [hg] at hr
    refine ⟨hr.sent, hr.hasLocalDesc, ?_⟩
    have hpending := hr.pending
    unfold Signal.pending at hpending ⊢
    simp only [] at hpending
    omega
  split
  · exact hless _ (Mute.onRemoteSdpSuccess _)
  · exact hless _ ((Mute.wsClose _).mono (Nat.zero_le 1))

/-- The callback of `createAnswer`. -/
lemma Pays.answers {g : Signal} {description : Option Json} (hpos : 0 < (s.signal con).creatingAnswer)
    (hg : g = { s.signal con with creatingAnswer := (s.signal con).creatingAnswer - 1 })
    (hpeer : (s.signal 0).pc = true → (s.signal 0).peer.isSome = true) :
    Pays js s (s.runHandler con (g.onAnswer js description)).1
      (s.runHandler con (g.onAnswer js description)).2 e := by
  have hdesc : con = 0 → g.hasLocalDesc = (s.signal 0).hasLocalDesc := by
    rintro rfl
    rw [hg]
    rfl
  have hpending : con = 0 → g.pending + 1 = (s.signal 0).pending := by
    rintro rfl
    rw [hg]
    simp only [Signal.pending]
    omega
  have hspends := fun hcon : con = 0 =>
    onAnswer_spends js g description (by subst hcon; rw [hg]; exact hpeer)
  refine Pays.handler [] rfl rfl (fun hcon => ?_) (fun _ => rfl) fun hcon => ?_
  · have := hpending hcon
    rcases hspends hcon with hmute | ⟨hset, heq, -⟩
    · have howed := hmute.owed
      unfold Signal.owed at howed ⊢
      rw [hdesc hcon] at howed
      omega
    · unfold Signal.owed
      rw [hset, if_pos rfl, heq]
      omega
  · rcases hspends hcon with hmute | ⟨hset, heq, hsent⟩
    · rw [hmute.sent]
      exact .nothing (hmute.hasLocalDesc.trans (hdesc hcon))
    · have := hpending hcon
      exact .answers (by omega) hset _ hsent

/-- The callback for candidates. -/
lemma Pays.candidate {c : Option LocalCandidate} {peer : Peer} (hpeer : (s.signal con).peer = some peer)
    (hdesc : peer.hasLocalDesc = true) :
    Pays js s (s.runHandler con ((s.signal con).onicecandidate js c)).1
      (s.runHandler con ((s.signal con).onicecandidate js c)).2 (.iceCandidate con c) := by
  have hsame : ((s.signal con).onicecandidate js c).2 = s.signal con := by
    unfold Signal.onicecandidate
    cases c with
    | none => rfl
    | some c =>
      simp only []
      split <;> rfl
  refine Pays.handler [] rfl rfl (fun hcon => ?_) (fun _ => rfl) fun hcon => ?_
  · rw [hsame, hcon]
  · rw [hsame]
    subst hcon
    cases c with
    | none => exact .nothing rfl
    | some c =>
      unfold Signal.onicecandidate
      simp only []
      split
      · exact .nothing rfl
      · next hc =>
        rcases wsSend_sent (s.signal 0) (candidateRequest js c) with hsent | hsent
        · exact hsent ▸ .nothing rfl
        · refine hsent ▸ .candidate 0 c rfl hc ?_ rfl
          rw [Signal.hasLocalDesc, hpeer]
          exact hdesc

lemma dispatch_sent {srv : Server} {m : Server.Received} {out : Server.Output × Server}
    (h : Server.dispatch env srv con m = .ok out) : out.1.sent = [] := by
  rcases Server.dispatch_cases env con m with ⟨-, heq⟩ | ⟨-, -, heq⟩ | ⟨-, -, heq⟩ |
    ⟨-, -, -, o, heq⟩ | ⟨-, -, -, heq⟩
  · simp [heq] at h
  · obtain ⟨threw, hthrew⟩ := heq srv
    obtain rfl := Except.ok.inj (hthrew.symm.trans h)
    rfl
  · obtain rfl := Except.ok.inj ((heq srv).symm.trans h)
    rfl
  · obtain rfl := Except.ok.inj ((heq srv).symm.trans h)
    rcases hpc : srv.clients.lookup Server.id with _ | pc
    · rw [Server.onOperation_of_none hpc]
    · rw [Server.onOperation_of_some hpc]
      unfold Server.perform
      split <;> rfl
  · obtain rfl := Except.ok.inj ((heq srv).symm.trans h)
    unfold Server.onHangup
    split <;> rfl

/-- The page reads a message, and an offer if it is one. -/
lemma offers_read {m : Json} {rest : List Json} (hdown : s.down con = m :: rest) :
    offers (s.down 0) = offers (Function.update s.down con rest 0) +
      if con = 0 then (if isOffer m then 1 else 0) else 0 := by
  by_cases hcon : con = 0
  · subst hcon
    rw [if_pos rfl, Function.update_self, hdown, offers, offers, List.countP_cons]
  · rw [if_neg hcon, Function.update_of_ne (Ne.symm hcon), Nat.add_zero]

/-- The server sends no offer. -/
lemma offers_runServer (s : Signalling) (r : Server.Output × Server)
    (hr : ∀ m ∈ r.1.sent, isOffer m.2 = false) : offers ((s.runServer r).down 0) = offers (s.down 0) := by
  have hnone : ∀ l : List (ConnId × Json), (∀ m ∈ l, isOffer m.2 = false) →
      (l.map Prod.snd).countP isOffer = 0 := by
    intro l hl
    rw [List.countP_eq_zero]
    intro m hm
    obtain ⟨x, hx, rfl⟩ := List.mem_map.1 hm
    simp [hl x hx]
  simp only [runServer, offers, List.countP_append]
  split
  · rfl
  · rw [hnone _ fun m hm => hr m (List.mem_of_mem_filter hm), Nat.add_zero]

/-- The offer, if it is sent, is the one of this completion. -/
lemma Pays.gathers (pc : PeerId) (state : Server.GatheringState) (type sdp : String)
    (honly : s.server.alive pc = true → pc = only) :
    Pays js s [] (s.runServer (Server.onGatheringStateChange env s.server pc state type sdp))
      (.gatheringStateChange pc state type sdp) := by
  by_cases hcomplete : state = .complete ∧ s.server.alive pc = true
  · obtain ⟨rfl, halive⟩ := hcomplete
    obtain rfl := honly halive
    refine ⟨?_, .nothing rfl⟩
    have hone : completes only (.gatheringStateChange only .complete type sdp) = true := by
      simp [completes]
    have hadd : offers ((s.runServer
        (Server.onGatheringStateChange env s.server only .complete type sdp)).down 0) ≤
          offers (s.down 0) + 1 := by
      simp only [Server.onGatheringStateChange, halive, if_true, runServer, offers, List.countP_append]
      split
      · simp
      · exact Nat.add_le_add_left (Nat.le_trans List.countP_le_length (by simp [only])) _
    rw [hone, if_pos rfl]
    simp only [runServer] at hadd ⊢
    omega
  · refine .idle rfl (Nat.le_of_eq (offers_runServer s _ ?_)) rfl
    have hsent : (Server.onGatheringStateChange env s.server pc state type sdp).1.sent = [] := by
      unfold Server.onGatheringStateChange
      split
      · rw [if_neg fun halive => hcomplete ⟨rfl, halive⟩]
      · rfl
    rw [hsent]
    simp

/-- **One step of the only session.** -/
theorem pays_step (h : Recorded notes s) (honly : ∀ pc, s.server.alive pc = true → pc = only)
    (hstep : step env js s e = .ok (o, s')) : Pays js s o s' e := by
  cases does_of_step hstep with
  | nothing => exact .idle rfl (Nat.le_refl _) rfl
  | starts p hp =>
    refine .idle ?_ (Nat.le_refl _) rfl
    simp only [Function.update_apply]
    split
    · next heq => rw [heq, h.wf.fresh s.next (Nat.le_refl _)]
    · rfl
  | clicks p con hp =>
    have hrun := (Pays.clicks p con : Pays js s _ _ _)
    split
    · exact hrun
    · exact ⟨hrun.owed, hrun.sends⟩
  | opens con hcon hready => exact .opens ((h.tracks con).connecting hready).2
  | closes con =>
    refine Pays.mute [.closed con] rfl rfl (fun _ => rfl) (n := 0) (fun hcon => ?_) fun _ => ?_
    · exact hcon ▸ Mute.onclose _
    · exact Nat.le_refl _
  | drops con m rest hdown =>
    refine .idle rfl ?_ rfl
    rw [offers_read hdown]
    exact Nat.le_add_right _ _
  | receives con m rest hdown =>
    refine Pays.mute [] rfl rfl (fun hcon => Function.update_of_ne (Ne.symm hcon) _ _)
      (n := if isOffer m then 1 else 0) (fun hcon => ?_) fun hcon => ?_
    · exact hcon ▸ Mute.onmessage js _ m
    · subst hcon
      exact Nat.le_of_eq (offers_read hdown).symm
  | remoteSet con success g hpos hg => exact .remoteSet success hpos hg
  | answered con description g hpos hg => exact .answers hpos hg (h.tracks 0).peer
  | candidate con c peer hpeer hdesc => exact .candidate hpeer hdesc
  | reads con m rest r hup hgone hdispatch =>
    refine .idle rfl (Nat.le_of_eq (offers_runServer s r ?_)) rfl
    rw [dispatch_sent hdispatch]
    simp
  | disconnects con =>
    refine .idle rfl (Nat.le_of_eq (offers_runServer s _ ?_)) rfl
    simp [Server.onDisconnect, isOffer, property]
  | changes pc state =>
    refine .idle rfl (Nat.le_of_eq (offers_runServer s _ ?_)) ?_
    · simp [Server.onStateChange]
    · cases state <;> rfl
  | gathers pc state type sdp => exact .gathers pc state type sdp (honly pc)

end Pays

end RcControl.Signalling
