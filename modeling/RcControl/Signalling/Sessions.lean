import RcControl.Browser.Phase
import RcControl.Signalling.Model

/-!
# One step of the system

A step of the system is a step of each session at its page (`Local`): it opens, closes, is clicked on
or stays in its phase. What the page sends joins what is on its way to the server, and what the server
reads was first on its way; reading is the one thing that touches `clients` (`Advances`).
-/

namespace RcControl.Signalling

open Lib Lib.Run Browser
open Server (ConnId PeerId Json readMessage)

/-! ### What a step does -/

/-- The event finds nothing to do. -/
def Idle (s : Signalling) : Event → Prop
  | .clickCall p => s.signalObj p ≠ none
  | .clickHangup p => s.signalObj p = none
  | .wsOpen con => ¬ (con < s.next ∧ (s.signal con).readyState = .connecting)
  | .wsClosed con => ¬ (con < s.next ∧ (s.signal con).readyState ≠ .closed)
  | .wsMessage con => s.down con = []
  | .remoteSet con _ => ¬ 0 < (s.signal con).settingRemote
  | .answered con _ => ¬ 0 < (s.signal con).creatingAnswer
  | .iceCandidate con _ =>
    ¬ ∃ peer, (s.signal con).peer = some peer ∧ peer.hasLocalDesc = true ∧ ¬ peer.closed = true
  | .data con => s.up con = [] ∨ con ∈ s.server.gone
  | .disconnect con => ¬ (con < s.next ∧ con ∉ s.server.gone)
  | .stateChange pc _ => ¬ pc.nth < s.server.created pc.ws
  | .gatheringStateChange _ _ _ _ => False

/-- What a step does. -/
inductive Does (env : Server.Env) (js : Browser.Env) (s : Signalling) :
    Event → List Note → Signalling → Prop
  | nothing (e : Event) (hidle : Idle s e) : Does env js s e [] s
  | starts (p : PageId) (hp : s.signalObj p = none) : Does env js s (.clickCall p) [] { s with
      signalObj := Function.update s.signalObj p (some s.next)
      owner := Function.update s.owner s.next p
      signal := Function.update s.signal s.next .new
      next := s.next + 1 }
  | clicks (p : PageId) (con : ConnId) (hp : s.signalObj p = some con) :
      Does env js s (.clickHangup p)
        (.hangupClicked con (s.signal con).readyState ::
          (s.runHandler con (s.signal con).hangup).1)
        (if (s.signal con).hangup.1.threw then (s.runHandler con (s.signal con).hangup).2
        else { (s.runHandler con (s.signal con).hangup).2 with
          signalObj := Function.update (s.runHandler con (s.signal con).hangup).2.signalObj p none })
  | opens (con : ConnId) (hcon : con < s.next) (hready : (s.signal con).readyState = .connecting) :
      Does env js s (.wsOpen con) (.opened con :: (s.runHandler con (s.signal con).onopen).1)
        (s.runHandler con (s.signal con).onopen).2
  | closes (con : ConnId) (hcon : con < s.next) (hready : (s.signal con).readyState ≠ .closed) :
      Does env js s (.wsClosed con) (.closed con :: (s.runHandler con (s.signal con).onclose).1)
        (s.runHandler con (s.signal con).onclose).2
  /-- The socket of the page is not open. -/
  | drops (con : ConnId) (m : Json) (rest : List Json) (hdown : s.down con = m :: rest) :
      Does env js s (.wsMessage con) [] { s with down := Function.update s.down con rest }
  | receives (con : ConnId) (m : Json) (rest : List Json) (hdown : s.down con = m :: rest)
      (hopen : (s.signal con).readyState = .open) :
      Does env js s (.wsMessage con)
        (runHandler { s with down := Function.update s.down con rest } con
          ((s.signal con).onmessage js m)).1
        (runHandler { s with down := Function.update s.down con rest } con
          ((s.signal con).onmessage js m)).2
  | remoteSet (con : ConnId) (success : Bool) (g : Signal) (hpos : 0 < (s.signal con).settingRemote)
      (hg : g = { s.signal con with settingRemote := (s.signal con).settingRemote - 1 }) :
      Does env js s (.remoteSet con success)
        (s.runHandler con (if success then g.onRemoteSdpSuccess else g.onRemoteSdpError)).1
        (s.runHandler con (if success then g.onRemoteSdpSuccess else g.onRemoteSdpError)).2
  | answered (con : ConnId) (description : Option Json) (g : Signal)
      (hpos : 0 < (s.signal con).creatingAnswer)
      (hg : g = { s.signal con with creatingAnswer := (s.signal con).creatingAnswer - 1 }) :
      Does env js s (.answered con description) (s.runHandler con (g.onAnswer js description)).1
        (s.runHandler con (g.onAnswer js description)).2
  | candidate (con : ConnId) (c : Option LocalCandidate) (peer : Peer)
      (hpeer : (s.signal con).peer = some peer) (hdesc : peer.hasLocalDesc = true) :
      Does env js s (.iceCandidate con c) (s.runHandler con ((s.signal con).onicecandidate js c)).1
        (s.runHandler con ((s.signal con).onicecandidate js c)).2
  | reads (con : ConnId) (m : Json) (rest : List Json) (r : Server.Output × Server)
      (hup : s.up con = m :: rest) (hgone : con ∉ s.server.gone)
      (hdispatch : Server.dispatch env s.server con (readMessage m) = .ok r) :
      Does env js s (.data con) [.handled con m]
        { s.runServer r with up := Function.update s.up con rest }
  | disconnects (con : ConnId) (hcon : con < s.next) (hgone : con ∉ s.server.gone) :
      Does env js s (.disconnect con) [.disconnected con]
        (s.runServer (Server.onDisconnect s.server con))
  | changes (pc : PeerId) (state : Server.PeerState) (hpc : pc.nth < s.server.created pc.ws) :
      Does env js s (.stateChange pc state)
        (match state with
        | .disconnected | .failed | .closed => [.ended pc]
        | _ => [])
        (s.runServer (Server.onStateChange s.server pc state))
  | gathers (pc : PeerId) (state : Server.GatheringState) (type sdp : String) :
      Does env js s (.gatheringStateChange pc state type sdp) []
        (s.runServer (Server.onGatheringStateChange env s.server pc state type sdp))

section Does

variable {env : Server.Env} {js : Browser.Env} {s s' : Signalling} {o : List Note} {e : Event}

lemma does_data {con : ConnId} (hstep : s.data env con = .ok (o, s')) : Does env js s (.data con) o s' := by
  unfold Signalling.data at hstep
  split at hstep
  · next hup =>
    obtain ⟨rfl, rfl⟩ := Prod.mk.inj (Except.ok.inj hstep)
    exact .nothing _ (Or.inl hup)
  · next m rest hup =>
    split at hstep
    · next hgone =>
      obtain ⟨rfl, rfl⟩ := Prod.mk.inj (Except.ok.inj hstep)
      exact .nothing _ (Or.inr hgone)
    · next hgone =>
      split at hstep
      · simp at hstep
      · next r hdispatch =>
        obtain ⟨rfl, rfl⟩ := Prod.mk.inj (Except.ok.inj hstep)
        exact .reads con m rest r hup hgone hdispatch

lemma does_call (p : PageId) : Does env js s (.clickCall p) (s.call p).1 (s.call p).2 := by
  unfold Signalling.call
  rcases hp : s.signalObj p with _ | con
  · exact .starts p hp
  · exact .nothing _ (by simp [Idle, hp])

lemma does_hangup (p : PageId) : Does env js s (.clickHangup p) (s.hangup p).1 (s.hangup p).2 := by
  unfold Signalling.hangup
  rcases hp : s.signalObj p with _ | con
  · exact .nothing _ hp
  · exact .clicks p con hp

lemma does_wsOpen (con : ConnId) : Does env js s (.wsOpen con) (s.wsOpen con).1 (s.wsOpen con).2 := by
  unfold Signalling.wsOpen
  split
  · next hopen => exact .opens con hopen.1 hopen.2
  · next hno => exact .nothing _ hno

lemma does_wsClosed (con : ConnId) :
    Does env js s (.wsClosed con) (s.wsClosed con).1 (s.wsClosed con).2 := by
  unfold Signalling.wsClosed
  split
  · next hclose => exact .closes con hclose.1 hclose.2
  · next hno => exact .nothing _ hno

lemma does_wsMessage (con : ConnId) :
    Does env js s (.wsMessage con) (s.wsMessage js con).1 (s.wsMessage js con).2 := by
  unfold Signalling.wsMessage
  split
  · next hdown => exact .nothing _ hdown
  · next m rest hdown =>
    simp only []
    split
    · next hopen => exact .receives con m rest hdown hopen
    · exact .drops con m rest hdown

lemma does_remoteSet (con : ConnId) (success : Bool) :
    Does env js s (.remoteSet con success) (s.remoteSet con success).1 (s.remoteSet con success).2 := by
  unfold Signalling.remoteSet
  simp only []
  split
  · next hpos => exact .remoteSet con success _ hpos rfl
  · next hno => exact .nothing _ hno

lemma does_answered (con : ConnId) (description : Option Json) :
    Does env js s (.answered con description) (s.answered js con description).1
      (s.answered js con description).2 := by
  unfold Signalling.answered
  simp only []
  split
  · next hpos => exact .answered con description _ hpos rfl
  · next hno => exact .nothing _ hno

lemma does_iceCandidate (con : ConnId) (c : Option LocalCandidate) :
    Does env js s (.iceCandidate con c) (s.iceCandidate js con c).1 (s.iceCandidate js con c).2 := by
  unfold Signalling.iceCandidate
  split
  · next hpeer => exact .nothing _ (by simp [Idle, hpeer])
  · next peer hpeer =>
    split
    · next hready => exact .candidate con c peer hpeer hready.1
    · next hno => exact .nothing _ (by simpa [Idle, hpeer] using hno)

lemma does_disconnect (con : ConnId) :
    Does env js s (.disconnect con) (s.disconnect con).1 (s.disconnect con).2 := by
  unfold Signalling.disconnect
  split
  · next hcon => exact .disconnects con hcon.1 hcon.2
  · next hno => exact .nothing _ hno

lemma does_stateChange (pc : PeerId) (state : Server.PeerState) :
    Does env js s (.stateChange pc state) (s.stateChange pc state).1 (s.stateChange pc state).2 := by
  unfold Signalling.stateChange
  split
  · next hpc => exact .changes pc state hpc
  · next hno => exact .nothing _ hno

/-- **What a step does is one of these.** -/
theorem does_of_step (hstep : step env js s e = .ok (o, s')) : Does env js s e o s' := by
  have hok : ∀ {p : List Note × Signalling}, Does env js s e p.1 p.2 →
      (.ok p : Except Server.Fault (List Note × Signalling)) = .ok (o, s') → Does env js s e o s' := by
    intro p h hp
    obtain rfl := Except.ok.inj hp
    exact h
  cases e with
  | data con => exact does_data hstep
  | clickCall p => exact hok (does_call p) hstep
  | clickHangup p => exact hok (does_hangup p) hstep
  | wsOpen con => exact hok (does_wsOpen con) hstep
  | wsClosed con => exact hok (does_wsClosed con) hstep
  | wsMessage con => exact hok (does_wsMessage con) hstep
  | remoteSet con success => exact hok (does_remoteSet con success) hstep
  | answered con description => exact hok (does_answered con description) hstep
  | iceCandidate con c => exact hok (does_iceCandidate con c) hstep
  | disconnect con => exact hok (does_disconnect con) hstep
  | stateChange pc state => exact hok (does_stateChange pc state) hstep
  | gatheringStateChange pc state type sdp =>
    exact hok (.gathers pc state type sdp) hstep

end Does

/-! ### The notes of a session -/

/-- The notes on the page's end of a session. -/
def about (con : ConnId) : Note → Bool
  | .opened c | .closed c | .hangupClicked c _ | .sent c _ => c == con
  | _ => false

/-- The messages a session has sent. -/
def sentBy (con : ConnId) (notes : List Note) : List Json :=
  notes.filterMap fun
    | .sent c m => if c = con then some m else none
    | _ => none

/-- The messages of a session that the server has read. -/
def handledOf (con : ConnId) (notes : List Note) : List Json :=
  notes.filterMap fun
    | .handled c m => if c = con then some m else none
    | _ => none

/-- A step of one session, with its notes. -/
inductive Local (con : ConnId) : Signal → List Note → Signal → Prop
  | idle (g : Signal) : Local con g [] g
  | opens {g : Signal} (h : g.readyState = .connecting) :
    Local con g (.opened con :: g.onopen.1.sent.map (.sent con)) g.onopen.2
  | closes {g : Signal} (h : g.readyState ≠ .closed) : Local con g [.closed con] g.onclose.2
  | clicked (g : Signal) :
    Local con g (.hangupClicked con g.readyState :: g.hangup.1.sent.map (.sent con)) g
  | stays {g : Signal} {r : Effect × Signal} (h : Stays g r) :
    Local con g (r.1.sent.map (.sent con)) r.2

/-- Sessions that were not started are as new, and no page has one. -/
structure Wf (s : Signalling) : Prop where
  started : ∀ p con, s.signalObj p = some con → con < s.next
  fresh : ∀ con, s.next ≤ con → s.signal con = .new

/-- The server reads nothing. -/
def Unread (s : Signalling) (notes : List Note) (s' : Signalling) : Prop :=
  (∀ con, handledOf con notes = []) ∧ s'.server.clients = s.server.clients

/-- The server reads the first message of a session. -/
def Reads (s : Signalling) (notes : List Note) (s' : Signalling) (con : ConnId) (m : Json) : Prop :=
  (∃ rest, s.up con = m :: rest) ∧ notes = [.handled con m] ∧
  s'.server.clients =
    if (readMessage m).isCall then s.server.clients.emplace Server.id ⟨con, s.server.created con⟩
    else if (readMessage m).isHangup then s.server.clients.erase Server.id else s.server.clients

/-- What a step does to all sessions. -/
structure Advances (s : Signalling) (notes : List Note) (s' : Signalling) : Prop where
  wf : Wf s'
  next : s.next ≤ s'.next
  step : ∀ con, Local con (s.signal con) (notes.filter (about con)) (s'.signal con)
  up : ∀ con, s.up con ++ sentBy con notes = handledOf con notes ++ s'.up con
  reads : Unread s notes s' ∨ ∃ con m, Reads s notes s' con m

section Notes

variable {con con' : ConnId} {notes l₁ l₂ : List Note} {ms : List Json}

@[simp] lemma sentBy_append : sentBy con (l₁ ++ l₂) = sentBy con l₁ ++ sentBy con l₂ :=
  List.filterMap_append

@[simp] lemma handledOf_append : handledOf con (l₁ ++ l₂) = handledOf con l₁ ++ handledOf con l₂ :=
  List.filterMap_append

@[simp] lemma sentBy_sent : sentBy con (ms.map (.sent con)) = ms := by
  induction ms with
  | nil => rfl
  | cons m ms ih => simp_all [sentBy]

@[simp] lemma handledOf_sent : handledOf con (ms.map (.sent con')) = [] := by
  induction ms with
  | nil => rfl
  | cons m ms ih => simp [handledOf]

/-- What a session has sent is in the notes about it. -/
lemma sentBy_filter (con : ConnId) (notes : List Note) :
    sentBy con (notes.filter (about con)) = sentBy con notes := by
  induction notes with
  | nil => rfl
  | cons n notes ih =>
    cases n with
    | sent c m => by_cases hc : c = con <;> simp_all [sentBy, about]
    | opened c | closed c | hangupClicked c _ => by_cases hc : c = con <;> simp_all [sentBy, about]
    | _ => simpa [sentBy, about] using ih

lemma filter_sent (con con' : ConnId) (ms : List Json) :
    (ms.map (Note.sent con')).filter (about con) = if con = con' then ms.map (.sent con) else [] := by
  by_cases hcon : con = con'
  · subst hcon
    rw [if_pos rfl, List.filter_eq_self]
    simp [about]
  · rw [if_neg hcon, List.filter_eq_nil_iff]
    simp [about, Ne.symm hcon]

end Notes

section Advances

variable {env : Server.Env} {js : Browser.Env} {s s' : Signalling} {con con' : ConnId}
  {r : Effect × Signal} {o : List Note} {e : Event}

lemma Wf.lt_of_ne_new (h : Wf s) (hne : s.signal con ≠ .new) : con < s.next :=
  Nat.lt_of_not_le fun hle => hne (h.fresh con hle)

lemma runHandler_signal (s : Signalling) (con con' : ConnId) (r : Effect × Signal) :
    (s.runHandler con' r).2.signal con = if con = con' then r.2 else s.signal con := by
  simp [runHandler, Function.update_apply]

lemma Wf.runHandler (h : Wf s) (hcon : con < s.next) (r : Effect × Signal) :
    Wf (s.runHandler con r).2 := by
  constructor
  · intro p c hp
    simp only [Signalling.runHandler] at hp
    split at hp
    · rw [Function.update_apply] at hp
      split at hp
      · simp at hp
      · exact h.started p c hp
    · exact h.started p c hp
  · intro c hc
    have hne : c ≠ con := fun heq => absurd hcon (by rw [← heq]; exact Nat.not_lt.2 hc)
    rw [runHandler_signal, if_neg hne]
    exact h.fresh c hc

/-- Nothing happens at the pages, and the server reads nothing. -/
lemma Advances.idle (h : Wf s) (hpage : s'.signal = s.signal ∧ s'.signalObj = s.signalObj ∧
    s'.next = s.next ∧ s'.up = s.up) (hclients : s'.server.clients = s.server.clients)
    (ho : ∀ con, o.filter (about con) = [] ∧ handledOf con o = []) : Advances s o s' := by
  obtain ⟨hsignal, hobj, hnext, hup⟩ := hpage
  refine ⟨⟨fun p c hp => hnext ▸ h.started p c (hobj ▸ hp), fun c hc => hsignal ▸ h.fresh c (hnext ▸ hc)⟩,
    Nat.le_of_eq hnext.symm, fun c => ?_, fun c => ?_, Or.inl ⟨fun c => (ho c).2, hclients⟩⟩
  · rw [(ho c).1, hsignal]
    exact .idle _
  · rw [← sentBy_filter, (ho c).1, (ho c).2, hup]
    exact List.append_nil _

/-- A handler of one session runs, and there is perhaps a note before its own. -/
lemma Advances.handler (h : Wf s) (hcon : con < s.next) (before : List Note)
    (hbefore : ∀ c, (c ≠ con → before.filter (about c) = []) ∧ sentBy c before = [] ∧
      handledOf c before = [])
    (hlocal : Local con (s.signal con) (before.filter (about con) ++ r.1.sent.map (.sent con)) r.2) :
    Advances s (before ++ (s.runHandler con r).1) (s.runHandler con r).2 := by
  have hnotes : (s.runHandler con r).1 = r.1.sent.map (.sent con) := rfl
  refine ⟨h.runHandler hcon r, le_refl _, fun c => ?_, fun c => ?_, Or.inl ⟨fun c => ?_, rfl⟩⟩
  · rw [runHandler_signal, List.filter_append, hnotes, filter_sent]
    by_cases hc : c = con
    · subst hc
      rw [if_pos rfl, if_pos rfl]
      exact hlocal
    · rw [if_neg hc, if_neg hc, (hbefore c).1 hc]
      exact .idle _
  · rw [sentBy_append, handledOf_append, (hbefore c).2.1, (hbefore c).2.2, hnotes, handledOf_sent,
      ← sentBy_filter c (r.1.sent.map _), filter_sent]
    by_cases hc : c = con
    · simp [hc, runHandler]
    · simp [hc, runHandler, sentBy]
  · rw [handledOf_append, (hbefore c).2.2, hnotes, handledOf_sent, List.append_nil]

lemma Advances.stays (h : Wf s) (hcon : con < s.next) (hr : Stays (s.signal con) r) :
    Advances s (s.runHandler con r).1 (s.runHandler con r).2 :=
  Advances.handler h hcon [] (fun _ => ⟨fun _ => rfl, rfl, rfl⟩) (.stays hr)

/-- A new session is as a session that was not started. -/
lemma Advances.starts (h : Wf s) (p : PageId) : Advances s [] { s with
    signalObj := Function.update s.signalObj p (some s.next)
    owner := Function.update s.owner s.next p
    signal := Function.update s.signal s.next .new
    next := s.next + 1 } := by
  refine ⟨⟨fun q c hq => ?_, fun c hc => ?_⟩, Nat.le_succ _, fun c => ?_,
    fun c => by simp [sentBy, handledOf], Or.inl ⟨fun _ => rfl, rfl⟩⟩
  · simp only [Function.update_apply] at hq
    split at hq
    · exact Option.some.inj hq ▸ Nat.lt_succ_self _
    · exact Nat.lt_succ_of_lt (h.started q c hq)
  · simp only [Function.update_apply]
    split
    · rfl
    · exact h.fresh c (Nat.le_of_succ_le hc)
  · have hsame : Function.update s.signal s.next .new c = s.signal c := by
      rw [Function.update_apply]
      split
      · next heq => rw [heq, h.fresh s.next (le_refl _)]
      · rfl
    show Local c (s.signal c) [] (Function.update s.signal s.next .new c)
    rw [hsame]
    exact .idle _

lemma Advances.clicks (h : Wf s) {p : PageId} (hp : s.signalObj p = some con)
    (hs' : s' = (s.runHandler con (s.signal con).hangup).2 ∨
      s' = { (s.runHandler con (s.signal con).hangup).2 with
        signalObj := Function.update (s.runHandler con (s.signal con).hangup).2.signalObj p none }) :
    Advances s (.hangupClicked con (s.signal con).readyState ::
      (s.runHandler con (s.signal con).hangup).1) s' := by
  have hrun := Advances.handler (r := (s.signal con).hangup) h (h.started p con hp)
    [.hangupClicked con (s.signal con).readyState]
    (fun c => ⟨fun hc => by simp [about, Ne.symm hc], rfl, rfl⟩)
    (by simpa [about] using (Local.clicked (s.signal con) : Local con _ _ _))
  rcases hs' with rfl | rfl
  · exact hrun
  · refine ⟨⟨fun q c hq => ?_, hrun.wf.fresh⟩, hrun.next, hrun.step, hrun.up, hrun.reads⟩
    simp only [Function.update_apply] at hq
    split at hq
    · simp at hq
    · exact hrun.wf.started q c hq

lemma Advances.handled (h : Wf s) {m : Json} {rest : List Json} {r : Server.Output × Server}
    (hup : s.up con = m :: rest)
    (hdispatch : Server.dispatch env s.server con (readMessage m) = .ok r) :
    Advances s [.handled con m] { s.runServer r with up := Function.update s.up con rest } := by
  refine ⟨⟨h.started, h.fresh⟩, le_refl _, fun c => .idle _, fun c => ?_,
    Or.inr ⟨con, m, ⟨rest, hup⟩, rfl, Server.dispatch_clients hdispatch⟩⟩
  by_cases hc : c = con
  · subst hc
    simp [sentBy, handledOf, hup]
  · simp [sentBy, handledOf, hc, Ne.symm hc]

/-- **One step of the system is a step of each session.** -/
theorem Does.advances (h : Wf s) (hd : Does env js s e o s') : Advances s o s' := by
  cases hd with
  | nothing | drops => exact .idle h ⟨rfl, rfl, rfl, rfl⟩ rfl fun _ => ⟨rfl, rfl⟩
  | starts p => exact .starts h p
  | clicks p con hp =>
    refine .clicks h hp ?_
    split
    · exact Or.inl rfl
    · exact Or.inr rfl
  | opens con hcon hready =>
    exact .handler h hcon [.opened con] (fun c => ⟨fun hc => by simp [about, Ne.symm hc], rfl, rfl⟩)
      (by simpa [about] using (Local.opens hready : Local con _ _ _))
  | closes con hcon hready =>
    exact .handler h hcon [.closed con] (fun c => ⟨fun hc => by simp [about, Ne.symm hc], rfl, rfl⟩)
      (by simpa [about] using (Local.closes hready : Local con _ _ _))
  | receives con m rest hdown hopen =>
    have hwf : Wf { s with down := Function.update s.down con rest } := ⟨h.started, h.fresh⟩
    have hcon : con < s.next := h.lt_of_ne_new fun hnew => by simp [hnew, Signal.new] at hopen
    obtain ⟨hwf', hnext, hstep, hup, hreads⟩ :=
      Advances.stays hwf hcon (Stays.onmessage js (s.signal con) m)
    exact ⟨hwf', hnext, hstep, hup, hreads⟩
  | remoteSet con success g hpos hg =>
    subst hg
    have hcon : con < s.next := h.lt_of_ne_new fun hnew => by simp [hnew, Signal.new] at hpos
    refine .stays h hcon ?_
    split
    · exact (Stays.onRemoteSdpSuccess _).of_eq rfl rfl rfl rfl
    · exact (Stays.wsClose _).of_eq rfl rfl rfl rfl
  | answered con description g hpos hg =>
    subst hg
    have hcon : con < s.next := h.lt_of_ne_new fun hnew => by simp [hnew, Signal.new] at hpos
    exact .stays h hcon ((Stays.onAnswer js _ description).of_eq rfl rfl rfl rfl)
  | candidate con c peer hpeer =>
    have hcon : con < s.next := h.lt_of_ne_new fun hnew => by simp [hnew, Signal.new] at hpeer
    exact .stays h hcon (Stays.onicecandidate js _ c)
  | reads con m rest r hup _ hdispatch => exact .handled h hup hdispatch
  | disconnects => exact .idle h ⟨rfl, rfl, rfl, rfl⟩ rfl fun _ => ⟨rfl, rfl⟩
  | changes pc state =>
    exact .idle h ⟨rfl, rfl, rfl, rfl⟩ rfl fun _ => by cases state <;> exact ⟨rfl, rfl⟩
  | gathers pc state type sdp =>
    obtain ⟨out, heq, -⟩ := Server.onGatheringStateChange_eq env s.server pc state type sdp
    exact .idle h ⟨rfl, rfl, rfl, rfl⟩ (by rw [heq]; rfl) fun _ => ⟨rfl, rfl⟩

theorem step_advances (h : Wf s) (hstep : step env js s e = .ok (o, s')) : Advances s o s' :=
  (does_of_step hstep).advances h

end Advances

end RcControl.Signalling
