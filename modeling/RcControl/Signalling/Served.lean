import RcControl.Signalling.History
import Mathlib.Data.List.TakeWhile

/-!
# What the server does for one session

One session, and no other. What the server calls on the peer connections is a function of the messages it
has read (`operated`): those of the replies, up to the first hangup, which closes the peer connection and
erases the entry, after which it finds nobody to do anything to (`serves_step`).
-/

namespace RcControl.Signalling

open Lib Lib.Run Browser
open Server (ConnId PeerId PcOp Json readMessage)

/-! ### What the server does to the peer connections -/

/-- The operations among the actions, in their order. -/
def operations (actions : List (PeerId × Server.Action)) : List (PeerId × PcOp) :=
  actions.filterMap fun
    | (pc, .op o) => some (pc, o)
    | _ => none

/-- What the server does in a step. -/
def served (env : Server.Env) (s : Signalling) : Event → List (PeerId × Server.Action)
  | .data con =>
    match s.up con with
    | [] => []
    | message :: _ =>
      if con ∈ s.server.gone then []
      else
        match Server.dispatch env s.server con (readMessage message) with
        | .error _ => []
        | .ok r => r.1.actions
  | .disconnect con => (Server.onDisconnect s.server con).1.actions
  | .stateChange pc state => (Server.onStateChange s.server pc state).1.actions
  | .gatheringStateChange pc state type sdp =>
    (Server.onGatheringStateChange env s.server pc state type sdp).1.actions
  | _ => []

/-- A step, with the operations the server calls in it. -/
def watched (env : Server.Env) (js : Browser.Env) (s : Signalling) (e : Event) :
    Except Server.Fault ((List Note × List (PeerId × PcOp)) × Signalling) :=
  match step env js s e with
  | .error f => .error f
  | .ok (o, s') => .ok ((o, operations (served env s e)), s')

/-- The operation a message asks for. -/
def operation (env : Server.Env) (m : Json) : Option PcOp :=
  match readMessage m with
  | .signal .answer type message => Server.descriptionOf env type message
  | .signal .addIceCandidate _ message => Server.candidateOf env message
  | _ => none

/-- The messages before the first hangup. -/
def untilHangup (ms : List Json) : List Json := ms.takeWhile fun m => !(readMessage m).isHangup

/-- One of the messages is a hangup. -/
def hungUp (ms : List Json) : Bool := ms.any fun m => (readMessage m).isHangup

/-- Neither the call nor a hangup. -/
def isReply (m : Json) : Bool := !(readMessage m).isCall && !(readMessage m).isHangup

/-- The operations the messages of a session come to. -/
def operated (env : Server.Env) (ms : List Json) : List PcOp :=
  (untilHangup ms).filterMap (operation env) ++ if hungUp ms then [.close] else []

/-- The peer connection of the only session. -/
def only : PeerId := ⟨0, 0⟩

section Messages

variable {env : Server.Env} {m : Json} {ms l : List Json}

/-- Only replies ask for an operation. -/
lemma isReply_of_operation {o : PcOp} (h : operation env m = some o) : isReply m = true := by
  unfold operation at h
  unfold isReply Server.Received.isCall Server.Received.isHangup
  split at h <;> simp_all

@[simp] lemma hungUp_append : hungUp (ms ++ l) = (hungUp ms || hungUp l) := List.any_append

/-- A hangup hides what comes after it. -/
lemma untilHangup_append :
    untilHangup (ms ++ l) = if hungUp ms then untilHangup ms else ms ++ untilHangup l := by
  induction ms with
  | nil => rfl
  | cons m ms ih =>
    by_cases hm : (readMessage m).isHangup = true
    · simp [untilHangup, hungUp, hm]
    · have hcons : ∀ l, untilHangup (m :: l) = m :: untilHangup l := fun l => by
        simp [untilHangup, hm]
      have hsame : hungUp (m :: ms) = hungUp ms := by simp [hungUp, hm]
      rw [List.cons_append, hcons, hcons, ih, hsame]
      split <;> rfl

lemma untilHangup_of_not (h : hungUp ms = false) : untilHangup ms = ms := by
  have hmem : ∀ m ∈ ms, (readMessage m).isHangup = false := by simpa [hungUp] using h
  exact List.takeWhile_eq_self_iff.2 fun m hm => by simp [hmem m hm]

lemma operated_append_of_hungUp (h : hungUp ms = true) : operated env (ms ++ l) = operated env ms := by
  rw [operated, operated, untilHangup_append, hungUp_append, h, if_pos rfl, Bool.true_or]

lemma operated_snoc_of_not (h : hungUp ms = false) : operated env (ms ++ [m]) = operated env ms ++
    if (readMessage m).isHangup then [.close] else (operation env m).toList := by
  have hms : operated env ms = ms.filterMap (operation env) := by
    simp [operated, untilHangup_of_not h, h]
  have hsnoc : operated env (ms ++ [m]) =
      ms.filterMap (operation env) ++ operated env [m] := by
    simp [operated, untilHangup_append, h]
  rw [hsnoc, hms]
  congr 1
  by_cases hm : (readMessage m).isHangup = true
  · simp [operated, untilHangup, hungUp, hm]
  · rcases ho : operation env m with _ | o
    · simp [operated, untilHangup, hungUp, hm, ho]
    · simp [operated, untilHangup, hungUp, hm, ho]

end Messages

/-! ### The server -/

/-- The server has read these messages of the only session, and called these operations. -/
structure Serves (env : Server.Env) (ms : List Json) (ops : List (PeerId × PcOp)) (s : Server) :
    Prop where
  ops : ops = (operated env ms).map fun o => (only, o)
  created : ms = [] → s.created 0 = 0
  entry : ms ≠ [] → hungUp ms = false → s.clients.lookup Server.id = some only
  noEntry : ms = [] ∨ hungUp ms = true → s.clients.lookup Server.id = none

section Serves

variable {env : Server.Env} {ms : List Json} {m : Json} {ops : List (PeerId × PcOp)} {s s' : Server}
  {out : Server.Output}

lemma Serves.congr (h : Serves env ms ops s) (hcreated : s'.created = s.created)
    (hclients : s'.clients = s.clients) : Serves env ms ops s' where
  ops := h.ops
  created hms := (congrFun hcreated 0).trans (h.created hms)
  entry hms hup := hclients ▸ h.entry hms hup
  noEntry hms := hclients ▸ h.noEntry hms

/-- The call comes first. -/
lemma Serves.call (h : Serves env [] ops s) (hcall : (readMessage m).isCall = true)
    (hstep : Server.dispatch env s 0 (readMessage m) = .ok (out, s')) :
    Serves env [m] (ops ++ operations out.actions) s' := by
  have hnone := h.noEntry (Or.inl rfl)
  have hup : (readMessage m).isHangup = false := not_isHangup_of_isCall hcall
  have hreply : operation env m = none := by
    by_contra hsome
    obtain ⟨o, ho⟩ := Option.ne_none_iff_exists'.1 hsome
    have hm := isReply_of_operation ho
    simp [isReply, hcall] at hm
  have hdispatch : Server.dispatch env s 0 (readMessage m) = .ok (Server.onCall s 0) := by
    rcases Server.dispatch_cases env 0 (readMessage m) with ⟨hund, -⟩ | ⟨-, hno, -⟩ | ⟨-, -, heq⟩ |
      ⟨-, hno, -⟩ | ⟨-, hno, -⟩
    · simp [hund, Server.Received.isCall] at hcall
    · simp [hno] at hcall
    · exact heq s
    · simp [hno] at hcall
    · simp [hno] at hcall
  rw [hdispatch, Server.onCall_of_none hnone] at hstep
  obtain ⟨rfl, rfl⟩ := Prod.mk.inj (Except.ok.inj hstep)
  constructor
  · rw [h.ops]
    simp [operated, untilHangup, hungUp, hup, hreply, operations]
  · simp
  · intro _ _
    rw [AList.lookup_insert, h.created rfl]
    rfl
  · simp [hungUp, hup]

/-- What comes after a hangup finds no entry. -/
lemma Serves.late (h : Serves env ms ops s) (hms : hungUp ms = true)
    (hcall : (readMessage m).isCall = false)
    (hstep : Server.dispatch env s 0 (readMessage m) = .ok (out, s')) :
    Serves env (ms ++ [m]) (ops ++ operations out.actions) s' := by
  have hnone := h.noEntry (Or.inr hms)
  have hnothing : operations out.actions = [] ∧ s' = s := by
    rcases Server.dispatch_cases env 0 (readMessage m) with ⟨-, heq⟩ | ⟨-, -, heq⟩ | ⟨hyes, -, -⟩ |
      ⟨-, -, -, o, heq⟩ | ⟨-, -, -, heq⟩
    · simp [heq] at hstep
    · obtain ⟨threw, hthrew⟩ := heq s
      rw [hthrew] at hstep
      obtain ⟨rfl, rfl⟩ := Prod.mk.inj (Except.ok.inj hstep)
      exact ⟨rfl, rfl⟩
    · simp [hyes] at hcall
    · rw [heq, Server.onOperation_of_none hnone] at hstep
      obtain ⟨rfl, rfl⟩ := Prod.mk.inj (Except.ok.inj hstep)
      exact ⟨rfl, rfl⟩
    · rw [heq, Server.onHangup_of_none hnone] at hstep
      obtain ⟨rfl, rfl⟩ := Prod.mk.inj (Except.ok.inj hstep)
      exact ⟨rfl, rfl⟩
  obtain ⟨hops, rfl⟩ := hnothing
  have hms' : hungUp (ms ++ [m]) = true := by rw [hungUp_append, hms, Bool.true_or]
  rw [hops, List.append_nil]
  refine ⟨h.ops.trans (by rw [operated_append_of_hungUp hms]), fun hnil => ?_, fun _ hno => ?_,
    fun _ => hnone⟩
  · simp at hnil
  · rw [hms'] at hno
    simp at hno

lemma operations_onOperation {pc : PeerId} (hpc : s.clients.lookup Server.id = some pc)
    (o : Option PcOp) :
    operations (Server.onOperation env s o).1.actions = o.toList.map fun o => (pc, o) := by
  cases o with
  | none =>
    obtain ⟨threw, hthrew⟩ := Server.onOperation_none env s
    rw [hthrew]
    rfl
  | some o =>
    rw [Server.onOperation_of_some hpc, Server.perform_actions]
    rfl

/-- What a message does to the entry. -/
lemma operations_dispatch {pc : PeerId} (hpc : s.clients.lookup Server.id = some pc)
    (hcall : (readMessage m).isCall = false)
    (hstep : Server.dispatch env s 0 (readMessage m) = .ok (out, s')) :
    operations out.actions =
      (if (readMessage m).isHangup then [.close] else (operation env m).toList).map
        fun o => (pc, o) := by
  rcases hm : readMessage m with threw | _ | ⟨_ | _ | _ | _, type, message⟩
  · rw [hm] at hstep
    obtain ⟨rfl, -⟩ := Prod.mk.inj (Except.ok.inj hstep)
    simp [operation, hm, Server.Received.isHangup, operations]
  · simp [hm, Server.dispatch] at hstep
  · simp [hm, Server.Received.isCall] at hcall
  · rw [hm] at hstep
    obtain rfl : _ = out := congrArg Prod.fst (Except.ok.inj hstep)
    rw [operations_onOperation hpc]
    simp [operation, hm, Server.Received.isHangup]
  · rw [hm] at hstep
    obtain rfl : _ = out := congrArg Prod.fst (Except.ok.inj hstep)
    rw [operations_onOperation hpc]
    simp [operation, hm, Server.Received.isHangup]
  · rw [hm] at hstep
    obtain rfl : _ = out := congrArg Prod.fst (Except.ok.inj hstep)
    rw [Server.onHangup_of_some hpc]
    simp [Server.Received.isHangup, operations]

/-- A reply or a hangup finds the entry of the call. -/
lemma Serves.inTime (h : Serves env ms ops s) (hne : ms ≠ []) (hms : hungUp ms = false)
    (hcall : (readMessage m).isCall = false)
    (hstep : Server.dispatch env s 0 (readMessage m) = .ok (out, s')) :
    Serves env (ms ++ [m]) (ops ++ operations out.actions) s' := by
  have hsome := h.entry hne hms
  have hclients := Server.dispatch_clients hstep
  have hup : hungUp (ms ++ [m]) = (readMessage m).isHangup := by
    rw [hungUp_append, hms, Bool.false_or]
    simp [hungUp]
  rw [if_neg (by simp [hcall])] at hclients
  refine ⟨?_, fun hnil => ?_, fun _ hno => ?_, fun hyes => ?_⟩
  · rw [operations_dispatch hsome hcall hstep, h.ops, operated_snoc_of_not hms, List.map_append]
  · simp at hnil
  · rw [hup] at hno
    rw [hclients, hno, if_neg (by decide), hsome]
  · have hyes : (readMessage m).isHangup = true := hup ▸ hyes.resolve_left (by simp)
    rw [hclients, if_pos hyes, AList.lookup_erase]

/-- **One message.** -/
theorem Serves.step (h : Serves env ms ops s)
    (hfirst : ms = [] ∧ (readMessage m).isCall = true ∨ ms ≠ [] ∧ (readMessage m).isCall = false)
    (hstep : Server.dispatch env s 0 (readMessage m) = .ok (out, s')) :
    Serves env (ms ++ [m]) (ops ++ operations out.actions) s' := by
  rcases hfirst with ⟨rfl, hcall⟩ | ⟨hne, hcall⟩
  · exact h.call hcall hstep
  · rcases hms : hungUp ms
    · exact h.inTime hne hms hcall hstep
    · exact h.late hms hcall hstep

end Serves

/-! ### A step of the system -/

section Step

variable {env : Server.Env} {js : Browser.Env} {e : Event} {s s' : Signalling} {notes o : List Note}
  {ops : List (PeerId × PcOp)}

/-- No message is read, and the server has the entry and the peer connections it had. -/
structure Unserved (s : Signalling) (o : List Note) (s' : Signalling) : Prop where
  handled : handledOf 0 o = []
  created : s'.server.created = s.server.created
  clients : s'.server.clients = s.server.clients

lemma Unserved.handler {t : Signalling} (ht : t.server = s.server) (con : ConnId) (r : Effect × Signal) :
    Unserved s (t.runHandler con r).1 (t.runHandler con r).2 :=
  ⟨handledOf_sent, congrArg Server.created ht, congrArg Server.clients ht⟩

/-- Only what the server reads makes it do anything. -/
lemma Does.unserved (hd : Does env js s e o s') (hdata : ∀ con, e ≠ .data con) : Unserved s o s' := by
  cases hd with
  | clicks p con =>
    have hhandled := (Unserved.handler (s := s) rfl con (s.signal con).hangup).handled
    split <;> exact ⟨hhandled, rfl, rfl⟩
  | opens con => exact ⟨(Unserved.handler (s := s) rfl con (s.signal con).onopen).handled, rfl, rfl⟩
  | closes con => exact ⟨(Unserved.handler (s := s) rfl con (s.signal con).onclose).handled, rfl, rfl⟩
  | receives con =>
    refine .handler ?_ con _
    rfl
  | remoteSet con | answered con | candidate con => exact .handler rfl con _
  | reads con => exact absurd rfl (hdata con)
  | changes pc state =>
    refine ⟨?_, rfl, rfl⟩
    cases state <;> rfl
  | gathers pc state type sdp =>
    obtain ⟨out, heq, -⟩ := Server.onGatheringStateChange_eq env s.server pc state type sdp
    rw [heq]
    exact ⟨rfl, rfl, rfl⟩
  | nothing | starts | drops | disconnects => exact ⟨rfl, rfl, rfl⟩

lemma operations_served (hdata : ∀ con, e ≠ .data con) : operations (served env s e) = [] := by
  cases e with
  | data con => exact absurd rfl (hdata con)
  | gatheringStateChange pc state type sdp =>
    obtain ⟨out, heq, hactions⟩ := Server.onGatheringStateChange_eq env s.server pc state type sdp
    rw [served, heq, hactions]
    rfl
  | _ => rfl

/-- The call is the first message of a session, and no message after it is one. -/
lemma Recorded.first {con : ConnId} {m : Json} {rest : List Json} (h : Recorded notes s)
    (hup : s.up con = m :: rest) :
    handledOf con notes = [] ∧ (readMessage m).isCall = true ∨
      handledOf con notes ≠ [] ∧ (readMessage m).isCall = false := by
  have hsent := h.up con
  rw [hup] at hsent
  rcases h.tracks con with hun | hop
  · rw [← sentBy_filter, hun.sent] at hsent
    simp at hsent
  · obtain ⟨later, hlater, hno, -⟩ := hop.sent
    rw [sentBy_filter, hsent] at hlater
    rcases hh : handledOf con notes with _ | ⟨x, l⟩
    · rw [hh, List.nil_append] at hlater
      refine Or.inl ⟨rfl, ?_⟩
      rw [(List.cons.inj hlater).1, readMessage_callRequest]
      rfl
    · rw [hh, List.cons_append] at hlater
      refine Or.inr ⟨by simp, hno m ?_⟩
      rw [← (List.cons.inj hlater).2]
      simp

/-- **The server's part of a step.** -/
theorem serves_step (h : Recorded notes s) (hnext : s.next ≤ 1)
    (hserves : Serves env (handledOf 0 notes) ops s.server) (hstep : step env js s e = .ok (o, s')) :
    Serves env (handledOf 0 (notes ++ o)) (ops ++ operations (served env s e)) s'.server := by
  have hd := does_of_step hstep
  by_cases hdata : ∃ con, e = .data con
  · obtain ⟨con, rfl⟩ := hdata
    cases hd with
    | nothing _ hidle =>
      have hnone : served env s (.data con) = [] := by
        rcases hidle with hup | hgone
        · simp [served, hup]
        · simp only [served, if_pos hgone]
          split <;> rfl
      rw [hnone, operations, List.filterMap_nil, List.append_nil, List.append_nil]
      exact hserves
    | reads _ m rest r hup hgone hdispatch =>
      have hcon : con = 0 := by
        refine Nat.lt_one_iff.1 (lt_of_lt_of_le (h.lt_next ?_) hnext)
        simp [h.up, hup]
      subst hcon
      have hactions : served env s (.data 0) = r.1.actions := by simp [served, hup, hgone, hdispatch]
      rw [hactions, handledOf_append, handledOf_handled, if_pos rfl]
      exact hserves.step (h.first hup) hdispatch
  · have hdata : ∀ con, e ≠ .data con := fun con he => hdata ⟨con, he⟩
    obtain ⟨hhandled, hcreated, hclients⟩ := hd.unserved hdata
    rw [handledOf_append, hhandled, operations_served hdata, List.append_nil, List.append_nil]
    exact hserves.congr hcreated hclients

end Step

end RcControl.Signalling
