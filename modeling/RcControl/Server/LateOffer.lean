import RcControl.Server.Handlers

/-!
# Offers that come late

The callback for gathering sends the offer into the socket of the `call`, to which it holds a plain
pointer. It asks whether the peer connection is still there, not whether the socket is. Gathering ends
when it ends, so what decides is whether the entry of a socket can outlive it: only a hangup takes an
entry out of `clients`.
-/

namespace RcControl.Server

open Lib Lib.Run

/-- The callback for gathering is called. -/
def Event.gathers : Event → Bool
  | .gatheringStateChange _ _ _ _ => true
  | _ => false

/-- `fs` is `es` with the callback for gathering called at other times, and for other peer
connections. -/
def Reschedules (fs es : List Event) : Prop :=
  fs.filter (fun e => !e.gathers) = es.filter fun e => !e.gathers

/-- Nothing is received from a socket whose disconnect has been reported. -/
def FromOpen (s : Server) : Event → Prop
  | .data con _ => con ∉ s.gone
  | _ => True

/-- The callback for gathering sends into no socket whose disconnect has been reported. -/
def SendsToOpen (env : Env) (s : Server) : Event → Prop
  | .gatheringStateChange pc state type sdp =>
    ∀ m ∈ (onGatheringStateChange env s pc state type sdp).1.sent, m.1 ∉ s.gone
  | _ => True

/-- A socket is disconnected only when the entry is not its own. -/
def HungUpFirst (s : Server) : Event → Prop
  | .disconnect con => ∀ pc, s.clients.lookup id = some pc → pc.ws ≠ con
  | _ => True

/-- The socket of the entry is open. -/
def EntryOpen (s : Server) : Prop := ∀ pc, s.clients.lookup id = some pc → pc.ws ∉ s.gone

/-! ### One event -/

section Step

variable {env : Env} {s s' : Server} {con : ConnId} {e : Event} {o : Output} {pc : PeerId}

lemma alive_iff : s.alive pc = true ↔ s.clients.lookup id = some pc := by
  simp [alive]

/-- What the callback sends goes to the socket of the entry. -/
lemma sent_onGatheringStateChange {m : ConnId × Json} {state : GatheringState} {type sdp : String}
    (h : m ∈ (onGatheringStateChange env s pc state type sdp).1.sent) :
    s.clients.lookup id = some pc ∧ m.1 = pc.ws := by
  unfold onGatheringStateChange at h
  split at h
  · split at h
    · next halive =>
      rw [List.mem_singleton.1 h]
      exact ⟨alive_iff.1 halive, rfl⟩
    · simp at h
  · simp at h

lemma sendsToOpen_of_entryOpen (h : EntryOpen s) (e : Event) : SendsToOpen env s e := by
  cases e with
  | gatheringStateChange pc state type sdp =>
    intro m hm
    obtain ⟨hpc, hws⟩ := sent_onGatheringStateChange hm
    exact hws ▸ h pc hpc
  | _ => trivial

lemma onOperation_gone (env : Env) (s : Server) (op : PcOp) :
    (onOperation env s (some op)).2.gone = s.gone := by
  rcases hl : s.clients.lookup id with _ | q
  · rw [onOperation_of_none hl]
  · obtain ⟨l, hl'⟩ := perform_state env s q op
    rw [onOperation_of_some hl, hl']

lemma onHangup_gone (s : Server) : (onHangup s).2.gone = s.gone := by
  rcases hl : s.clients.lookup id with _ | q
  · rw [onHangup_of_none hl]
  · rw [onHangup_of_some hl]

/-- A text leaves the sockets alone. -/
lemma onData_gone {text : String} (hs : onData env s con text = .ok (o, s')) : s'.gone = s.gone := by
  rcases onData_cases env con text with ⟨-, heq⟩ | ⟨-, -, heq⟩ | ⟨-, -, heq⟩ | ⟨-, -, -, op, heq⟩ |
    ⟨-, -, -, heq⟩
  · simp [heq] at hs
  · obtain ⟨threw, hthrew⟩ := heq s
    obtain ⟨-, rfl⟩ := Prod.mk.inj (Except.ok.inj (hthrew.symm.trans hs))
    rfl
  · obtain rfl := congrArg Prod.snd (Except.ok.inj ((heq s).symm.trans hs))
    rfl
  · obtain rfl := congrArg Prod.snd (Except.ok.inj ((heq s).symm.trans hs))
    exact onOperation_gone env s op
  · obtain rfl := congrArg Prod.snd (Except.ok.inj ((heq s).symm.trans hs))
    exact onHangup_gone s

/-- After a text the entry is the one before or the caller's. -/
lemma onData_entry {text : String} (hs : onData env s con text = .ok (o, s')) {pc : PeerId}
    (hpc : s'.clients.lookup id = some pc) : s.clients.lookup id = some pc ∨ pc.ws = con := by
  rw [dispatch_clients hs] at hpc
  split at hpc
  · rw [Registry.lookup_emplace] at hpc
    rcases hl : s.clients.lookup id with _ | q
    · rw [hl, Option.getD_none, Option.some.injEq] at hpc
      exact Or.inr (hpc ▸ rfl)
    · rw [hl, Option.getD_some] at hpc
      exact Or.inl hpc
  · split at hpc
    · rw [AList.lookup_erase] at hpc
      simp at hpc
    · exact Or.inl hpc

/-- **One event keeps the socket of the entry open**, unless it is the disconnect of that socket. -/
theorem entryOpen_step (h : EntryOpen s) (hopen : FromOpen s e) (hfirst : HungUpFirst s e)
    (hs : step env s e = .ok (o, s')) : EntryOpen s' := by
  cases e with
  | data con text =>
    intro pc hpc
    rw [onData_gone hs]
    rcases onData_entry hs hpc with hpc | rfl
    · exact h pc hpc
    · exact hopen
  | disconnect con =>
    obtain ⟨-, rfl⟩ := Prod.mk.inj (Except.ok.inj hs)
    intro pc hpc hmem
    rcases List.mem_cons.1 hmem with heq | hmem
    · exact hfirst pc hpc heq
    · exact h pc hpc hmem
  | gatheringStateChange pc state type sdp =>
    obtain ⟨o', heq, -⟩ := onGatheringStateChange_eq env s pc state type sdp
    obtain ⟨-, rfl⟩ := Prod.mk.inj (heq.symm.trans (Except.ok.inj hs))
    exact h
  | connect con =>
    obtain ⟨-, rfl⟩ := Prod.mk.inj (Except.ok.inj hs)
    exact h
  | stateChange pc state =>
    obtain ⟨-, rfl⟩ := Prod.mk.inj (Except.ok.inj hs)
    exact h

end Step

/-! ### All schedules -/

section Run

variable {env : Env} {s : Server} {es fs : List Event}

/-- While each socket hangs up first, the callback may come at any time. -/
theorem sendsToOpen_run (h : EntryOpen s) (hopen : Along (step env) FromOpen s es)
    (hfirst : Along (step env) HungUpFirst s es) : Along (step env) (SendsToOpen env) s es := by
  induction es generalizing s with
  | nil => trivial
  | cons e es ih =>
    refine ⟨sendsToOpen_of_entryOpen h e, fun o s' hs => ?_⟩
    exact ih (entryOpen_step h hopen.1 hfirst.1 hs) (hopen.2 o s' hs) (hfirst.2 o s' hs)

/-- What does not look at the callback for gathering does not depend on when it is called. -/
lemma along_reschedules {P : Server → Event → Prop} (hP : ∀ s e, e.gathers = true → P s e)
    (h : Reschedules fs es) : Along (step env) P s fs ↔ Along (step env) P s es := by
  have hskip : ∀ s e, (!e.gathers) = false → P s e ∧ ∃ o, step env s e = .ok (o, s) := by
    intro s e he
    have he : e.gathers = true := by simpa using he
    refine ⟨hP s e he, ?_⟩
    cases e with
    | gatheringStateChange pc state type sdp =>
      obtain ⟨o, heq, -⟩ := onGatheringStateChange_eq env s pc state type sdp
      exact ⟨o, congrArg _ heq⟩
    | _ => simp [Event.gathers] at he
  rw [along_filter hskip, h, ← along_filter hskip]

/-- A socket that does not hang up first can be sent an offer after its disconnect. -/
theorem hungUpFirst_of_schedules (hes : ∀ e ∈ es, e.gathers = false)
    (hall : ∀ fs, fs.filter (fun e => !e.gathers) = es → Along (step env) (SendsToOpen env) s fs) :
    Along (step env) HungUpFirst s es := by
  induction es generalizing s with
  | nil => trivial
  | cons e es ih =>
    have he : e.gathers = false := hes e List.mem_cons_self
    have hes' : ∀ e ∈ es, e.gathers = false := fun f hf => hes f (List.mem_cons_of_mem e hf)
    refine ⟨?_, fun o s' hs => ih hes' fun fs hfs => ?_⟩
    · cases e with
      | disconnect con =>
        rintro pc hpc rfl
        -- gathering ends right after the disconnect
        have hlate := hall (.disconnect pc.ws :: .gatheringStateChange pc .complete "offer" "" :: es) (by
          rw [List.filter_cons_of_pos (by rfl), List.filter_cons_of_neg (by simp [Event.gathers]),
            List.filter_eq_self.2 fun f hf => by simp [hes' f hf]])
        have hsent : SendsToOpen env (onDisconnect s pc.ws).2
            (.gatheringStateChange pc .complete "offer" "") := (hlate.2 _ _ rfl).1
        have halive : (onDisconnect s pc.ws).2.alive pc = true := alive_iff.2 hpc
        refine hsent (pc.ws, offer env "offer" "") ?_ List.mem_cons_self
        simp only [onGatheringStateChange, halive, if_true]
        exact List.mem_singleton_self _
      | _ => trivial
    · refine (hall (e :: fs) ?_).2 o s' hs
      rw [List.filter_cons_of_pos (by rw [he]; rfl), hfs]

/-- **Late offers.** Whatever comes from sockets and peer connections, the callback for gathering
sends into no socket whose disconnect has been reported, however late and for whatever peer connection
it is called, exactly if no socket is disconnected while the entry is its own. -/
theorem sendsToOpen_iff (env : Env) (es : List Event) (hopen : Along (step env) FromOpen start es) :
    (∀ fs, Reschedules fs es → Along (step env) (SendsToOpen env) start fs) ↔
      Along (step env) HungUpFirst start es := by
  have hgathers : ∀ s e, e.gathers = true → HungUpFirst s e := by
    intro s e he
    cases e with
    | disconnect con => simp [Event.gathers] at he
    | _ => trivial
  constructor
  · intro hall
    have hes : Reschedules (es.filter fun e => !e.gathers) es := by
      rw [Reschedules, List.filter_filter]
      simp
    rw [← along_reschedules hgathers hes]
    refine hungUpFirst_of_schedules (fun e he => ?_) fun fs hfs => hall fs hfs
    simpa using (List.mem_filter.1 he).2
  · intro hfirst fs hfs
    have hopen' : Along (step env) FromOpen start fs := by
      refine (along_reschedules (fun s e he => ?_) hfs).2 hopen
      cases e with
      | data con text => simp [Event.gathers] at he
      | _ => trivial
    exact sendsToOpen_run (fun pc hpc => by simp [start] at hpc) hopen'
      ((along_reschedules hgathers hfs).2 hfirst)

end Run

/-- A socket that calls and hangs up before it is disconnected. -/
theorem sendsToOpen_hungUp :
    (∀ fs, Reschedules fs [.data 0 callText, .data 0 hangupText, .disconnect 0] →
      Along (step sampleEnv) (SendsToOpen sampleEnv) start fs) ↔
      Along (step sampleEnv) HungUpFirst start
        [.data 0 callText, .data 0 hangupText, .disconnect 0] := by
  refine sendsToOpen_iff sampleEnv _ ?_
  refine along_cons_ok rfl (show 0 ∉ [] by simp) ?_
  refine along_cons_ok rfl (show 0 ∉ [] by simp) ?_
  exact along_cons_ok rfl trivial trivial

/-- A call, a disconnect, and then the candidates are all there. -/
theorem cutOff_lateOffer :
    ¬ ∀ (env : Env) (es : List Event), Along (step env) FromOpen start es →
      Along (step env) (SendsToOpen env) start es := by
  intro hclaim
  have ha := hclaim sampleEnv
    [.data 0 callText, .disconnect 0, .gatheringStateChange ⟨0, 0⟩ .complete "offer" "v=0"]
    (along_cons_ok rfl (show 0 ∉ [] by simp)
      (along_cons_ok rfl trivial (along_cons_ok rfl trivial trivial)))
  have hlast := ((ha.2 _ _ rfl).2 _ _ rfl).1
  exact hlast (0, offer sampleEnv "offer" "v=0") (List.mem_singleton_self _) (List.mem_singleton_self _)

end RcControl.Server
