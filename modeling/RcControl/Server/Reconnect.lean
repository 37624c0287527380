import RcControl.Server.Handlers

/-!
# One session after another

A session opens a socket, calls, sends signals and disconnects. Nothing but a hangup takes the entry
out of `clients`: `onDisconnect` only sends a message, and what the callback for state changes would
erase is commented out. So the next `call` works only if the session before hung up: if it did not,
`emplace` keeps the old peer connection, and the messages of the new session go there.
-/

namespace RcControl.Server

open Lib Lib.Run

/-- A text with one of the three other signals. -/
def isSignal (env : Env) (text : String) : Bool :=
  match received env text with
  | .signal .call _ _ => false
  | .signal _ _ _ => true
  | _ => false

/-- A session: a `call`, then signals. -/
structure Session (env : Env) where
  con : ConnId
  call : String
  messages : List String
  call_isCall : isCall env call = true
  messages_signal : ∀ m ∈ messages, isSignal env m = true

def Session.events {env : Env} (σ : Session env) : List Event :=
  .connect σ.con :: .data σ.con σ.call :: (σ.messages.map (Event.data σ.con) ++ [.disconnect σ.con])

/-- Not one of the callbacks of a peer connection, which come at any time. -/
def Event.ofSocket : Event → Bool
  | .stateChange _ _ => false
  | .gatheringStateChange _ _ _ _ => false
  | _ => true

/-- The peer connection created for a socket's first call. -/
def ownPeer (con : ConnId) : PeerId := ⟨con, 0⟩

/-- `call` puts the session's own peer connection in `clients`; any other signal finds it there, and
is applied to it and to no other. -/
def ServesOwn (env : Env) (s : Server) : Event → Prop
  | .data con text =>
    if isCall env text then
      ∃ o s', onData env s con text = .ok (o, s') ∧ s'.clients.lookup id = some (ownPeer con)
    else
      s.clients.lookup id = some (ownPeer con) ∧
        ∃ o s', onData env s con text = .ok (o, s') ∧ (∀ x ∈ o.actions, x.1 = ownPeer con) ∧
          (operates env text = true → o.actions ≠ [])
  | _ => True

/-- Each session but the last hangs up, and none sends anything after its hangup. -/
def HungUp {env : Env} (sessions : List (Session env)) : Prop :=
  (∀ σ ∈ sessions, ∀ m ∈ σ.messages.dropLast, isHangup env m = false) ∧
    ∀ σ ∈ sessions.dropLast, ∃ m ∈ σ.messages, isHangup env m = true

/-! ### One message -/

section Message

variable {env : Env} {s : Server} {con : ConnId} {text : String} {pc : PeerId}

lemma isCall_of_isSignal (h : isSignal env text = true) : isCall env text = false := by
  revert h
  unfold isSignal isCall Received.isCall
  rcases received env text with threw | _ | ⟨_ | _ | _ | _, type, message⟩ <;> simp

lemma onData_call (s : Server) (con : ConnId) (h : isCall env text = true) :
    onData env s con text = .ok (onCall s con) := by
  rcases onData_cases env con text with ⟨hund, -⟩ | ⟨-, hno, -⟩ | ⟨-, -, heq⟩ | ⟨-, hno, -⟩ |
    ⟨-, hno, -⟩
  · simp [isCall, hund, Received.isCall] at h
  · simp [hno] at h
  · exact heq s
  · simp [hno] at h
  · simp [hno] at h

/-- A signal is applied to the entry, which it leaves where it is unless it is a hangup. -/
theorem onData_signal (con : ConnId) (h : isSignal env text = true) (hs : s.clients.lookup id = some pc) :
    ∃ o s', onData env s con text = .ok (o, s') ∧ (∀ x ∈ o.actions, x.1 = pc) ∧
      (operates env text = true → o.actions ≠ []) ∧ s'.created = s.created ∧
      s'.clients.lookup id = if isHangup env text then none else some pc := by
  rcases onData_cases env con text with ⟨hund, -⟩ | ⟨hop, -, heq⟩ | ⟨hcall, -⟩ | ⟨-, -, hno, o, heq⟩ |
    ⟨-, -, hup, heq⟩
  · simp [isSignal, hund] at h
  · obtain ⟨threw, hst⟩ := heq s
    have hno : isHangup env text = false := by
      by_contra hup
      rw [operates, Received.operates_of_isHangup (by simpa [isHangup] using hup)] at hop
      simp at hop
    refine ⟨_, s, hst, by simp, by simp [hop], rfl, ?_⟩
    rw [hno, hs]
    rfl
  · rw [isCall_of_isSignal h] at hcall
    simp at hcall
  · refine ⟨(perform env s pc o).1, (perform env s pc o).2,
      (heq s).trans (congrArg _ (onOperation_of_some hs o)), ?_, ?_, ?_, ?_⟩
    · rw [perform_actions]
      simp
    · rw [perform_actions]
      simp
    · obtain ⟨l, hl⟩ := perform_state env s pc o
      rw [hl]
    · obtain ⟨l, hl⟩ := perform_state env s pc o
      rw [hl, hno, ← hs]
      rfl
  · refine ⟨_, _, (heq s).trans (congrArg _ (onHangup_of_some hs)), by simp, by simp, rfl, ?_⟩
    rw [hup]
    exact AList.lookup_erase ..

/-- A signal that finds no entry is lost. -/
theorem not_servesOwn_of_none (h : isSignal env text = true) (hs : s.clients.lookup id = none) :
    ¬ ServesOwn env s (.data con text) := by
  simp only [ServesOwn, isCall_of_isSignal h, hs]
  simp

end Message

/-! ### One session -/

section Session

variable {env : Env} {s : Server} {con : ConnId} {ms : List String} {tail : List Event}

/-- The entry is a peer connection that was created. -/
def EntryCreated (s : Server) : Prop :=
  ∀ pc, s.clients.lookup id = some pc → pc.nth < s.created pc.ws

/-- Signals of which none but the last is a hangup are all served. -/
theorem along_signals (hms : ∀ m ∈ ms, isSignal env m = true)
    (hup : ∀ m ∈ ms.dropLast, isHangup env m = false)
    (hs : s.clients.lookup id = some (ownPeer con)) :
    ∃ s', s'.created = s.created ∧
      (s'.clients.lookup id =
        if ∃ m ∈ ms, isHangup env m = true then none else some (ownPeer con)) ∧
      ∀ tail, Along (step env) (ServesOwn env) s (ms.map (Event.data con) ++ tail) ↔
        Along (step env) (ServesOwn env) s' tail := by
  induction ms generalizing s with
  | nil => exact ⟨s, rfl, by simp [hs], fun _ => Iff.rfl⟩
  | cons m ms ih =>
    have hm : isSignal env m = true := hms m List.mem_cons_self
    obtain ⟨o, s₁, hst, hown, hops, hcr, hent⟩ := onData_signal con hm hs
    have hserved : ServesOwn env s (.data con m) := by
      simp only [ServesOwn, isCall_of_isSignal hm]
      exact ⟨hs, o, s₁, hst, hown, hops⟩
    have hone : ∀ tail, Along (step env) (ServesOwn env) s (.data con m :: tail) ↔
        Along (step env) (ServesOwn env) s₁ tail := fun tail =>
      (along_cons_iff (show step env s (.data con m) = _ from hst)).trans (and_iff_right hserved)
    rcases ms with _ | ⟨m', ms⟩
    · refine ⟨s₁, hcr, ?_, hone⟩
      rw [hent]
      simp
    · -- a message that is not the last is no hangup
      have hno : isHangup env m = false := hup m (by simp)
      rw [hno] at hent
      obtain ⟨s', hcr', hent', htail⟩ := ih (s := s₁)
        (fun x hx => hms x (List.mem_cons_of_mem m hx))
        (fun x hx => hup x (by rw [List.dropLast_cons_cons]; exact List.mem_cons_of_mem m hx)) hent
      refine ⟨s', hcr'.trans hcr, ?_, fun tail => (hone _).trans (htail tail)⟩
      rw [hent']
      refine if_congr ?_ rfl rfl
      simp [hno]

/-- A signal sent after a hangup is not served. -/
theorem not_along_signals (hms : ∀ m ∈ ms, isSignal env m = true)
    (hup : ∃ m ∈ ms.dropLast, isHangup env m = true)
    (hs : s.clients.lookup id = some (ownPeer con)) :
    ¬ Along (step env) (ServesOwn env) s (ms.map (Event.data con) ++ tail) := by
  induction ms generalizing s with
  | nil => simp at hup
  | cons m ms ih =>
    rcases ms with _ | ⟨m', ms⟩
    · simp at hup
    obtain ⟨o, s₁, hst, -, -, -, hent⟩ :=
      onData_signal con (hms m List.mem_cons_self) hs
    intro ha
    have hrest := ha.2 o s₁ hst
    by_cases hm : isHangup env m = true
    · rw [hm] at hent
      exact not_servesOwn_of_none (hms m' (by simp)) hent hrest.1
    · rw [if_neg hm] at hent
      refine ih (fun x hx => hms x (List.mem_cons_of_mem m hx)) ?_ hent hrest
      rw [List.dropLast_cons_cons] at hup
      obtain ⟨x, hx, hxh⟩ := hup
      rcases List.mem_cons.1 hx with rfl | hx
      · exact absurd hxh hm
      · exact ⟨x, hx, hxh⟩

/-- The socket and the call of a session, and then the rest of it. -/
lemma along_events (σ : Session env) (s : Server) (tail : List Event) :
    Along (step env) (ServesOwn env) s (σ.events ++ tail) ↔
      ServesOwn env s (.data σ.con σ.call) ∧
        Along (step env) (ServesOwn env) (onCall s σ.con).2
          (σ.messages.map (Event.data σ.con) ++ (.disconnect σ.con :: tail)) := by
  rw [Session.events, List.cons_append, List.cons_append, List.append_assoc,
    along_cons_iff (show step env s (.connect σ.con) = .ok ({}, s) from rfl),
    along_cons_iff (show step env s (.data σ.con σ.call) = _ from onData_call s σ.con σ.call_isCall)]
  exact and_iff_right trivial

/-- The first call on a socket takes a free entry. -/
lemma onCall_own (hs : s.clients.lookup id = none) (hfresh : s.created con = 0) :
    (onCall s con).2.clients.lookup id = some (ownPeer con) := by
  rw [onCall_of_none hs, hfresh]
  exact AList.lookup_insert ..

/-- An entry that is there is an old one, and `emplace` keeps it. -/
lemma call_not_served (σ : Session env) (hwf : EntryCreated s) (hfresh : s.created σ.con = 0)
    {pc : PeerId} (hs : s.clients.lookup id = some pc) :
    ¬ ServesOwn env s (.data σ.con σ.call) := by
  intro hserved
  simp only [ServesOwn, σ.call_isCall, if_true] at hserved
  obtain ⟨o, s', hst, hent⟩ := hserved
  rw [onData_call s σ.con σ.call_isCall, Except.ok.injEq, onCall_of_some hs, Prod.mk.injEq] at hst
  rw [← hst.2, hs, Option.some.injEq] at hent
  have hlt := hwf pc hs
  rw [hent, ownPeer, hfresh] at hlt
  exact absurd hlt (by simp)

/-- A session that finds the entry free and hangs up at most at its end is served, and frees the entry
exactly by hanging up. -/
lemma session_served (σ : Session env) (hfresh : s.created σ.con = 0)
    (hs : s.clients.lookup id = none) (hup : ∀ m ∈ σ.messages.dropLast, isHangup env m = false) :
    ∃ s', EntryCreated s' ∧ (∀ c, c ≠ σ.con → s'.created c = s.created c) ∧
      (s'.clients.lookup id = none ↔ ∃ m ∈ σ.messages, isHangup env m = true) ∧
      ∀ tail, Along (step env) (ServesOwn env) s (σ.events ++ tail) ↔
        Along (step env) (ServesOwn env) s' tail := by
  have hown := onCall_own hs hfresh
  have hserved : ServesOwn env s (.data σ.con σ.call) := by
    simp only [ServesOwn, σ.call_isCall]
    exact ⟨_, _, onData_call s σ.con σ.call_isCall, hown⟩
  obtain ⟨s', hcr, hent, htail⟩ := along_signals σ.messages_signal hup hown
  refine ⟨{ s' with gone := σ.con :: s'.gone }, ?_, ?_, ?_, ?_⟩
  · intro pc hpc
    simp only [hent] at hpc
    split at hpc
    · exact absurd hpc (by simp)
    · rw [Option.some.injEq] at hpc
      simp only [hcr, onCall_of_none hs, ← hpc, ownPeer, Function.update_self]
      omega
  · intro c hc
    simp only [hcr, onCall_of_none hs]
    exact Function.update_of_ne hc ..
  · simp only [hent]
    simp
  · intro tail
    rw [along_events, htail, along_cons_iff (show step env s' (.disconnect σ.con) = _ from rfl)]
    exact (and_iff_right hserved).trans (and_iff_right trivial)

/-- Any other session is cut off. -/
lemma session_cutOff (σ : Session env) (hwf : EntryCreated s) (hfresh : s.created σ.con = 0)
    (hno : ¬ (s.clients.lookup id = none ∧ ∀ m ∈ σ.messages.dropLast, isHangup env m = false))
    (tail : List Event) : ¬ Along (step env) (ServesOwn env) s (σ.events ++ tail) := by
  intro ha
  obtain ⟨hcall, hsignals⟩ := (along_events σ s tail).1 ha
  rcases hs : s.clients.lookup id with _ | pc
  · obtain ⟨m, hm⟩ := not_forall.1 fun hup => hno ⟨hs, hup⟩
    obtain ⟨hmem, hhangup⟩ := Classical.not_imp.1 hm
    exact not_along_signals σ.messages_signal ⟨m, hmem, by simpa using hhangup⟩
      (onCall_own hs hfresh) hsignals
  · exact call_not_served σ hwf hfresh hs hcall

end Session

/-! ### All sessions -/

/-- Sessions on sockets of their own are served exactly if the entry is free when they start and each
but the last hangs up, with its last message. -/
theorem along_sessions {env : Env} (sessions : List (Session env)) (hne : sessions ≠ []) {s : Server}
    (hwf : EntryCreated s) (hfresh : ∀ σ ∈ sessions, s.created σ.con = 0)
    (hnd : (sessions.map Session.con).Nodup) :
    Along (step env) (ServesOwn env) s (sessions.flatMap Session.events) ↔
      s.clients.lookup id = none ∧ HungUp sessions := by
  induction sessions generalizing s with
  | nil => exact absurd rfl hne
  | cons σ rest ih =>
    rw [List.flatMap_cons]
    obtain ⟨hnotin, hnd'⟩ := List.nodup_cons.1 hnd
    have hfreshσ := hfresh σ List.mem_cons_self
    by_cases hplace : s.clients.lookup id = none ∧ ∀ m ∈ σ.messages.dropLast, isHangup env m = false
    · obtain ⟨hs, hup⟩ := hplace
      obtain ⟨s', hwf', hcr, hent, htail⟩ := session_served σ hfreshσ hs hup
      rw [htail, hs]
      have hfresh' : ∀ τ ∈ rest, s'.created τ.con = 0 := by
        intro τ hτ
        rw [hcr τ.con fun heq => hnotin (heq ▸ List.mem_map_of_mem hτ)]
        exact hfresh τ (List.mem_cons_of_mem σ hτ)
      rcases rest with _ | ⟨τ, rest⟩
      · refine ⟨fun _ => ⟨rfl, ?_, ?_⟩, fun _ => trivial⟩
        · intro τ hτ
          rw [List.mem_singleton.1 hτ]
          exact hup
        · intro τ hτ
          simp at hτ
      · rw [ih (by simp) hwf' hfresh' hnd', hent, HungUp, HungUp, List.dropLast_cons_cons]
        simp only [List.forall_mem_cons]
        constructor
        · rintro ⟨h, hu, hd⟩
          exact ⟨trivial, ⟨hup, hu⟩, h, hd⟩
        · rintro ⟨_, hu, h, hd⟩
          exact ⟨h, hu.2, hd⟩
    · refine ⟨fun ha => absurd ha (session_cutOff σ hwf hfreshσ hplace _), fun ⟨hs, hu⟩ => ?_⟩
      exact absurd ⟨hs, hu.1 σ List.mem_cons_self⟩ hplace

/-- The callbacks of the peer connections change nothing of this. -/
lemma callback_skip (env : Env) (s : Server) (e : Event) (h : e.ofSocket = false) :
    ServesOwn env s e ∧ ∃ o, step env s e = .ok (o, s) := by
  cases e with
  | stateChange pc state => exact ⟨trivial, {}, rfl⟩
  | gatheringStateChange pc state type sdp =>
    obtain ⟨o, ho, -⟩ := onGatheringStateChange_eq env s pc state type sdp
    exact ⟨trivial, o, congrArg _ ho⟩
  | _ => simp [Event.ofSocket] at h

/-- **Reconnecting.** In a run of sessions one after another, with the callbacks of their peer
connections anywhere in between, every session is served by its own peer connection exactly if every
session but the last hangs up, and none sends anything after that. -/
theorem servesOwn_iff (env : Env) (sessions : List (Session env))
    (hnd : (sessions.map Session.con).Nodup) (es : List Event)
    (hes : es.filter Event.ofSocket = sessions.flatMap Session.events) :
    Along (step env) (ServesOwn env) start es ↔ HungUp sessions := by
  rw [along_filter (callback_skip env), hes]
  rcases sessions with _ | ⟨σ, rest⟩
  · constructor
    · intro _
      exact ⟨by simp, by simp⟩
    · intro _
      exact trivial
  · rw [along_sessions (σ :: rest) (by simp) (fun pc h => absurd h (by simp [start]))
      (fun _ _ => rfl) hnd]
    exact and_iff_right rfl

/-- A session that calls and hangs up, or only calls. -/
def sampleSession (con : ConnId) (hangsUp : Bool) : Session sampleEnv where
  con := con
  call := callText
  messages := if hangsUp then [hangupText] else []
  call_isCall := by decide
  messages_signal := by
    split
    · decide
    · simp

theorem servesOwn_twoSessions :
    Along (step sampleEnv) (ServesOwn sampleEnv) start
      ([sampleSession 1 true, sampleSession 2 false].flatMap Session.events) ↔
      HungUp [sampleSession 1 true, sampleSession 2 false] :=
  servesOwn_iff sampleEnv _ (by decide) _ rfl

/-- A session that is cut off leaves its peer connection to the next one. -/
theorem cutOff_notServed :
    ¬ ∀ (sessions : List (Session sampleEnv)) (es : List Event),
      (sessions.map Session.con).Nodup →
      es.filter Event.ofSocket = sessions.flatMap Session.events →
      Along (step sampleEnv) (ServesOwn sampleEnv) start es := by
  intro hclaim
  have ha := hclaim [sampleSession 1 false, sampleSession 2 true]
    ([sampleSession 1 false, sampleSession 2 true].flatMap Session.events) (by decide) (by rfl)
  -- the hangup of the second session finds the peer connection of the first
  have hlast : ServesOwn sampleEnv _ (.data 2 hangupText) :=
    (((((ha.2 _ _ rfl).2 _ _ rfl).2 _ _ rfl).2 _ _ rfl).2 _ _ rfl).1
  have hown := hlast.1
  exact absurd hown (by decide)

end RcControl.Server
