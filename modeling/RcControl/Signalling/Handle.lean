import RcControl.Signalling.Teardown

/-!
# The session a page knows

The variable `signalObj` of a page is shared by all sessions the user starts there. A hangup clears it,
unless the socket has not opened: then `ws.send` throws, the session stays in the variable, and calls
once the socket opens. Any socket that closes clears it too, whichever session it belongs to, and the
sockets of sessions that were hung up stay open. So the variable is the session it should be as long as
the user hangs up none that is still connecting, and no socket closes while the variable is another
session (`handle_iff`).
-/

namespace RcControl.Signalling

open Lib Lib.Run Browser
open Server (ConnId Json readMessage)

/-! ### What is asked of the variable -/

/-- The session most recently started on a page. -/
structure Latest (s : Signalling) (p : PageId) (con : ConnId) : Prop where
  started : con < s.next
  owner : s.owner con = p
  last : ∀ c, c < s.next → s.owner c = p → c ≤ con

/-- The user has hung the session up, or its socket has closed. -/
def Over (con : ConnId) (notes : List Note) : Prop :=
  (∃ readyState, .hangupClicked con readyState ∈ notes) ∨ .closed con ∈ notes

/-- `signalObj` is the latest session of the page if that is not over, and `null` otherwise. -/
def Refers (notes : List Note) (s : Signalling) : Prop :=
  ∀ p con, s.signalObj p = some con ↔ Latest s p con ∧ ¬ Over con notes

/-- After a click on Hangup the session sends no call. -/
def NoCall : Note → Note → Prop
  | .hangupClicked con _, .sent con' m => con = con' → (readMessage m).isCall = false
  | _, _ => True

/-- The variable is right, and no session that was hung up has called afterwards. -/
def HandleRight (notes : List Note) (s : Signalling) : Prop :=
  Refers notes s ∧ notes.Pairwise NoCall

/-- The user does not hang up a session that is connecting, and no socket closes at a page that knows
another session. -/
def HandlesOwn (s : Signalling) : Event → Prop
  | .clickHangup p => ∀ con, s.signalObj p = some con → (s.signal con).readyState ≠ .connecting
  | .wsClosed con => con < s.next → (s.signal con).readyState ≠ .closed →
      ∀ c, s.signalObj (s.owner con) = some c → c = con
  | _ => True

/-! ### One step of the variable -/

/-- What a step does to the variables of the pages. -/
inductive Turns (s : Signalling) (o : List Note) (s' : Signalling) : Event → Prop
  | rests (e : Event) (hobj : s'.signalObj = s.signalObj) (howner : s'.owner = s.owner)
    (hnext : s'.next = s.next) (hover : ∀ con, ¬ Over con o) (hown : HandlesOwn s e) : Turns s o s' e
  | starts (p : PageId) (hnone : s.signalObj p = none)
    (hobj : s'.signalObj = Function.update s.signalObj p (some s.next))
    (howner : s'.owner = Function.update s.owner s.next p) (hnext : s'.next = s.next + 1)
    (ho : o = []) : Turns s o s' (.clickCall p)
  | clicks (p : PageId) (con : ConnId) (hcon : s.signalObj p = some con)
    (hobj : s'.signalObj = if (s.signal con).readyState = .connecting then s.signalObj
      else Function.update s.signalObj p none)
    (howner : s'.owner = s.owner) (hnext : s'.next = s.next) (hover : ∀ c, Over c o ↔ c = con) :
    Turns s o s' (.clickHangup p)
  | closes (con : ConnId) (hcon : con < s.next) (hready : (s.signal con).readyState ≠ .closed)
    (hobj : s'.signalObj = Function.update s.signalObj (s.owner con) none)
    (howner : s'.owner = s.owner) (hnext : s'.next = s.next) (ho : o = [.closed con]) :
    Turns s o s' (.wsClosed con)

section Turns

variable {env : Server.Env} {js : Browser.Env} {s s' : Signalling} {con : ConnId}
  {r : Effect × Signal} {o notes : List Note} {e : Event} {g g' : Signal} {m : Json}

lemma over_append : Over con (notes ++ o) ↔ Over con notes ∨ Over con o := by
  simp only [Over, List.mem_append, exists_or]
  tauto

lemma not_over_sent (con con' : ConnId) (ms : List Json) : ¬ Over con (ms.map (.sent con')) := by
  simp [Over]

lemma over_hangupClicked (con c : ConnId) (readyState : ReadyState) (ms : List Json) :
    Over c (.hangupClicked con readyState :: ms.map (.sent con)) ↔ c = con := by
  simp [Over]

lemma over_closed (con c : ConnId) : Over c [.closed con] ↔ c = con := by
  simp [Over]

/-- A handler that does not call `onClose`. -/
lemma Turns.handler {t : Signalling} (e : Event) (ht : t.signalObj = s.signalObj ∧ t.owner = s.owner ∧
    t.next = s.next) (hr : r.1.onClose = false) (hown : HandlesOwn s e) :
    Turns s (t.runHandler con r).1 (t.runHandler con r).2 e :=
  .rests e (by simp [runHandler, hr, ht.1]) ht.2.1 ht.2.2 (fun c => not_over_sent c con _) hown

lemma hangup_threw (g : Signal) :
    g.hangup.1.threw = true ↔ g.ws = true ∧ g.readyState = .connecting := by
  unfold Signal.hangup Signal.wsSend
  cases hws : g.ws <;> cases hr : g.readyState <;> simp

lemma hangup_onClose (g : Signal) : g.hangup.1.onClose = false := by
  unfold Signal.hangup Signal.wsSend
  cases g.ws <;> cases g.readyState <;> rfl

lemma onopen_onClose (g : Signal) : g.onopen.1.onClose = false := by
  unfold Signal.onopen Signal.wsSend
  cases g.ws <;> rfl

/-- **One step of the variables.** -/
theorem Does.turns (hd : Does env js s e o s')
    (hws : ∀ con, (s.signal con).readyState = .connecting → (s.signal con).ws = true) :
    Turns s o s' e := by
  cases hd with
  | nothing _ hidle =>
    refine .rests e rfl rfl rfl (by simp [Over]) ?_
    cases e with
    | clickHangup p => exact fun con hcon => absurd (hcon.symm.trans hidle) (by simp)
    | wsClosed con => exact fun hcon hready => absurd ⟨hcon, hready⟩ hidle
    | _ => trivial
  | starts p hp => exact .starts p hp rfl rfl rfl rfl
  | clicks p con hp =>
    have hobj : (s.runHandler con (s.signal con).hangup).2.signalObj = s.signalObj := by
      simp [runHandler, hangup_onClose]
    refine .clicks p con hp ?_ ?_ ?_ fun c => over_hangupClicked con c _ _
    · by_cases hready : (s.signal con).readyState = .connecting
      · rw [if_pos hready, if_pos ((hangup_threw _).2 ⟨hws con hready, hready⟩)]
        exact hobj
      · rw [if_neg hready, if_neg fun hthrew => hready ((hangup_threw _).1 hthrew).2]
        exact congrArg (Function.update · p none) hobj
    · split <;> rfl
    · split <;> rfl
  | opens con hcon hready =>
    refine .rests _ ?_ rfl rfl (fun c => ?_) trivial
    · simp [runHandler, onopen_onClose]
    · simp [Over, runHandler]
  | closes con hcon hready => exact .closes con hcon hready rfl rfl rfl rfl
  | receives con m =>
    exact .handler _ ⟨rfl, rfl, rfl⟩ (Stays.onmessage js (s.signal con) m).onClose trivial
  | remoteSet con success g =>
    refine .handler _ ⟨rfl, rfl, rfl⟩ ?_ trivial
    split
    · exact (Stays.onRemoteSdpSuccess g).onClose
    · exact (Stays.wsClose g).onClose
  | answered con description g =>
    exact .handler _ ⟨rfl, rfl, rfl⟩ (Stays.onAnswer js g description).onClose trivial
  | candidate con c =>
    exact .handler _ ⟨rfl, rfl, rfl⟩ (Stays.onicecandidate js (s.signal con) c).onClose trivial
  | changes pc state =>
    exact .rests _ rfl rfl rfl (fun _ => by cases state <;> simp [Over]) trivial
  | drops | reads | disconnects | gathers => exact .rests _ rfl rfl rfl (by simp [Over]) trivial

end Turns

/-! ### When the variable is right -/

/-- What is known of a run in which the variable is right so far. -/
structure Handled (notes : List Note) (s : Signalling) : Prop where
  recorded : Recorded notes s
  right : HandleRight notes s
  /-- A session that was hung up had opened, or its socket had closed. -/
  clicked : ∀ con readyState, .hangupClicked con readyState ∈ notes →
    (s.signal con).readyState ≠ .connecting

section Handled

variable {env : Server.Env} {js : Browser.Env} {s s' : Signalling} {con : ConnId}
  {o notes : List Note} {e : Event} {g g' : Signal} {m : Json} {es : List Event}

lemma Local.readyState (h : Local con g o g') (hready : g.readyState ≠ .connecting) :
    g'.readyState ≠ .connecting := by
  cases h with
  | idle | clicked => exact hready
  | opens h => exact absurd h hready
  | closes h =>
    unfold Signal.onclose
    simp only []
    split <;> simp [Signal.updatePeer]
  | stays h =>
    rcases h.readyState with heq | ⟨-, heq⟩
    · rwa [heq]
    · simp [heq]

/-- A session calls when it opens. -/
lemma Local.call (h : Local con g o g')
    (hready : (∃ readyState, .hangupClicked con readyState ∈ o) ∨ g.readyState ≠ .connecting)
    (hm : .sent con m ∈ o) : (readMessage m).isCall = false := by
  cases h with
  | idle => simp at hm
  | opens h =>
    rcases hready with ⟨_, hclick⟩ | hne
    · simp at hclick
    · exact absurd h hne
  | closes h => simp at hm
  | clicked =>
    rw [hangup_sent] at hm
    split at hm
    · simp only [List.map_cons, List.map_nil, List.mem_cons, List.not_mem_nil, reduceCtorEq,
        Note.sent.injEq, true_and, or_false, false_or] at hm
      rw [hm, readMessage_hangupRequest]
      rfl
    · simp at hm
  | stays h =>
    simp only [List.mem_map, Note.sent.injEq, true_and, exists_eq_right] at hm
    exact (h.sent m hm).2.1

lemma Latest.congr (howner : s'.owner = s.owner) (hnext : s'.next = s.next) (p : PageId) (con : ConnId) :
    Latest s' p con ↔ Latest s p con := by
  constructor
  · rintro ⟨hstarted, hown, hlast⟩
    exact ⟨hnext ▸ hstarted, howner ▸ hown, fun c hc hc' => hlast c (hnext ▸ hc) (howner ▸ hc')⟩
  · rintro ⟨hstarted, hown, hlast⟩
    exact ⟨hnext ▸ hstarted, howner ▸ hown, fun c hc hc' => hlast c (hnext ▸ hc) (howner ▸ hc')⟩

/-- The session a page starts is its latest, and the other pages keep theirs. -/
lemma Latest.starts {p q : PageId} (howner : s'.owner = Function.update s.owner s.next p)
    (hnext : s'.next = s.next + 1) (con : ConnId) :
    Latest s' q con ↔ if q = p then con = s.next else Latest s q con := by
  have hold : ∀ c, c < s.next → s'.owner c = s.owner c := fun c hc => by
    rw [howner, Function.update_of_ne (Nat.ne_of_lt hc)]
  have hnew : s'.owner s.next = p := by rw [howner, Function.update_self]
  have hlt : ∀ c, c < s'.next ↔ c < s.next ∨ c = s.next := fun c => by
    rw [hnext, Nat.lt_succ_iff_lt_or_eq]
  by_cases hq : q = p
  · subst hq
    rw [if_pos rfl]
    constructor
    · rintro ⟨hstarted, -, hlast⟩
      rcases (hlt con).1 hstarted with hcon | hcon
      · exact absurd (hlast s.next ((hlt _).2 (Or.inr rfl)) hnew) (Nat.not_le_of_lt hcon)
      · exact hcon
    · rintro rfl
      exact ⟨(hlt _).2 (Or.inr rfl), hnew, fun c hc _ => ((hlt c).1 hc).elim Nat.le_of_lt Nat.le_of_eq⟩
  · rw [if_neg hq]
    have hownOld : ∀ c, c < s'.next → s'.owner c = q → c < s.next ∧ s.owner c = q := by
      intro c hc hown
      rcases (hlt c).1 hc with hc | rfl
      · exact ⟨hc, (hold c hc).symm.trans hown⟩
      · exact absurd (hown.symm.trans hnew) hq
    constructor
    · rintro ⟨hstarted, hown, hlast⟩
      obtain ⟨hcon, hown⟩ := hownOld con hstarted hown
      exact ⟨hcon, hown, fun c hc hc' => hlast c ((hlt c).2 (Or.inl hc)) ((hold c hc).trans hc')⟩
    · rintro ⟨hstarted, hown, hlast⟩
      refine ⟨(hlt con).2 (Or.inl hstarted), (hold con hstarted).trans hown, fun c hc hc' => ?_⟩
      obtain ⟨hc, hc'⟩ := hownOld c hc hc'
      exact hlast c hc hc'

/-- A session of the page is over, and the variable is cleared. -/
lemma Refers.over (h : Refers notes s) {p : PageId} (hp : ∀ c, s.signalObj p = some c → c = con)
    (hown : s.owner con = p) (hobj : s'.signalObj = Function.update s.signalObj p none)
    (howner : s'.owner = s.owner) (hnext : s'.next = s.next) (hover : ∀ c, Over c o ↔ c = con) :
    Refers (notes ++ o) s' := by
  intro q c
  rw [hobj, Latest.congr howner hnext, over_append, hover, not_or, ← and_assoc, ← h q c]
  by_cases hq : q = p
  · subst hq
    rw [Function.update_self]
    refine iff_of_false (by simp) ?_
    rintro ⟨hc, hne⟩
    exact hne (hp c hc)
  · rw [Function.update_of_ne hq]
    refine ⟨fun hc => ⟨hc, ?_⟩, And.left⟩
    rintro rfl
    exact hq (((h q c).1 hc).1.owner.symm.trans hown)

lemma Refers.rests (h : Refers notes s) (hobj : s'.signalObj = s.signalObj)
    (howner : s'.owner = s.owner) (hnext : s'.next = s.next) (hover : ∀ con, ¬ Over con o) :
    Refers (notes ++ o) s' := by
  intro q c
  rw [hobj, Latest.congr howner hnext, over_append, or_iff_left (hover c)]
  exact h q c

/-- Nothing has happened to a session that was not started. -/
lemma Handled.not_over (h : Handled notes s) : ¬ Over s.next notes := by
  have hnew : s.signal s.next = .new := h.recorded.wf.fresh s.next (le_refl _)
  rintro (⟨readyState, hclick⟩ | hclosed)
  · exact h.clicked _ readyState hclick (by rw [hnew]; rfl)
  · rcases h.recorded.tracks s.next with hun | hop
    · have hready := hun.closed (List.mem_filter.2 ⟨hclosed, by simp [about]⟩)
      simp [hnew, Signal.new] at hready
    · rcases hop.phase with ⟨hduring, -⟩ | ⟨hafter, -⟩
      · simpa [hnew, Signal.new] using hduring.peer
      · simpa [hnew, Signal.new] using hafter.peer

lemma Handled.refers_step (h : Handled notes s) (ht : Turns s o s' e) (hown : HandlesOwn s e) :
    Refers (notes ++ o) s' := by
  obtain ⟨hrefers, -⟩ := h.right
  cases ht with
  | rests _ hobj howner hnext hover => exact hrefers.rests hobj howner hnext hover
  | starts p hnone hobj howner hnext ho =>
    subst ho
    rw [List.append_nil]
    intro q c
    rw [hobj, Latest.starts howner hnext]
    by_cases hq : q = p
    · subst hq
      rw [Function.update_self, if_pos rfl, Option.some_inj, eq_comm]
      refine (and_iff_left_of_imp ?_).symm
      rintro rfl
      exact h.not_over
    · rw [Function.update_of_ne hq, if_neg hq]
      exact hrefers q c
  | clicks p con hcon hobj howner hnext hover =>
    rw [if_neg (hown con hcon)] at hobj
    refine hrefers.over (fun c hc => ?_) ((hrefers p con).1 hcon).1.owner hobj howner hnext hover
    exact Option.some_inj.1 (hc.symm.trans hcon)
  | closes con hcon hready hobj howner hnext ho =>
    subst ho
    exact hrefers.over (hown hcon hready) rfl hobj howner hnext (over_closed con)

lemma Handled.clicked_step (h : Handled notes s) (ha : Advances s o s') (ht : Turns s o s' e)
    (hown : HandlesOwn s e) (con : ConnId) (readyState : ReadyState)
    (hclick : .hangupClicked con readyState ∈ notes ++ o) :
    (s'.signal con).readyState ≠ .connecting := by
  refine (ha.step con).readyState ?_
  rcases List.mem_append.1 hclick with hclick | hclick
  · exact h.clicked con readyState hclick
  · have hover : Over con o := Or.inl ⟨readyState, hclick⟩
    cases ht with
    | rests _ _ _ _ hno => exact absurd hover (hno con)
    | starts p _ _ _ _ ho => simp [ho] at hclick
    | clicks p c hc _ _ _ hover' =>
      rw [(hover' con).1 hover]
      exact hown c hc
    | closes c _ _ _ _ _ ho => simp [ho] at hclick

lemma noCall_of (h : ∀ con m, .sent con m ∈ o → (∃ readyState, .hangupClicked con readyState ∈ notes) →
    (readMessage m).isCall = false) : ∀ n ∈ notes, ∀ n' ∈ o, NoCall n n' := by
  intro n hn n' hn'
  unfold NoCall
  split
  · next con readyState con' m =>
    rintro rfl
    exact h con m hn' ⟨readyState, hn⟩
  · trivial

lemma Handled.noCall_step (h : Handled notes s) (ha : Advances s o s') :
    (notes ++ o).Pairwise NoCall := by
  have hmem : ∀ {n : Note} {con : ConnId}, n ∈ o → about con n = true → n ∈ o.filter (about con) :=
    fun hn hab => List.mem_filter.2 ⟨hn, hab⟩
  refine List.pairwise_append.2 ⟨h.right.2, ?_, ?_⟩
  · refine List.pairwise_of_forall_mem_list (noCall_of fun con m hm ⟨readyState, hclick⟩ => ?_)
    exact (ha.step con).call (Or.inl ⟨readyState, hmem hclick (by simp [about])⟩)
      (hmem hm (by simp [about]))
  · refine noCall_of fun con m hm ⟨readyState, hclick⟩ => ?_
    exact (ha.step con).call (Or.inr (h.clicked con readyState hclick)) (hmem hm (by simp [about]))

/-- **A step that handles its own session keeps the variable right.** -/
theorem Handled.keeps (h : Handled notes s) (hstep : step env js s e = .ok (o, s'))
    (hown : HandlesOwn s e) : Handled (notes ++ o) s' := by
  have ha := step_advances h.recorded.wf hstep
  have ht := (does_of_step hstep).turns fun con hready => ((h.recorded.tracks con).connecting hready).1
  exact ⟨h.recorded.step ha, ⟨h.refers_step ht hown, h.noCall_step ha⟩, h.clicked_step ha ht hown⟩

/-- **Another does not.** -/
theorem Handled.loses (h : Handled notes s) (hstep : step env js s e = .ok (o, s'))
    (hright : Refers (notes ++ o) s') : HandlesOwn s e := by
  have ht := (does_of_step hstep).turns fun con hready => ((h.recorded.tracks con).connecting hready).1
  cases ht with
  | rests _ _ _ _ _ hown => exact hown
  | starts => trivial
  | clicks p con hcon hobj howner hnext hover =>
    intro con' hcon' hready
    obtain rfl : con' = con := Option.some_inj.1 (hcon'.symm.trans hcon)
    rw [if_pos hready] at hobj
    obtain ⟨-, hnot⟩ := (hright p con').1 ((congrFun hobj p).trans hcon)
    exact hnot (over_append.2 (Or.inr ((hover con').2 rfl)))
  | closes con hcon hready hobj howner hnext ho =>
    intro _ _ c hc
    by_contra hne
    obtain ⟨hlatest, hnot⟩ := (h.right.1 _ c).1 hc
    have hnull : s'.signalObj (s.owner con) = some c := by
      refine (hright _ c).2 ⟨(Latest.congr howner hnext _ c).2 hlatest, fun hover => ?_⟩
      rcases over_append.1 hover with hover | hover
      · exact hnot hover
      · subst ho
        exact hne ((over_closed con c).1 hover)
    rw [hobj, Function.update_self] at hnull
    simp at hnull

theorem handled_start : Handled [] start where
  recorded := recorded_start
  right := by
    refine ⟨fun p con => iff_of_false (by simp [start]) ?_, .nil⟩
    rintro ⟨⟨hstarted, -, -⟩, -⟩
    exact Nat.not_lt_zero con hstarted
  clicked con readyState hclick := by simp at hclick

/-- **The session a page knows.** In a run, whatever the sessions of the pages and the order of their
events, the variable is right and nothing that was hung up calls, all along, exactly if no session is
hung up that is connecting, and no socket closes at a page that knows another session. -/
theorem handle_iff (env : Server.Env) (js : Browser.Env) (es : List Event) :
    (∀ es', es' <+: es → ∀ os s, run (step env js) start es' = .ok (os, s) →
      HandleRight os.flatten s) ↔ Along (step env js) HandlesOwn start es := by
  have hrule : (∀ es', es' <+: es → ∀ os s, run (step env js) start es' = .ok (os, s) →
      HandleRight ([] ++ os).flatten s) ↔ Along (step env js) HandlesOwn start es := by
    refine along_iff_prefixes (J := fun os s => Handled os.flatten s)
      (Q := fun os s => HandleRight os.flatten s) (fun _ _ h => h.right) ?_ ?_ ?_ handled_start
    · intro os s e o s' h hstep hown
      rw [List.flatten_append, List.flatten_singleton]
      exact h.keeps hstep hown
    · intro os s e o s' h hstep hright
      rw [List.flatten_append, List.flatten_singleton] at hright
      exact h.loses hstep hright.1
    · intro os s e f h hstep
      cases e with
      | data con => trivial
      | _ => simp [Signalling.step] at hstep
  simpa using hrule

end Handled

/-! ### Two orders of events -/

/-- The user hangs up, calls once more, and the socket of the first session closes. -/
def hungUpThenClosed : List Event :=
  [.clickCall 0, .wsOpen 0, .clickHangup 0, .clickCall 0, .wsClosed 0]

/-- The user hangs up before the socket opens. -/
def hungUpTooEarly : List Event := [.clickCall 0, .clickHangup 0, .wsOpen 0]

/-- In the one, the variable is `null` though the second session is not over; in the other, it stays the
session that was hung up, which calls. -/
theorem handle_wrong :
    (∃ s, run (step Server.sampleEnv sampleJs) start hungUpThenClosed =
        .ok ([[], [.opened 0, .sent 0 callRequest], [.hangupClicked 0 .open, .sent 0 hangupRequest], [],
          [.closed 0]], s) ∧
      s.signalObj 0 = none ∧ Latest s 0 1 ∧
      ¬ Over 1 [.opened 0, .sent 0 callRequest, .hangupClicked 0 .open, .sent 0 hangupRequest,
        .closed 0]) ∧
    ∃ s, run (step Server.sampleEnv sampleJs) start hungUpTooEarly =
        .ok ([[], [.hangupClicked 0 .connecting], [.opened 0, .sent 0 callRequest]], s) ∧
      s.signalObj 0 = some 0 ∧ Over 0 [.hangupClicked 0 .connecting, .opened 0, .sent 0 callRequest] ∧
      ¬ [.hangupClicked 0 .connecting, .opened 0, .sent 0 callRequest].Pairwise NoCall := by
  constructor
  · refine ⟨_, rfl, rfl, ⟨Nat.lt_succ_self 1, rfl, fun c hc _ => Nat.le_of_lt_succ hc⟩, ?_⟩
    simp [Over]
  · refine ⟨_, rfl, rfl, Or.inl ⟨.connecting, by simp⟩, ?_⟩
    simp [NoCall, Server.Received.isCall]

end RcControl.Signalling
