import RcControl.Recorder.Start

/-!
# The books of the recorder

What the discipline of the recorder is, which failures are harmful to it, and what is known of a world
on the way (`Books`): which resources may have been made, which are held (`none` if one was released
that was not held), which ports are enabled, and under which condition a harmful failure has happened.
Each call of VCOS or MMAL has its lemma on the books.
-/

namespace RcControl.Recorder

open Mmal Lib.Lifecycle

/-- **The discipline**: what was created is destroyed once, nothing else is destroyed, and no pool is
destroyed while its port is enabled. -/
structure Disciplined (w : World) : Prop where
  balanced : Balanced w.log
  disabled : ∀ destroy ∈ w.poolDestroys, destroy.2 = false

/-- The failures that `start_recorder` does not unwind as it should: of the event flags, which are
deleted all the same; of a component that leaves its pointer set; of the input of the encoder, after
which a pool and a queue are destroyed twice; and of what leaves a port with a pool enabled. -/
def Harmful (c : Calls) (tunneling : Bool) : Site × Status → Prop
  | (.eventFlagsCreate, status) => status ≠ .success
  | (.componentCreate name, status) => status ≠ .success ∧ c.leavesPointer name
  | (.queueCreate port, status) | (.poolCreate port, status) =>
    status ≠ .success ∧ port = .encoderOutput ∧ ¬ tunneling
  | (.portEnable port, status) =>
    status ≠ .success ∧ (port = .encoderInput ∨ port = .encoderOutput ∧ ¬ tunneling)
  | (.parameterSet port parameter, status) =>
    status ≠ .success ∧ status ≠ .enosys ∧ port = .video ∧ parameter = .capture
  | (.portDisable port, status) =>
    status ≠ .success ∧ (port = .video ∧ ¬ tunneling ∨ port = .encoderOutput)
  | _ => False

/-- A harmful failure has happened. -/
def Harmed (c : Calls) (tunneling : Bool) (w : World) : Prop := ∃ x ∈ w.calls, Harmful c tunneling x

/-- The ports that pools are made for. -/
def Pooled (port : Port) : Prop := port = .video ∨ port = .encoderOutput

/-- **What is known of a world on the way.** -/
structure Books (c : Calls) (tunneling : Bool) (made : List Resource) (held : Option (List Resource))
    (on : Port → Bool) (harm : Prop) (w : World) : Prop where
  acquired : (acquired w.log).Sublist made
  settles : settle [] w.log = held
  enabled : ∀ port, Pooled port → w.enabled port = on port
  intact : w.poolDestroys = []
  harmed : Harmed c tunneling w ↔ harm

namespace Books

variable {c : Calls} {t : Bool} {made made' : List Resource} {held : Option (List Resource)}
variable {on : Port → Bool} {harm harm' : Prop} {w : World}

lemma start (initResult : InitResult) :
    Books c t [] (some []) (fun _ => false) False (World.start c initResult) where
  acquired := List.Sublist.refl []
  settles := rfl
  enabled _ _ := rfl
  intact := rfl
  harmed := by simp [Harmed, World.start]

lemma weaken (h : Books c t made held on harm w) (hmade : made.Sublist made')
    (hharm : harm ↔ harm') : Books c t made' held on harm' w :=
  { h with acquired := h.acquired.trans hmade, harmed := h.harmed.trans hharm }

lemma congr (h : Books c t made held on harm w) (hharm : harm ↔ harm') :
    Books c t made held on harm' w :=
  h.weaken (List.Sublist.refl made) hharm

lemma harmless (h : Books c t made held on (harm ∨ harm') w) (hno : ¬ harm') :
    Books c t made held on harm w :=
  h.congr (or_iff_left hno)

lemma setInitResult (h : Books c t made held on harm w) (r : InitResult) :
    Books c t made held on harm { w with initResult := r } := { h with }

/-! ### A call, a creation, a destruction -/

lemma call (h : Books c t made held on harm w) (site : Site) :
    ∃ status w', w.call c site = (status, w') ∧
      Books c t made held on (harm ∨ Harmful c t (site, status)) w' := by
  refine ⟨_, _, rfl, { h with harmed := ?_ }⟩
  have := h.harmed
  simp only [Harmed] at this
  simp only [Harmed, List.mem_append, List.mem_singleton, or_and_right, exists_or, exists_eq_left,
    this]

/-- A call that does no harm, whatever it returns. -/
lemma silent (h : Books c t made held on harm w) (site : Site)
    (hsite : ∀ status, ¬ Harmful c t (site, status)) :
    Books c t made held on harm (w.call c site).2 := by
  obtain ⟨status, w', heq, hw⟩ := h.call site
  rw [heq]
  exact hw.harmless (hsite status)

lemma acquire (h : Books c t made held on harm w) (r : Resource) :
    Books c t (made ++ [r]) (held.map (r :: ·)) on harm (w.acquire r) :=
  { h with
    acquired := by
      rw [World.acquire, acquired_append]
      exact h.acquired.append (List.Sublist.refl [r])
    settles := by
      rw [World.acquire, settle_append, h.settles]
      cases held <;> rfl }

lemma release (h : Books c t made held on harm w) (r : Resource) :
    Books c t made (held.bind fun held => settle held [.release r]) on harm (w.release r) :=
  { h with
    acquired := by
      rw [World.release, acquired_append]
      simpa [Lib.Lifecycle.acquired] using h.acquired
    settles := by rw [World.release, settle_append, h.settles] }

lemma releaseHeld {held : List Resource} {r : Resource} (h : Books c t made (some held) on harm w)
    (hr : r ∈ held) : Books c t made (some (held.erase r)) on harm (w.release r) := by
  have := h.release r
  rwa [Option.bind_some, settle, if_pos hr, settle] at this

lemma releaseStray {held : List Resource} {r : Resource} (h : Books c t made (some held) on harm w)
    (hr : r ∉ held) : Books c t made none on harm (w.release r) := by
  have := h.release r
  rwa [Option.bind_some, settle, if_neg hr] at this

/-- A queue or a pool. -/
lemma create {held : List Resource} (h : Books c t made (some held) on harm w) (site : Site)
    (r : Resource) {port : Port} (hsite : ∀ status, Harmful c t (site, status) ↔
      status ≠ .success ∧ port = .encoderOutput ∧ ¬ t) :
    ∃ p w', w.create c site r = (p, w') ∧
      ((p = some r ∧ Books c t (made ++ [r]) (some (r :: held)) on harm w') ∨
      (p = none ∧ Books c t made (some held) on (harm ∨ port = .encoderOutput ∧ ¬ t) w')) := by
  obtain ⟨status, w', heq, hw⟩ := h.call site
  rw [World.create, heq]
  by_cases hs : status = .success
  · simp only [if_pos hs]
    refine ⟨_, _, rfl, Or.inl ⟨rfl, ?_⟩⟩
    exact (hw.harmless (by simp [hsite, hs])).acquire r
  · simp only [if_neg hs]
    refine ⟨_, _, rfl, Or.inr ⟨rfl, ?_⟩⟩
    exact hw.congr (by simp [hsite, hs])

/-! ### The buffers and the ports -/

lemma setBuffers (h : Books c t made held on harm w) (port : Port) (b : Buffers) :
    Books c t made held on harm (w.setBuffers port b) := { h with }

lemma formatCommit (h : Books c t made held on harm w) (port : Port) :
    Books c t made held on harm (w.formatCommit c port).2 :=
  { h.silent (.formatCommit port) (by simp [Harmful]) with }

lemma setEnabled (h : Books c t made held on harm w) (port : Port) (b : Bool) :
    Books c t made held (Function.update on port b) harm (w.setEnabled port b) :=
  { h with
    enabled := fun other hother => by
      by_cases heq : other = port
      · subst heq
        simp [World.setEnabled]
      · simp [World.setEnabled, heq, h.enabled other hother] }

/-- What the books say of a port without pools does not matter. -/
lemma ignore (h : Books c t made held on harm w) {port : Port} (hport : ¬ Pooled port) (b : Bool) :
    Books c t made held on harm (w.setEnabled port b) :=
  { h.setEnabled port b with
    enabled := fun other hother => by
      have hne : other ≠ port := fun heq => hport (heq ▸ hother)
      simp [World.setEnabled, hne, h.enabled other hother] }

lemma switch (h : Books c t made held on harm w) (port : Port) (b : Bool) :
    Books c t made held (Function.update on port b) harm (w.switch port b) := by
  unfold World.switch
  split
  · refine (h.setEnabled port b).ignore ?_ b
    rintro (heq | heq) <;> cases heq
  · exact h.setEnabled port b

lemma switch_unpooled (h : Books c t made held on harm w) {port : Port} (hport : ¬ Pooled port)
    (b : Bool) : Books c t made held on harm (w.switch port b) := by
  have hvideo : port ≠ .video := fun heq => hport (Or.inl heq)
  rw [World.switch, if_neg (fun hand => hvideo hand.2)]
  exact h.ignore hport b

lemma maximize (h : Books c t made held on harm w) (port : Port) :
    Books c t made held on harm (if w.connected ∧ port = .video then w.maximize else w) := by
  split
  · exact { h with }
  · exact h

/-- `mmal_port_enable`, of a port with pools. -/
lemma portEnable (h : Books c t made held on harm w) {port : Port} (hport : Pooled port) :
    ∃ status w', w.portEnable c port = (status, w') ∧
      ((status = .success ∧ Books c t made held (Function.update on port true) harm w') ∨
      (status ≠ .success ∧ Books c t made held on (harm ∨ port = .encoderOutput ∧ ¬ t) w')) := by
  have hinput : port ≠ .encoderInput := by rcases hport with rfl | rfl <;> decide
  obtain ⟨status, w', heq, hw⟩ := (h.maximize port).call (.portEnable port)
  rw [World.portEnable, heq]
  refine ⟨_, _, rfl, ?_⟩
  by_cases hs : status = .success
  · left
    rw [if_pos hs]
    exact ⟨hs, (hw.harmless (by simp [Harmful, hs])).switch port true⟩
  · right
    rw [if_neg hs]
    exact ⟨hs, hw.congr (by simp [Harmful, hs, hinput])⟩

/-- `mmal_port_enable`, of another port. -/
lemma portEnable_unpooled (h : Books c t made held on harm w) (port : Port) (hport : ¬ Pooled port) :
    ∃ status w', w.portEnable c port = (status, w') ∧
      ((status = .success ∧ Books c t made held on harm w') ∨
      (status ≠ .success ∧ Books c t made held on (harm ∨ port = .encoderInput) w')) := by
  have houtput : port ≠ .encoderOutput := fun heq => hport (Or.inr heq)
  obtain ⟨status, w', heq, hw⟩ := (h.maximize port).call (.portEnable port)
  rw [World.portEnable, heq]
  refine ⟨_, _, rfl, ?_⟩
  by_cases hs : status = .success
  · left
    rw [if_pos hs]
    exact ⟨hs, (hw.harmless (by simp [Harmful, hs])).switch_unpooled
      hport true⟩
  · right
    rw [if_neg hs]
    exact ⟨hs, hw.congr (by simp [Harmful, hs, houtput])⟩

lemma portEnable_control (h : Books c t made held on harm w) :
    Books c t made held on harm (w.portEnable c .control).2 := by
  obtain ⟨status, w', heq, ⟨-, hw⟩ | ⟨-, hw⟩⟩ :=
    h.portEnable_unpooled .control (by simp [Pooled])
  · rw [heq]
    exact hw
  · rw [heq]
    exact hw.harmless (by simp)

/-- `disable_port`, of a port with pools that is enabled. -/
lemma disablePort (h : Books c t made held on harm w) {port : Port} (hport : Pooled port)
    (hon : on port = true) :
    Books c t made held (Function.update on port false) harm (w.disablePort c port) ∨
    Books c t made held on (harm ∨ port = .video ∧ ¬ t ∨ port = .encoderOutput)
      (w.disablePort c port) := by
  obtain ⟨status, w', heq, hw⟩ := h.call (.portDisable port)
  rw [World.disablePort, if_pos ((h.enabled port hport).trans hon), World.portDisable, heq]
  by_cases hs : status = .success
  · left
    simp only [if_pos hs]
    exact (hw.harmless (by simp [Harmful, hs])).switch port false
  · right
    simp only [if_neg hs]
    exact hw.congr (by simp [Harmful, hs])

/-- `disable_port`, of another port. -/
lemma disablePort_unpooled (h : Books c t made held on harm w) (port : Port)
    (hport : ¬ Pooled port) : Books c t made held on harm (w.disablePort c port) := by
  have hvideo : port ≠ .video := fun heq => hport (Or.inl heq)
  have houtput : port ≠ .encoderOutput := fun heq => hport (Or.inr heq)
  have hw := h.silent (.portDisable port) (by simp [Harmful, hvideo, houtput])
  unfold World.disablePort World.portDisable
  split
  · dsimp only
    split
    · exact hw.switch_unpooled hport false
    · exact hw
  · exact h

lemma disablePort_off (h : Books c t made held on harm w) {port : Port} (hport : Pooled port)
    (hon : on port = false) : w.disablePort c port = w := by
  rw [World.disablePort, h.enabled port hport, hon]
  rfl

end Books

end RcControl.Recorder
