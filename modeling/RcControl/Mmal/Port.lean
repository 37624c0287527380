import RcControl.Mmal.Queue

/-!
# Sending buffers to a port

`mmal_port_send_buffer`, over whatever the component's `pf_send` does. What its callers rely on is a
`Sink`: it answers a header with a status, it holds the headers it took, and it links no header but
these and the one it is sent. If `pf_send` is one, so is the port (`portSendBuffer`). The statistics of
the port are left out, and so is the semaphore that `mmal_port_disable` waits for.
-/

namespace RcControl.Mmal

/-- What buffers are sent to. `S` is its state. -/
structure Sink (S α : Type) where
  answer : S → α → Status × S
  /-- What it does to the links of the headers. -/
  relink : S → α → Links α → Links α
  /-- What it was sent and has not given back. -/
  held : S → List α
  held_answer : ∀ s b,
    held (answer s b).2 = if (answer s b).1 = .success then held s ++ [b] else held s
  relink_eq : ∀ s b next x, x ∉ held s → x ≠ b → relink s b next x = next x

/-- The fields of `MMAL_PORT_T`, of its `priv` and `core` and of the headers that
`mmal_port_send_buffer` uses. -/
structure CorePort {S α : Type} (pfSend : Sink S α) where
  /-- `port` and its `priv` are not null. -/
  hasPriv : Bool
  /-- `pf_send` is not null. -/
  hasSend : Bool
  capabilities : BitVec 32
  /-- `type` is `MMAL_PORT_TYPE_OUTPUT`. -/
  isOutput : Bool
  isEnabled : Bool
  isPaused : Bool
  queueFirst : Option α
  /-- The address of a pointer, as in `LinkedQueue`. -/
  queueLast : Option α
  transitBufferHeaders : BitVec 32
  allocSize : α → BitVec 32
  /-- `data` is not null. -/
  hasData : α → Bool
  length : α → BitVec 32
  component : S
  /-- What the port was sent and has not given back. -/
  held : List α
  held_component : ∀ x ∈ pfSend.held component, x ∈ held
  held_last : ∀ x, queueLast = some x → x ∈ held
  transit_eq : transitBufferHeaders = BitVec.ofNat 32 held.length

namespace CorePort

variable {S α : Type} {pfSend : Sink S α}

/-- `MMAL_PORT_CAPABILITY_PASSTHROUGH`. -/
def capabilityPassthrough : BitVec 32 := 0x01

/-- The checks before the send, and what they return. -/
def refusal (p : CorePort pfSend) (buffer : α) : Option Status :=
  if !p.hasPriv then some .einval
  else if p.allocSize buffer ≠ 0 ∧ p.hasData buffer = false ∧
      p.capabilities &&& capabilityPassthrough = 0 then some .einval
  else if !p.hasSend then some .enosys
  else if !p.isEnabled then some .einval
  else none

lemma refusal_ne_success {p : CorePort pfSend} {buffer : α} : p.refusal buffer ≠ some .success := by
  unfold refusal
  split_ifs <;> simp

lemma transit_succ (l : List α) (b : α) :
    BitVec.ofNat 32 l.length + 1 = BitVec.ofNat 32 (l ++ [b]).length := by
  rw [List.length_append, List.length_singleton, BitVec.ofNat_add]
  rfl

variable [DecidableEq α]

/-- An output port is sent no payload. -/
def clearLength (p : CorePort pfSend) (buffer : α) : α → BitVec 32 :=
  if p.isOutput ∧ p.length buffer ≠ 0 then Function.update p.length buffer 0 else p.length

/-- The send to a port that is paused: the buffer is queued. -/
def enqueue (p : CorePort pfSend) (buffer : α) : CorePort pfSend :=
  { p with
    length := p.clearLength buffer
    transitBufferHeaders := p.transitBufferHeaders + 1
    queueFirst := if p.queueLast = none then some buffer else p.queueFirst
    queueLast := some buffer
    held := p.held ++ [buffer]
    held_component := fun x hx => List.mem_append_left [buffer] (p.held_component x hx)
    held_last := by simp
    transit_eq := by rw [p.transit_eq, transit_succ] }

/-- The send to the component. -/
def pass (p : CorePort pfSend) (buffer : α) : CorePort pfSend :=
  if h : (pfSend.answer p.component buffer).1 = .success then
    { p with
      length := p.clearLength buffer
      transitBufferHeaders := p.transitBufferHeaders + 1
      component := (pfSend.answer p.component buffer).2
      held := p.held ++ [buffer]
      held_component := by
        rw [pfSend.held_answer, if_pos h]
        exact fun x hx => (List.mem_append.1 hx).elim
          (fun hx => List.mem_append_left [buffer] (p.held_component x hx)) (List.mem_append_right p.held)
      held_last := fun x hx => List.mem_append_left [buffer] (p.held_last x hx)
      transit_eq := by rw [p.transit_eq, transit_succ] }
  else
    { p with
      length := p.clearLength buffer
      transitBufferHeaders := p.transitBufferHeaders + 1 - 1
      component := (pfSend.answer p.component buffer).2
      held_component := by
        rw [pfSend.held_answer, if_neg h]
        exact p.held_component
      transit_eq := by rw [BitVec.add_sub_cancel, p.transit_eq] }

/-- `mmal_port_send_buffer`. -/
def sendBuffer (p : CorePort pfSend) (buffer : α) : Status × CorePort pfSend :=
  match p.refusal buffer with
  | some status => (status, p)
  | none =>
    if p.isPaused then (.success, p.enqueue buffer)
    else ((pfSend.answer p.component buffer).1, p.pass buffer)

/-- What `mmal_port_send_buffer` does to the links. -/
def relink (p : CorePort pfSend) (buffer : α) (next : Links α) : Links α :=
  match p.refusal buffer with
  | some _ => next
  | none =>
    if p.isPaused then
      match p.queueLast with
      | none => Function.update next buffer none
      | some x => Function.update (Function.update next buffer none) x (some buffer)
    else pfSend.relink p.component buffer next

lemma held_sendBuffer (p : CorePort pfSend) (b : α) : (p.sendBuffer b).2.held =
    if (p.sendBuffer b).1 = .success then p.held ++ [b] else p.held := by
  unfold sendBuffer
  rcases hrefusal : p.refusal b with _ | status
  · by_cases hpaused : p.isPaused = true
    · simp only [hpaused, if_true]
      rfl
    · simp only [hpaused, Bool.false_eq_true, if_false, pass]
      split <;> rfl
  · have hne : status ≠ .success := fun h => refusal_ne_success (h ▸ hrefusal)
    exact (if_neg hne).symm

lemma relink_of_notMem {p : CorePort pfSend} {b x : α} (next : Links α) (hx : x ∉ p.held) (hxb : x ≠ b) :
    p.relink b next x = next x := by
  unfold relink
  rcases p.refusal b with _ | status
  · by_cases hpaused : p.isPaused = true
    · simp only [hpaused, if_true]
      rcases hlast : p.queueLast with _ | y
      · exact Function.update_of_ne hxb none next
      · have hxy : x ≠ y := fun h => hx (h ▸ p.held_last y hlast)
        exact (Function.update_of_ne hxy (some b) _).trans (Function.update_of_ne hxb none next)
    · simp only [hpaused, Bool.false_eq_true, if_false]
      exact pfSend.relink_eq p.component b next x (fun h => hx (p.held_component x h)) hxb
  · rfl

end CorePort

/-- **A port over a component is what buffers can be sent to.** -/
def portSendBuffer {S α : Type} [DecidableEq α] (pfSend : Sink S α) : Sink (CorePort pfSend) α where
  answer := CorePort.sendBuffer
  relink := CorePort.relink
  held := CorePort.held
  held_answer := CorePort.held_sendBuffer
  relink_eq _ _ next _ hx hxb := CorePort.relink_of_notMem next hx hxb

end RcControl.Mmal
