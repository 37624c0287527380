import RcControl.Signalling.Answers

/-!
# The order of one session

The page answers at most once, since gathering completes once; it has candidates of its own only after
that answer, and the socket keeps the order. So the server sets the remote description first and then
adds the candidates as they were sent, until it reads a hangup (`signalling_order`).
-/

namespace RcControl.Signalling

open Lib Lib.Run Browser
open Server (ConnId PeerId PcOp Json readMessage)

/-! ### Candidates -/

def isCandidate (m : Json) : Bool :=
  match readMessage m with
  | .signal .addIceCandidate _ _ => true
  | _ => false

/-- The candidate as it is sent. -/
def candidateJson (c : LocalCandidate) : Json :=
  .object [("sdpMLineIndex", .number (toString c.sdpMLineIndex)), ("sdpMid", .string c.sdpMid),
    ("candidate", .string c.candidate)]

/-- `json::parse` reads what `JSON.stringify` writes, and `rtc::Candidate` takes the candidate. -/
structure Readable (env : Server.Env) (js : Browser.Env) (c : LocalCandidate) : Prop where
  parse : env.parse (js.stringify (candidateJson c)) = some (candidateJson c)
  candidate : env.candidate c.candidate c.sdpMid = true

def candidateOp (c : LocalCandidate) : PcOp := .addRemoteCandidate c.candidate c.sdpMid

section Candidates

variable {env : Server.Env} {js : Browser.Env} {m : Json} {c : LocalCandidate}

lemma readMessage_candidateRequest (js : Browser.Env) (c : LocalCandidate) :
    readMessage (candidateRequest js c) =
      .signal .addIceCandidate "addIceCandidate" (candidateRequest js c) := by
  simp [candidateRequest, readMessage, Json.find?, Json.getString, Server.getType]

lemma readMessage_answerRequest (js : Browser.Env) (d : Json) :
    readMessage (answerRequest js d) = .signal .answer "answer" (answerRequest js d) := by
  simp [answerRequest, readMessage, Json.find?, Json.getString, Server.getType]

lemma operation_candidateRequest (h : Readable env js c) :
    operation env (candidateRequest js c) = some (candidateOp c) := by
  have hdata : Server.dataOf env (candidateRequest js c) = some (candidateJson c) := h.parse
  have hmid : ((candidateJson c).index "sdpMid").bind Json.getString = some c.sdpMid := rfl
  have hcand : ((candidateJson c).index "candidate").bind Json.getString = some c.candidate := rfl
  simp only [operation, readMessage_candidateRequest, Server.candidateOf, hdata, hmid, hcand,
    h.candidate, if_true, candidateOp]

lemma isCandidate_candidateRequest (js : Browser.Env) (c : LocalCandidate) :
    isCandidate (candidateRequest js c) = true := by
  rw [isCandidate, readMessage_candidateRequest]

lemma isCandidate_answerRequest (js : Browser.Env) (d : Json) :
    isCandidate (answerRequest js d) = false := by
  rw [isCandidate, readMessage_answerRequest]

lemma operation_answerRequest {js : Browser.Env} {d : Json} {o : PcOp}
    (h : operation env (answerRequest js d) = some o) :
    ∃ sdp type, o = .setRemoteDescription sdp type := by
  rw [operation, readMessage_answerRequest] at h
  simp only [Server.descriptionOf] at h
  split at h
  · simp at h
  · split at h
    · simp at h
    · split at h
      · exact ⟨_, _, (Option.some.inj h).symm⟩
      · simp at h

lemma isReply_of_isCandidate (h : isCandidate m = true) : isReply m = true := by
  unfold isCandidate at h
  unfold isReply Server.Received.isCall Server.Received.isHangup
  split at h <;> simp_all

end Candidates

/-! ### The order of what is sent -/

/-- Besides the call and hangups, a session has sent at most one answer, and after it candidates. -/
structure Shape (js : Browser.Env) (es : List Event) (g : Signal) (ms answers : List Json)
    (cs : List LocalCandidate) : Prop where
  replies : ms.filter isReply = answers ++ cs.map (candidateRequest js)
  answer : ∀ m ∈ answers, ∃ d, m = answerRequest js d
  once : answers.length ≤ if g.hasLocalDesc then 1 else 0
  after : cs ≠ [] → g.hasLocalDesc = true
  offered : ∀ c ∈ cs, c.candidate ≠ "" ∧ ∃ con, .iceCandidate con (some c) ∈ es

section Shape

variable {env : Server.Env} {js : Browser.Env} {es : List Event} {e : Event} {g g' : Signal}
  {ms answers l sent : List Json} {cs : List LocalCandidate}

lemma isReply_callRequest : isReply callRequest = false := by
  rw [isReply, readMessage_callRequest]
  rfl

lemma isReply_hangupRequest : isReply hangupRequest = false := by
  rw [isReply, readMessage_hangupRequest]
  rfl

lemma isReply_answerRequest (js : Browser.Env) (d : Json) : isReply (answerRequest js d) = true := by
  rw [isReply, readMessage_answerRequest]
  rfl

lemma isReply_candidateRequest (js : Browser.Env) (c : LocalCandidate) :
    isReply (candidateRequest js c) = true := by
  rw [isReply, readMessage_candidateRequest]
  rfl

/-- The same was sent, but for what is no reply. -/
lemma Shape.same (h : Shape js es g ms answers cs) (hdesc : g'.hasLocalDesc = g.hasLocalDesc)
    (hsent : sent.filter isReply = []) : Shape js (es ++ [e]) g' (ms ++ sent) answers cs where
  replies := by rw [List.filter_append, hsent, List.append_nil, h.replies]
  answer := h.answer
  once := hdesc ▸ h.once
  after hcs := hdesc.trans (h.after hcs)
  offered c hc := (h.offered c hc).imp id (Exists.imp fun _ => List.mem_append_left _)

/-- **One step of a session keeps the order.** -/
theorem Shape.step (h : Shape js es g ms answers cs) (hsends : Sends js e g g' sent)
    (hpending : 0 < g.pending → g.hasLocalDesc = false) :
    ∃ answers' cs', Shape js (es ++ [e]) g' (ms ++ sent) answers' cs' := by
  cases hsends with
  | nothing hdesc => exact ⟨answers, cs, h.same hdesc rfl⟩
  | call hdesc => exact ⟨answers, cs, h.same hdesc (by simp [isReply_callRequest])⟩
  | hangup hdesc => exact ⟨answers, cs, h.same hdesc (by simp [isReply_hangupRequest])⟩
  | answers hpos hdesc _ hms =>
    have hno := hpending hpos
    have hnone : answers = [] := by
      have hlen := h.once
      rw [hno, if_neg (by decide)] at hlen
      exact List.length_eq_zero_iff.1 (Nat.le_zero.1 hlen)
    have hcs : cs = [] := by
      by_contra hcs
      rw [h.after hcs] at hno
      simp at hno
    have hold := h.replies
    rw [hnone, hcs] at hold
    have hanswer : ∀ m ∈ sent, ∃ d, m = answerRequest js d := by
      rcases hms with rfl | ⟨d, rfl⟩
      · simp
      · simp
    have hlen : sent.length ≤ 1 := by
      rcases hms with rfl | ⟨d, rfl⟩
      · exact Nat.zero_le 1
      · exact Nat.le_refl 1
    refine ⟨sent, [], ?_, hanswer, by rwa [hdesc], fun hne => absurd rfl hne, by simp⟩
    have hall : sent.filter isReply = sent := by
      refine List.filter_eq_self.2 fun m hm => ?_
      obtain ⟨d, rfl⟩ := hanswer m hm
      exact isReply_answerRequest js d
    rw [List.filter_append, hold, hall]
    simp
  | candidate con c he hc hdesc hsame =>
    refine ⟨answers, cs ++ [c], ?_, h.answer, hsame ▸ h.once, fun _ => hsame.trans hdesc, fun d hd => ?_⟩
    · rw [List.filter_append, h.replies, List.map_append, List.append_assoc]
      simp [isReply_candidateRequest]
    · rcases List.mem_append.1 hd with hd | hd
      · exact (h.offered d hd).imp id (Exists.imp fun _ => List.mem_append_left _)
      · rw [List.mem_singleton.1 hd, he]
        exact ⟨hc, con, by simp⟩

/-- A part of the one list, and then a part of the other. -/
lemma prefix_append_parts {α : Type} {l l₁ l₂ : List α} (h : l <+: l₁ ++ l₂) :
    ∃ l₁' l₂', l = l₁' ++ l₂' ∧ l₁' <+: l₁ ∧ l₂' <+: l₂ := by
  rw [List.prefix_iff_eq_take, List.take_append] at h
  exact ⟨_, _, h, List.take_prefix _ _, List.take_prefix _ _⟩

/-- The candidates are among the replies. -/
lemma filter_isCandidate (l : List Json) : l.filter isCandidate = (l.filter isReply).filter isCandidate := by
  rw [List.filter_filter]
  refine List.filter_congr fun m _ => ?_
  rcases hm : isCandidate m
  · rfl
  · rw [isReply_of_isCandidate hm]
    rfl

/-- Only replies are operations. -/
lemma filterMap_operation (l : List Json) :
    l.filterMap (operation env) = (l.filter isReply).filterMap (operation env) := by
  rw [List.filterMap_filter]
  refine List.filterMap_congr fun m _ => ?_
  rcases ho : operation env m with _ | o
  · split <;> rfl
  · rw [isReply_of_operation ho, if_pos rfl]

lemma operations_candidateRequests (hread : ∀ c ∈ cs, Readable env js c) :
    (cs.map (candidateRequest js)).filterMap (operation env) = cs.map candidateOp := by
  rw [List.filterMap_map, ← List.filterMap_eq_map]
  exact List.filterMap_congr fun c hc => operation_candidateRequest (hread c hc)

/-- **What the beginning of it asks the server to do**: at most one remote description, and then the
candidates that are in it. -/
theorem Shape.operations (h : Shape js es g ms answers cs) (hread : ∀ c ∈ cs, Readable env js c)
    (hl : l <+: ms) :
    l.filter isCandidate =
        (cs.take (l.filter isCandidate).length).map (candidateRequest js) ∧
      ∃ sets, l.filterMap (operation env) =
          sets ++ (cs.take (l.filter isCandidate).length).map candidateOp ∧
        sets.length ≤ 1 ∧ ∀ o ∈ sets, ∃ sdp type, o = .setRemoteDescription sdp type := by
  obtain ⟨as, bs, heq, has, hbs⟩ := prefix_append_parts (h.replies ▸ hl.filter isReply)
  have hasAnswer : ∀ m ∈ as, ∃ d, m = answerRequest js d := fun m hm => h.answer m (has.subset hm)
  have hbs : bs = (cs.take bs.length).map (candidateRequest js) := by
    rw [List.map_take]
    exact List.prefix_iff_eq_take.1 hbs
  have hcandidate : l.filter isCandidate = bs := by
    have hnone : as.filter isCandidate = [] := by
      refine List.filter_eq_nil_iff.2 fun m hm => ?_
      obtain ⟨d, rfl⟩ := hasAnswer m hm
      simp [isCandidate_answerRequest]
    have hall : bs.filter isCandidate = bs := by
      refine List.filter_eq_self.2 fun m hm => ?_
      rw [hbs] at hm
      obtain ⟨c, -, rfl⟩ := List.mem_map.1 hm
      exact isCandidate_candidateRequest js c
    rw [filter_isCandidate, heq, List.filter_append, hnone, hall, List.nil_append]
  rw [hcandidate]
  refine ⟨hbs, as.filterMap (operation env), ?_, ?_, fun o ho => ?_⟩
  · have hops : bs.filterMap (operation env) = (cs.take bs.length).map candidateOp := by
      have hsome : ((cs.take bs.length).map (candidateRequest js)).filterMap (operation env) =
          (cs.take bs.length).map candidateOp :=
        operations_candidateRequests fun c hc => hread c (List.mem_of_mem_take hc)
      rwa [← hbs] at hsome
    rw [filterMap_operation, heq, List.filterMap_append, hops]
  · have hlen := h.once
    have hle := List.length_filterMap_le (operation env) as
    have hle' := has.length_le
    split at hlen
    · omega
    · omega
  · obtain ⟨m, hm, hop⟩ := List.mem_filterMap.1 ho
    obtain ⟨d, rfl⟩ := hasAnswer m hm
    exact operation_answerRequest hop

end Shape

/-! ### A whole run -/

/-- What is known of a run of one session, as long as gathering has completed once at most. -/
structure Alone (env : Server.Env) (js : Browser.Env) (es : List Event) (notes : List Note)
    (ops : List (PeerId × PcOp)) (s : Signalling) : Prop where
  serves : Serves env (handledOf 0 notes) ops s.server
  owed : offers (s.down 0) + (s.signal 0).owed ≤ es.countP (completes only)
  shape : ∃ answers cs, Shape js es (s.signal 0) (sentBy 0 notes) answers cs

section Alone

variable {env : Server.Env} {js : Browser.Env} {es : List Event} {e : Event} {s s' : Signalling}
  {notes o : List Note} {ops : List (PeerId × PcOp)}

/-- **One step of a run of one session.** -/
theorem Alone.step (h : Alone env js es notes ops s) (hrec : Recorded notes s) (hnext : s.next ≤ 1)
    (honce : es.countP (completes only) ≤ 1) (hstep : step env js s e = .ok (o, s')) :
    Alone env js (es ++ [e]) (notes ++ o) (ops ++ operations (served env s e)) s' := by
  have honly : ∀ pc, s.server.alive pc = true → pc = only := by
    intro pc hpc
    have hentry : s.server.clients.lookup Server.id = some pc := by simpa [Server.alive] using hpc
    by_cases hms : handledOf 0 notes = [] ∨ hungUp (handledOf 0 notes) = true
    · rw [h.serves.noEntry hms] at hentry
      simp at hentry
    · rw [not_or] at hms
      rw [h.serves.entry hms.1 (by simpa using hms.2)] at hentry
      exact (Option.some.inj hentry).symm
  have hpays := pays_step hrec honly hstep
  obtain ⟨answers, cs, hshape⟩ := h.shape
  refine ⟨serves_step hrec hnext h.serves hstep, ?_, ?_⟩
  · have howed := h.owed
    have hstepOwed := hpays.owed
    rw [List.countP_append, List.countP_singleton]
    omega
  · rw [sentBy_append]
    refine hshape.step hpays.sends fun hpending => ?_
    have howed := h.owed
    unfold Signal.owed at howed
    by_contra hdesc
    rw [if_pos (by simpa using hdesc)] at howed
    omega

/-- The notes of a run that is watched. -/
def notesOf (os : List (List Note × List (PeerId × PcOp))) : List Note := (os.map Prod.fst).flatten

/-- The operations of a run that is watched. -/
def opsOf (os : List (List Note × List (PeerId × PcOp))) : List (PeerId × PcOp) :=
  (os.map Prod.snd).flatten

/-- After a hangup that was read nothing is called. -/
def Ends (os : List (List Note × List (PeerId × PcOp))) : Prop :=
  ∀ os₁ os₂, os = os₁ ++ os₂ → hungUp (handledOf 0 (notesOf os₁)) = true → opsOf os₂ = []

variable {os : List (List Note × List (PeerId × PcOp))}

@[simp] lemma notesOf_snoc (x : List Note × List (PeerId × PcOp)) :
    notesOf (os ++ [x]) = notesOf os ++ x.1 := by
  simp [notesOf]

@[simp] lemma opsOf_snoc (x : List Note × List (PeerId × PcOp)) :
    opsOf (os ++ [x]) = opsOf os ++ x.2 := by
  simp [opsOf]

lemma Ends.step {x : List Note × List (PeerId × PcOp)} (h : Ends os)
    (hx : hungUp (handledOf 0 (notesOf os)) = true → x.2 = []) : Ends (os ++ [x]) := by
  intro os₁ os₂ heq hup
  rcases List.eq_nil_or_concat os₂ with rfl | ⟨os₂, y, rfl⟩
  · rfl
  · rw [List.concat_eq_append, ← List.append_assoc] at heq
    obtain ⟨hos, hy⟩ := List.append_inj' heq rfl
    obtain rfl := List.singleton_inj.1 hy
    have hall : hungUp (handledOf 0 (notesOf os)) = true := by
      rw [hos, notesOf, List.map_append, List.flatten_append, handledOf_append, hungUp_append]
      rw [← notesOf, hup, Bool.true_or]
    rw [List.concat_eq_append, opsOf_snoc, h os₁ os₂ hos hup, hx hall, List.append_nil]

theorem alone_start : Alone env js [] [] [] start where
  serves := ⟨rfl, fun _ => rfl, fun hne => absurd rfl hne, fun _ => rfl⟩
  owed := Nat.le_refl _
  shape := ⟨[], [], rfl, by simp, Nat.zero_le _, fun hne => absurd rfl hne, by simp⟩

lemma watched_ok {x : List Note × List (PeerId × PcOp)} (h : watched env js s e = .ok (x, s')) :
    step env js s e = .ok (x.1, s') ∧ x.2 = operations (served env s e) := by
  unfold watched at h
  split at h
  · simp at h
  · next o t hstep =>
    obtain ⟨rfl, rfl⟩ := Prod.mk.inj (Except.ok.inj h)
    exact ⟨hstep, rfl⟩

/-- **A run of one session.** -/
theorem alone_run (h : run (watched env js) start es = .ok (os, s)) :
    Recorded (notesOf os) s ∧ (s.next ≤ 1 → es.countP (completes only) ≤ 1 →
      Alone env js es (notesOf os) (opsOf os) s ∧ Ends os) := by
  refine history_run (J := fun es os s => Recorded (notesOf os) s ∧
    (s.next ≤ 1 → es.countP (completes only) ≤ 1 →
      Alone env js es (notesOf os) (opsOf os) s ∧ Ends os)) ?_ ?_ h
  · refine ⟨recorded_start, fun _ _ => ⟨alone_start, ?_⟩⟩
    intro os₁ os₂ heq _
    rw [(List.append_eq_nil_iff.1 heq.symm).2]
    rfl
  · rintro es os s e x s' - ⟨hrec, hones⟩ hx
    obtain ⟨hstep, hops⟩ := watched_ok hx
    have ha := step_advances hrec.wf hstep
    refine ⟨notesOf_snoc x ▸ hrec.step ha, fun hnext honce => ?_⟩
    have hnext' : s.next ≤ 1 := Nat.le_trans ha.next hnext
    have honce' : es.countP (completes only) ≤ 1 := by
      rw [List.countP_append] at honce
      omega
    obtain ⟨halone, hends⟩ := hones hnext' honce'
    have halone' := halone.step hrec hnext' honce' hstep
    rw [notesOf_snoc, opsOf_snoc, hops]
    refine ⟨halone', hends.step fun hup => ?_⟩
    have hsame := halone'.serves.ops
    rw [handledOf_append, operated_append_of_hungUp hup, ← halone.serves.ops] at hsame
    rw [hops]
    simpa using hsame

end Alone

/-! ### The order -/

/-- One session in order: the candidates that were `sent` before any hangup, those the server has `read`,
and what it called for them. -/
structure InOrder (js : Browser.Env) (notes : List Note) (ops : List (PeerId × PcOp)) (s : Signalling)
    (sent read : List LocalCandidate) (sets : List PcOp) : Prop where
  isSent : (untilHangup (sentBy 0 notes)).filter isCandidate = sent.map (candidateRequest js)
  isRead : (untilHangup (handledOf 0 notes)).filter isCandidate = read.map (candidateRequest js)
  fifo : read <+: sent
  all : s.up 0 = [] ∨ hungUp (handledOf 0 notes) = true → read = sent
  ops : ops = (sets ++ read.map candidateOp ++ if hungUp (handledOf 0 notes) then [PcOp.close] else []).map
    fun o => (only, o)
  once : sets.length ≤ 1
  description : ∀ o ∈ sets, ∃ sdp type, o = .setRemoteDescription sdp type

/-- **The order of one session.** In a run of one session, however its events are interleaved, the server
calls `setRemoteDescription` at most once, then `addRemoteCandidate` for the candidates it has read, which
are those that were sent before any hangup as far as they have arrived, and then `close` if it has read a
hangup, after which it calls nothing. -/
theorem signalling_order {env : Server.Env} {js : Browser.Env} {es : List Event}
    {os : List (List Note × List (PeerId × PcOp))} {s : Signalling}
    (h : run (watched env js) start es = .ok (os, s)) (hsingle : s.next ≤ 1)
    (honce : ∀ pc, es.countP (completes pc) ≤ 1)
    (hread : ∀ con c, .iceCandidate con (some c) ∈ es → c.candidate ≠ "" → Readable env js c) :
    (∃ sent read sets, InOrder js (notesOf os) (opsOf os) s sent read sets) ∧ Ends os := by
  obtain ⟨hrec, hones⟩ := alone_run h
  obtain ⟨halone, hends⟩ := hones hsingle (honce only)
  refine ⟨?_, hends⟩
  obtain ⟨answers, cs, hshape⟩ := halone.shape
  have hreadable : ∀ c ∈ cs, Readable env js c := by
    intro c hc
    obtain ⟨hne, con, hcon⟩ := hshape.offered c hc
    exact hread con c hcon hne
  have hup := hrec.up 0
  set ms := sentBy 0 (notesOf os)
  set rs := handledOf 0 (notesOf os)
  have hfifo : untilHangup rs <+: untilHangup ms := by
    rw [hup, untilHangup_append]
    split
    · exact List.prefix_rfl
    · next hno =>
      rw [untilHangup_of_not (by simpa using hno)]
      exact List.prefix_append _ _
  have hms : untilHangup ms <+: ms := List.takeWhile_prefix _
  obtain ⟨hsent, -⟩ := hshape.operations hreadable hms
  obtain ⟨hreads, sets, hops, hlen, hsets⟩ := hshape.operations hreadable (hfifo.trans hms)
  refine ⟨_, _, sets, hsent, hreads, ?_, fun hall => ?_, ?_, hlen, hsets⟩
  · exact List.take_prefix_take_left (hfifo.filter isCandidate).length_le
  · have hsame : untilHangup rs = untilHangup ms := by
      rcases hall with hnil | hall
      · rw [hup, hnil, List.append_nil]
      · rw [hup, untilHangup_append, if_pos hall]
    rw [hsame]
  · rw [halone.serves.ops, operated, hops]

/-! ### A call from beginning to end -/

def sampleAnswer : Json := .object [("type", .string "answer"), ("sdp", .string "v=0")]

def sampleCandidate : LocalCandidate := ⟨0, "video", "candidate:1"⟩

/-- The texts of the two. -/
def answerText : String := "\x7b\"type\":\"answer\",\"sdp\":\"v=0\"\x7d"

def candidateText : String :=
  "\x7b\"sdpMLineIndex\":0,\"sdpMid\":\"video\",\"candidate\":\"candidate:1\"\x7d"

/-- A browser that knows these texts. -/
def callerJs : Browser.Env where
  parse _ := some .null
  stringify
    | .object (("type", _) :: _) => answerText
    | _ => candidateText
  text _ := ""
  description _ := true
  candidate _ := true
  isZero _ := false
  indexed _ := []

/-- A server that knows them. -/
def calleeEnv : Server.Env where
  parse text :=
    if text = answerText then some sampleAnswer
    else if text = candidateText then some (candidateJson sampleCandidate)
    else none
  dump _ := ""
  description _ _ := true
  candidate _ _ := true
  accepts _ _ := true

/-- A call, an offer, the answer, a candidate and a hangup. -/
def wholeCall : List Event :=
  [.clickCall 0, .wsOpen 0, .data 0, .gatheringStateChange only .complete "offer" "v=0", .wsMessage 0,
    .remoteSet 0 true, .answered 0 (some sampleAnswer), .iceCandidate 0 (some sampleCandidate), .data 0,
    .clickHangup 0, .data 0, .data 0]

theorem signalling_order_wholeCall :
    ∃ os s, run (watched calleeEnv callerJs) start wholeCall = .ok (os, s) ∧
      opsOf os = [(only, .setRemoteDescription "v=0" "answer"),
        (only, .addRemoteCandidate "candidate:1" "video"), (only, .close)] ∧
      (∃ sent read sets, InOrder callerJs (notesOf os) (opsOf os) s sent read sets) ∧ Ends os := by
  obtain ⟨os, s, h, hnext, hops⟩ : ∃ os s, run (watched calleeEnv callerJs) start wholeCall =
      .ok (os, s) ∧ s.next = 1 ∧ opsOf os = [(only, .setRemoteDescription "v=0" "answer"),
        (only, .addRemoteCandidate "candidate:1" "video"), (only, .close)] := ⟨_, _, rfl, rfl, rfl⟩
  refine ⟨os, s, h, hops, signalling_order h (Nat.le_of_eq hnext) (fun pc => ?_) fun con c hc _ => ?_⟩
  · by_cases hpc : only = pc
    · subst hpc
      decide
    · simp [wholeCall, completes, hpc]
  · obtain ⟨rfl, rfl⟩ : con = 0 ∧ c = sampleCandidate := by simpa [wholeCall] using hc
    exact ⟨rfl, rfl⟩

end RcControl.Signalling
