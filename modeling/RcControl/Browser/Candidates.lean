import RcControl.Browser.Phase
import RcControl.Lib.Gate
import RcControl.Lib.Run

/-!
# The candidates that wait for a description

Candidates may come before the remote description they belong to. They wait in `iceCandidates` until
`setRemoteDescription` has called back, and go to the peer connection at once after that: a gate that
the first success lifts (`Represents`). One thing is wrong with it. A batch is put in one element after
the other, and an element that no candidate can be made of ends the handler: those before it are put in
and not flushed, those after it are lost.
-/

namespace RcControl.Browser

open Lib Lib.Run
open Server (Json)

/-- What happens at a page from `onopen` to `onclose`. -/
inductive PageEvent where
  | wsMessage (msg : Json)
  /-- `setRemoteDescription` calls back. -/
  | remoteSet (success : Bool)
  /-- `createAnswer` calls back. -/
  | answered (sessionDescription : Option Json)
  | iceCandidate (candidate : Option LocalCandidate)
  | hangup

/-- The socket has opened. -/
def opened : Signal := Signal.new.onopen.2

/-- What the loop of `case "iceCandidates"` goes over. -/
def elements (js : Env) (data : Option Json) : List (Option Json) :=
  match js.parse (js.text data) with
  | none | some .null => []
  | some (.array candidates) => candidates.map some
  | some candidates => js.indexed candidates

/-- The `what` of a message, if it is a string, and its `data`. -/
def whatOf (msg : Json) : Option String :=
  match property msg "what" with
  | some (some (.string what)) => some what
  | _ => none

def dataOf (msg : Json) : Option Json := (property msg "data").join

/-- The elements of a batch; other messages have none. -/
def batch (js : Env) (msg : Json) : List (Option Json) :=
  if whatOf msg = some "iceCandidates" then elements js (dataOf msg) else []

/-- The candidate of an `iceCandidate` message; that the gathering is complete has none. -/
def single (js : Env) (msg : Json) : Option Candidate :=
  if whatOf msg = some "iceCandidate" ∧ Signal.truthy js (dataOf msg) = true then
    (js.parse (js.text (dataOf msg))).bind fun elt => Signal.newCandidate js (some elt)
  else none

/-- The candidates of a message. -/
def candidatesOf (js : Env) (msg : Json) : List Candidate :=
  (single js msg).toList ++ (batch js msg).filterMap (Signal.newCandidate js)

/-- The handler that runs, with the candidates the page has received by it, or that a description has
been set. A callback comes once for each call, and a socket that closes has no more messages. -/
def pageStep (js : Env) (g : Signal) : PageEvent → Except Empty (Gate.Event Candidate × Signal)
  | .wsMessage msg =>
    if g.readyState = .open then .ok (.put (candidatesOf js msg), (g.onmessage js msg).2)
    else .ok (.put [], g)
  | .remoteSet success =>
    if 0 < g.settingRemote then
      let g := { g with settingRemote := g.settingRemote - 1 }
      if success then .ok (.lift, g.onRemoteSdpSuccess.2) else .ok (.put [], g.onRemoteSdpError.2)
    else .ok (.put [], g)
  | .answered sessionDescription =>
    if 0 < g.creatingAnswer then
      .ok (.put [],
        (Signal.onAnswer js { g with creatingAnswer := g.creatingAnswer - 1 } sessionDescription).2)
    else .ok (.put [], g)
  | .iceCandidate candidate => .ok (.put [], (Signal.onicecandidate js g candidate).2)
  | .hangup => .ok (.put [], g.hangup.2)

/-- What was passed to `addIceCandidate`. -/
def Signal.added (g : Signal) : List Candidate := g.peer.elim [] Peer.added

/-- A batch with an element that no candidate can be made of has no candidate after it, and if a
description has been set none before it. -/
def Readable (js : Env) (g : Signal) (e : PageEvent) : Prop :=
  ∀ msg before elt after, e = .wsMessage msg → g.readyState = .open →
    batch js msg = before ++ elt :: after → Signal.newCandidate js elt = none →
      after.filterMap (Signal.newCandidate js) = [] ∧
        (g.hasRemoteDesc = true → before.filterMap (Signal.newCandidate js) = [])

/-- The page keeps its candidates as the gate does. -/
def Represents (g : Signal) : Gate Candidate → Prop
  | .closed waiting => g.hasRemoteDesc = false ∧ g.iceCandidates = waiting ∧ g.added = []
  | .opened passed => g.hasRemoteDesc = true ∧ g.iceCandidates = [] ∧ g.added = passed

section Handlers

variable {js : Env} {g g' : Signal} {gate : Gate Candidate} {waiting passed : List Candidate}

lemma Represents.of_eq (h : Represents g gate) (hdesc : g'.hasRemoteDesc = g.hasRemoteDesc)
    (hice : g'.iceCandidates = g.iceCandidates) (hadded : g'.added = g.added) : Represents g' gate := by
  cases gate with
  | closed waiting => exact ⟨hdesc.trans h.1, hice.trans h.2.1, hadded.trans h.2.2⟩
  | opened passed => exact ⟨hdesc.trans h.1, hice.trans h.2.1, hadded.trans h.2.2⟩

/-- Before a description has been set `addIceCandidates` does nothing. -/
lemma addIceCandidates_closed (h : Represents g (.closed waiting)) :
    Represents g.addIceCandidates.2 (.closed waiting) := by
  simpa [Signal.addIceCandidates, h.1] using h

/-- After that it passes what waits. -/
lemma addIceCandidates_opened (hg : During g) (hdesc : g.hasRemoteDesc = true)
    (hall : g.added ++ g.iceCandidates = passed) : Represents g.addIceCandidates.2 (.opened passed) := by
  unfold Signal.addIceCandidates
  rw [if_pos hdesc]
  by_cases hnone : g.iceCandidates = []
  · rw [hnone, List.append_nil] at hall
    rw [if_pos hnone]
    exact ⟨hdesc, hnone, hall⟩
  · rw [if_neg hnone, if_pos hg.pc]
    obtain ⟨peer, hpeer, -⟩ := Option.map_eq_some_iff.1 hg.peer
    exact ⟨hdesc, rfl, by simpa [Signal.added, Signal.updatePeer, hpeer] using hall⟩

lemma represents_put (hg : During g) (h : Represents g gate) (xs : List Candidate) :
    Represents (Signal.addIceCandidates { g with iceCandidates := g.iceCandidates ++ xs }).2
      (gate.put xs) := by
  cases gate with
  | closed waiting => exact addIceCandidates_closed ⟨h.1, congrArg (· ++ xs) h.2.1, h.2.2⟩
  | opened passed =>
    obtain ⟨hdesc, hice, hadded⟩ := h
    refine addIceCandidates_opened ⟨hg.peer, hg.pc, hg.ws, hg.readyState⟩ hdesc ?_
    change g.added ++ (g.iceCandidates ++ xs) = passed ++ xs
    rw [hadded, hice, List.nil_append]

lemma represents_lift (hg : During g) (h : Represents g gate) :
    Represents (Signal.addIceCandidates { g with hasRemoteDesc := true }).2 (gate.step .lift) := by
  refine addIceCandidates_opened ⟨hg.peer, hg.pc, hg.ws, hg.readyState⟩ rfl ?_
  change g.added ++ g.iceCandidates = gate.content
  cases gate with
  | closed waiting => rw [h.2.1, h.2.2, List.nil_append, Gate.content]
  | opened passed => rw [h.2.1, h.2.2, List.append_nil, Gate.content]

/-! ### A batch -/

/-- A batch of candidates is put in as a whole. -/
lemma pushCandidates_all {elts : List (Option Json)}
    (h : ∀ elt ∈ elts, Signal.newCandidate js elt ≠ none) :
    Signal.pushCandidates js g elts = Signal.addIceCandidates
      { g with iceCandidates := g.iceCandidates ++ elts.filterMap (Signal.newCandidate js) } := by
  induction elts generalizing g with
  | nil => simp [Signal.pushCandidates]
  | cons elt elts ih =>
    obtain ⟨candidate, hnew⟩ := Option.ne_none_iff_exists'.1 (h elt List.mem_cons_self)
    rw [Signal.pushCandidates, hnew]
    simp only [ih fun elt' hmem => h elt' (List.mem_cons_of_mem _ hmem), List.filterMap_cons, hnew,
      List.append_assoc, List.singleton_append]

/-- An element that is none ends the loop. -/
lemma pushCandidates_stops {before after : List (Option Json)} {elt : Option Json}
    (h : ∀ elt ∈ before, Signal.newCandidate js elt ≠ none) (hbad : Signal.newCandidate js elt = none) :
    (Signal.pushCandidates js g (before ++ elt :: after)).2 =
      { g with iceCandidates := g.iceCandidates ++ before.filterMap (Signal.newCandidate js) } := by
  induction before generalizing g with
  | nil => simp [Signal.pushCandidates, hbad]
  | cons elt' before ih =>
    obtain ⟨candidate, hnew⟩ := Option.ne_none_iff_exists'.1 (h elt' List.mem_cons_self)
    rw [List.cons_append, Signal.pushCandidates, hnew]
    simp only [ih fun elt'' hmem => h elt'' (List.mem_cons_of_mem _ hmem), List.filterMap_cons, hnew,
      List.append_assoc, List.singleton_append]

/-- **A batch** is put in as a whole, if it has an element that is no candidate only where that does
no harm. -/
theorem represents_pushCandidates (hg : During g) (h : Represents g gate) {elts : List (Option Json)}
    (hread : ∀ before elt after, elts = before ++ elt :: after → Signal.newCandidate js elt = none →
      after.filterMap (Signal.newCandidate js) = [] ∧
        (g.hasRemoteDesc = true → before.filterMap (Signal.newCandidate js) = [])) :
    Represents (Signal.pushCandidates js g elts).2
      (gate.put (elts.filterMap (Signal.newCandidate js))) := by
  rcases hfind : elts.find? fun elt => (Signal.newCandidate js elt).isNone with _ | elt
  · have hall : ∀ elt ∈ elts, Signal.newCandidate js elt ≠ none := by
      intro elt hmem hnone
      have hsome := List.find?_eq_none.1 hfind elt hmem
      simp [hnone] at hsome
    rw [pushCandidates_all hall]
    exact represents_put hg h _
  · obtain ⟨hbad, before, after, rfl, hbefore⟩ := List.find?_eq_some_iff_append.1 hfind
    rw [Option.isNone_iff_eq_none] at hbad
    have hall : ∀ elt ∈ before, Signal.newCandidate js elt ≠ none := by
      intro elt hmem hnone
      simpa [hnone] using hbefore elt hmem
    obtain ⟨hafter, hdesc⟩ := hread before elt after rfl hbad
    rw [pushCandidates_stops hall hbad]
    have hlist : (before ++ elt :: after).filterMap (Signal.newCandidate js) =
        before.filterMap (Signal.newCandidate js) := by
      rw [List.filterMap_append, List.filterMap_cons_none hbad, hafter, List.append_nil]
    rw [hlist]
    cases gate with
    | closed waiting => exact ⟨h.1, by rw [h.2.1], h.2.2⟩
    | opened passed =>
      rw [hdesc h.1, List.append_nil, Gate.put_nil]
      exact h

/-! ### The handlers -/

lemma whatOf_eq_some {msg : Json} {what : String} :
    whatOf msg = some what ↔ property msg "what" = some (some (.string what)) := by
  unfold whatOf
  split
  · next hwhat => simp [hwhat]
  · next hwhat => exact iff_of_false (by simp) fun h => hwhat what h

/-- The other messages have no candidates. -/
lemma candidatesOf_eq_nil {msg : Json} (hone : whatOf msg ≠ some "iceCandidate")
    (hmany : whatOf msg ≠ some "iceCandidates") : candidatesOf js msg = [] := by
  simp [candidatesOf, single, batch, hone, hmany]

lemma represents_onOffer (h : Represents g gate) (data : Option Json) :
    Represents (Signal.onOffer js g data).2 gate := by
  unfold Signal.onOffer
  split
  · split
    · exact h
    · split
      · exact h.of_eq rfl rfl rfl
      · exact h
  · exact h

lemma represents_onIceCandidate (hg : During g) (h : Represents g gate) {msg : Json}
    (hwhat : whatOf msg = some "iceCandidate") :
    Represents (Signal.onIceCandidate js g (dataOf msg)).2 (gate.put (single js msg).toList) := by
  unfold Signal.onIceCandidate single
  simp only [hwhat, true_and]
  split
  · split
    · next hnone =>
      rw [hnone, Option.toList_none, Gate.put_nil]
      exact h
    · next candidate hnew =>
      rw [hnew]
      exact represents_put hg h [candidate]
  · rw [Option.toList_none, Gate.put_nil]
    exact h

/-- There is nothing to go over, or the loop goes over it. -/
lemma onIceCandidates_cases (js : Env) (g : Signal) (data : Option Json) :
    (Signal.onIceCandidates js g data).2 = g ∧ elements js data = [] ∨
      Signal.onIceCandidates js g data = Signal.pushCandidates js g (elements js data) := by
  unfold Signal.onIceCandidates elements
  rcases js.parse (js.text data) with _ | candidates
  · exact Or.inl ⟨rfl, rfl⟩
  · cases candidates with
    | null => exact Or.inl ⟨rfl, rfl⟩
    | _ => exact Or.inr rfl

lemma represents_onIceCandidates (hg : During g) (h : Represents g gate) {msg : Json}
    (hwhat : whatOf msg = some "iceCandidates") (hopen : g.readyState = .open)
    (hread : Readable js g (.wsMessage msg)) :
    Represents (Signal.onIceCandidates js g (dataOf msg)).2
      (gate.put ((batch js msg).filterMap (Signal.newCandidate js))) := by
  have hbatch : batch js msg = elements js (dataOf msg) := if_pos hwhat
  rcases onIceCandidates_cases js g (dataOf msg) with ⟨hsame, hnil⟩ | hloop
  · rw [hsame, hbatch, hnil, List.filterMap_nil, Gate.put_nil]
    exact h
  · rw [hloop, ← hbatch]
    exact represents_pushCandidates hg h fun before elt after => hread msg before elt after rfl hopen

/-- **A message** is put in: its candidates, if it has any. -/
theorem represents_onmessage (hg : During g) (h : Represents g gate) {msg : Json}
    (hopen : g.readyState = .open) (hread : Readable js g (.wsMessage msg)) :
    Represents (Signal.onmessage js g msg).2 (gate.put (candidatesOf js msg)) := by
  unfold Signal.onmessage
  split
  · next data hwhat hdata =>
    have hoffer : whatOf msg = some "offer" := whatOf_eq_some.2 hwhat
    rw [candidatesOf_eq_nil (by simp [hoffer]) (by simp [hoffer]), Gate.put_nil]
    exact represents_onOffer h data
  · next data hwhat hdata =>
    have hone : whatOf msg = some "iceCandidate" := whatOf_eq_some.2 hwhat
    have hdata : dataOf msg = data := by rw [dataOf, hdata, Option.join_some]
    have hsingle : candidatesOf js msg = (single js msg).toList := by
      simp [candidatesOf, batch, hone]
    rw [hsingle, ← hdata]
    exact represents_onIceCandidate hg h hone
  · next data hwhat hdata =>
    have hmany : whatOf msg = some "iceCandidates" := whatOf_eq_some.2 hwhat
    have hdata : dataOf msg = data := by rw [dataOf, hdata, Option.join_some]
    have hbatch : candidatesOf js msg = (batch js msg).filterMap (Signal.newCandidate js) := by
      simp [candidatesOf, single, hmany]
    rw [hbatch, ← hdata]
    exact represents_onIceCandidates hg h hmany hopen hread
  · next what data hoffer hone hmany hwhat hdata =>
    have hother : ∀ name, whatOf msg = some name → what = some (.string name) := fun name hname =>
      Option.some_inj.1 (hwhat.symm.trans (whatOf_eq_some.1 hname))
    rw [candidatesOf_eq_nil (fun hname => hone (hother _ hname)) (fun hname => hmany (hother _ hname)),
      Gate.put_nil]
    exact h
  · next hthrows =>
    -- of `null` there are no properties
    have hnull : ∀ name, whatOf msg ≠ some name := by
      intro name hname
      cases msg with
      | null => exact absurd (whatOf_eq_some.1 hname) (by simp [property])
      | _ => exact hthrows _ _ (whatOf_eq_some.1 hname) rfl
    rw [candidatesOf_eq_nil (hnull _) (hnull _), Gate.put_nil]
    exact h

lemma represents_onRemoteSdpSuccess (hg : During g) (h : Represents g gate) :
    Represents g.onRemoteSdpSuccess.2 (gate.step .lift) := by
  have hlift := represents_lift hg h
  unfold Signal.onRemoteSdpSuccess
  dsimp only
  split
  · exact hlift
  · split
    · exact hlift.of_eq rfl rfl rfl
    · exact hlift

lemma represents_wsClose (h : Represents g gate) : Represents g.wsClose.2 gate := by
  unfold Signal.wsClose
  split
  · split
    · exact h.of_eq rfl rfl rfl
    · exact h.of_eq rfl rfl rfl
    · exact h
    · exact h
  · exact h

lemma represents_onAnswer (h : Represents g gate) (sessionDescription : Option Json) :
    Represents (Signal.onAnswer js g sessionDescription).2 gate := by
  unfold Signal.onAnswer
  cases sessionDescription with
  | none => exact h
  | some d =>
    dsimp only
    split
    · refine h.of_eq rfl rfl ?_
      simp only [Signal.added, Signal.updatePeer]
      cases g.peer <;> rfl
    · exact h

lemma onicecandidate_state (js : Env) (g : Signal) (candidate : Option LocalCandidate) :
    (Signal.onicecandidate js g candidate).2 = g := by
  unfold Signal.onicecandidate
  cases candidate with
  | none => rfl
  | some c =>
    dsimp only
    split <;> rfl

end Handlers

section Run

variable {js : Env} {g g' : Signal} {gate : Gate Candidate} {e : PageEvent} {es : List PageEvent}
  {o : Gate.Event Candidate} {os : List (Gate.Event Candidate)}

/-- What an event does. -/
inductive Handles (js : Env) (g : Signal) : PageEvent → Gate.Event Candidate → Signal → Prop
  | message (msg : Json) (hopen : g.readyState = .open) :
      Handles js g (.wsMessage msg) (.put (candidatesOf js msg)) (g.onmessage js msg).2
  | success : Handles js g (.remoteSet true) .lift
      (Signal.onRemoteSdpSuccess { g with settingRemote := g.settingRemote - 1 }).2
  | failure : Handles js g (.remoteSet false) (.put [])
      (Signal.onRemoteSdpError { g with settingRemote := g.settingRemote - 1 }).2
  | answer (sessionDescription : Option Json) : Handles js g (.answered sessionDescription) (.put [])
      (Signal.onAnswer js { g with creatingAnswer := g.creatingAnswer - 1 } sessionDescription).2
  | nothing (e : PageEvent) : Handles js g e (.put []) g

theorem handles_of_pageStep (hs : pageStep js g e = .ok (o, g')) : Handles js g e o g' := by
  cases e with
  | wsMessage msg =>
    simp only [pageStep] at hs
    split at hs
    · next hopen =>
      obtain ⟨rfl, rfl⟩ := Prod.mk.inj (Except.ok.inj hs)
      exact .message msg hopen
    · obtain ⟨rfl, rfl⟩ := Prod.mk.inj (Except.ok.inj hs)
      exact .nothing _
  | remoteSet success =>
    simp only [pageStep] at hs
    split at hs
    · cases success with
      | true =>
        obtain ⟨rfl, rfl⟩ := Prod.mk.inj (Except.ok.inj hs)
        exact .success
      | false =>
        obtain ⟨rfl, rfl⟩ := Prod.mk.inj (Except.ok.inj hs)
        exact .failure
    · obtain ⟨rfl, rfl⟩ := Prod.mk.inj (Except.ok.inj hs)
      exact .nothing _
  | answered sessionDescription =>
    simp only [pageStep] at hs
    split at hs
    · obtain ⟨rfl, rfl⟩ := Prod.mk.inj (Except.ok.inj hs)
      exact .answer sessionDescription
    · obtain ⟨rfl, rfl⟩ := Prod.mk.inj (Except.ok.inj hs)
      exact .nothing _
  | iceCandidate candidate =>
    obtain ⟨rfl, rfl⟩ := Prod.mk.inj (Except.ok.inj hs)
    rw [onicecandidate_state]
    exact .nothing _
  | hangup =>
    obtain ⟨rfl, rfl⟩ := Prod.mk.inj (Except.ok.inj hs)
    rw [hangup_state]
    exact .nothing _

/-- The socket stays open, or is closing. -/
lemma during_pageStep (js : Env) : Invariant (pageStep js) During := by
  intro g e o g' hg hs
  cases handles_of_pageStep hs with
  | message msg => exact (Stays.onmessage js g msg).during hg
  | success => exact (Stays.onRemoteSdpSuccess _).during ⟨hg.peer, hg.pc, hg.ws, hg.readyState⟩
  | failure => exact (Stays.wsClose _).during ⟨hg.peer, hg.pc, hg.ws, hg.readyState⟩
  | answer d => exact (Stays.onAnswer js _ d).during ⟨hg.peer, hg.pc, hg.ws, hg.readyState⟩
  | nothing => exact hg

/-- **One event at the page** is one at the gate. -/
theorem represents_pageStep (hg : During g) (h : Represents g gate) (hread : Readable js g e)
    (hs : pageStep js g e = .ok (o, g')) : Represents g' (gate.step o) := by
  have hput : gate.step (.put []) = gate := Gate.put_nil gate
  cases handles_of_pageStep hs with
  | message msg hopen => exact represents_onmessage hg h hopen hread
  | success =>
    exact represents_onRemoteSdpSuccess ⟨hg.peer, hg.pc, hg.ws, hg.readyState⟩ (h.of_eq rfl rfl rfl)
  | failure =>
    rw [hput]
    exact represents_wsClose (h.of_eq rfl rfl rfl)
  | answer d =>
    rw [hput]
    refine represents_onAnswer ?_ d
    exact h.of_eq rfl rfl rfl
  | nothing =>
    rw [hput]
    exact h

/-- **A run of the page** is one of the gate. -/
theorem represents_run (hg : During g) (h : Represents g gate)
    (hread : Along (pageStep js) (Readable js) g es)
    (hrun : run (pageStep js) g es = .ok (os, g')) : Represents g' (os.foldl Gate.step gate) := by
  induction es generalizing g gate os with
  | nil =>
    obtain ⟨rfl, rfl⟩ := Prod.mk.inj (Except.ok.inj hrun)
    exact h
  | cons e es ih =>
    obtain ⟨o, m, os', hs, hrest, rfl⟩ := run_cons_eq_ok.1 hrun
    rw [List.foldl_cons]
    exact ih (during_pageStep js g e o m hg hs) (represents_pageStep hg h hread.1 hs) (hread.2 o m hs) hrest

lemma represents_opened : Represents opened (.closed []) := ⟨rfl, rfl, rfl⟩

lemma during_opened : During opened := ⟨rfl, rfl, rfl, Or.inl rfl⟩

/-- **The candidates a page has received.** Candidates come singly or in batches, before, between and
after the offers and the callbacks of `setRemoteDescription`, and a batch has an element that no candidate
can be made of only where none comes after it, nor before it once a description has been set. Then what
was passed to `addIceCandidate` is what was received, each once and in its order, up to some point: nothing
as long as no description has been set, and all of it once one has. -/
theorem candidates_passed (hread : Along (pageStep js) (Readable js) opened es)
    (hrun : run (pageStep js) opened es = .ok (os, g)) :
    g.added <+: Gate.puts os ∧ (.lift ∉ os → g.added = []) ∧
      (.lift ∈ os → g.added = Gate.puts os) := by
  have hrep := represents_run during_opened represents_opened hread hrun
  have hcontent := Gate.content_foldl (.closed []) os
  have hopen := Gate.isOpen_foldl (.closed []) os
  rw [Gate.content, List.nil_append] at hcontent
  simp only [Gate.isOpen, Bool.false_eq_true, false_or] at hopen
  rcases hgate : os.foldl Gate.step (.closed []) with waiting | passed
  · rw [hgate] at hrep hopen
    have hno : .lift ∉ os := fun hmem => Bool.false_ne_true (hopen.2 hmem)
    exact ⟨hrep.2.2 ▸ List.nil_prefix, fun _ => hrep.2.2, fun hmem => absurd hmem hno⟩
  · rw [hgate] at hrep hopen hcontent
    have hall : g.added = Gate.puts os := hrep.2.2.trans hcontent
    exact ⟨hall ▸ List.prefix_refl _, fun hno => absurd (hopen.1 rfl) hno, fun _ => hall⟩

end Run

/-! ### A batch that is read in part -/

section Texts

-- for the comparison of texts
set_option maxRecDepth 2000

/-- A message as the server sends it. -/
def message (what data : String) : Json := .object [("what", .string what), ("data", .string data)]

/-- The elements of the batches below: two candidates, and one with a `sdpMid` and no `sdpMLineIndex`. -/
def host : Json :=
  .object [("sdpMLineIndex", .number "0"),
    ("candidate", .string "candidate:1 1 UDP 9 10.0.0.1 5000 typ host")]
def relay : Json :=
  .object [("sdpMLineIndex", .number "0"),
    ("candidate", .string "candidate:2 1 UDP 1 10.0.0.2 5001 typ relay")]
def unindexed : Json :=
  .object [("sdpMid", .string "0"), ("candidate", .string "candidate:2 1 UDP 1 10.0.0.2 5001 typ relay")]

def hostText : String :=
  "\x7b\"sdpMLineIndex\":0,\"candidate\":\"candidate:1 1 UDP 9 10.0.0.1 5000 typ host\"\x7d"
def relayText : String :=
  "\x7b\"sdpMLineIndex\":0,\"candidate\":\"candidate:2 1 UDP 1 10.0.0.2 5001 typ relay\"\x7d"
def unindexedText : String :=
  "\x7b\"sdpMid\":\"0\",\"candidate\":\"candidate:2 1 UDP 1 10.0.0.2 5001 typ relay\"\x7d"
def bothText : String := "[" ++ hostText ++ "," ++ relayText ++ "]"
def halfText : String := "[" ++ hostText ++ "," ++ unindexedText ++ "]"
def offerText : String :=
  "\x7b\"type\":\"offer\",\"sdp\":\"v=0\\r\\no=- 0 0 IN IP4 10.0.0.1\\r\\ns=-\\r\\nt=0 0\\r\\n\"\x7d"

/-- A browser, on these texts. A candidate needs a `sdpMLineIndex`, as no `sdpMid` is passed on. -/
def plain : Env where
  parse s :=
    if s = bothText then some (.array [host, relay])
    else if s = halfText then some (.array [host, unindexed])
    else if s = offerText then some (.object [("type", .string "offer"),
      ("sdp", .string "v=0\r\no=- 0 0 IN IP4 10.0.0.1\r\ns=-\r\nt=0 0\r\n")])
    else none
  stringify _ := ""
  text
    | none => "undefined"
    | some .null => "null"
    | some (.boolean b) => toString b
    | some (.number literal) => literal
    | some (.string s) => s
    | some _ => "[object Object]"
  description _ := true
  candidate c :=
    match c.sdpMLineIndex with
    | none | some .null => false
    | some _ => true
  isZero literal := literal == "0"
  indexed _ := []

/-- A batch that ends with what is no candidate comes before a description is set, and another batch
after. -/
def trickles : List PageEvent :=
  [.wsMessage (message "offer" offerText), .wsMessage (message "iceCandidates" halfText), .remoteSet true,
    .wsMessage (message "iceCandidates" bothText)]

lemma readable_of_isSome {js : Env} {g : Signal} {msg : Json}
    (h : ∀ elt ∈ batch js msg, (Signal.newCandidate js elt).isSome = true) :
    Readable js g (.wsMessage msg) := by
  intro msg' before elt after he _ hbatch hbad
  obtain rfl := PageEvent.wsMessage.inj he
  have hsome := h elt (hbatch ▸ List.mem_append_right _ List.mem_cons_self)
  rw [hbad] at hsome
  exact absurd hsome Bool.false_ne_true

lemma readable_half {g : Signal} (hdesc : g.hasRemoteDesc = false) :
    Readable plain g (.wsMessage (message "iceCandidates" halfText)) := by
  intro msg before elt after he _ hbatch hbad
  obtain rfl := PageEvent.wsMessage.inj he
  have hbatch : [some host, some unindexed] = before ++ elt :: after := hbatch
  rcases before with _ | ⟨b, _ | ⟨b', before⟩⟩
  · obtain ⟨rfl, -⟩ := List.cons.inj hbatch
    exact absurd hbad (by decide)
  · obtain ⟨-, rfl⟩ := List.cons.inj (List.cons.inj hbatch).2
    exact ⟨rfl, fun hset => absurd (hdesc.symm.trans hset) Bool.false_ne_true⟩
  · simp at hbatch

theorem candidates_passed_trickles : ∃ os g, run (pageStep plain) opened trickles = .ok (os, g) ∧
    g.added <+: Gate.puts os ∧ (.lift ∉ os → g.added = []) ∧
      (.lift ∈ os → g.added = Gate.puts os) := by
  have hread : Along (pageStep plain) (Readable plain) opened trickles := by
    refine along_cons_ok rfl ?_ (along_cons_ok rfl ?_ (along_cons_ok rfl ?_ (along_cons_ok rfl ?_ trivial)))
    · exact readable_of_isSome (by decide)
    · exact readable_half rfl
    · intro msg before elt after he
      exact absurd he (by simp)
    · exact readable_of_isSome (by decide)
  exact ⟨_, _, rfl, candidates_passed hread rfl⟩

/-- The first candidate of the batch waits, although a description has been set. -/
theorem halfBatch_waits : ∃ os g, run (pageStep plain) opened [.wsMessage (message "offer" offerText),
      .remoteSet true, .wsMessage (message "iceCandidates" halfText)] = .ok (os, g) ∧
    .lift ∈ os ∧ g.added ≠ Gate.puts os := by
  refine ⟨_, _, rfl, ?_, fun h => ?_⟩
  · simp
  · exact absurd (congrArg List.length h) (by decide)

end Texts

end RcControl.Browser
