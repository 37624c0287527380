import RcControl.Signalling.History

/-!
# The end of a session

A session ends when the user hangs up, when its socket closes, or when the peer connection of the server
comes to an end. The three ways are handled by three callbacks that know nothing of each other: a
hangup erases the entry of the server and leaves the peer connection of the page open, a closed socket
closes the peer connection of the page and leaves the entry, and the end of the peer connection of the
server does neither. Both ends are cleaned up when the user hangs up on an open socket and the socket
then closes.
-/

namespace RcControl.Signalling

open Lib Lib.Run Browser
open Server (ConnId PeerId Json readMessage)

/-! ### What is asked of a session -/

/-- The session has ended, in one of the ways there are. -/
def Ended (con : ConnId) (notes : List Note) : Prop :=
  (∃ readyState, .hangupClicked con readyState ∈ notes) ∨ .closed con ∈ notes ∨
    .disconnected con ∈ notes ∨ ∃ pc : PeerId, pc.ws = con ∧ .ended pc ∈ notes

/-- No message of the session is on its way. -/
def Quiet (s : Signalling) (con : ConnId) : Prop := s.up con = [] ∧ s.down con = []

/-- Both ends are cleaned up: no entry is the peer connection of the session, and that of the page is
closed. -/
structure Clean (s : Signalling) (con : ConnId) : Prop where
  server : ∀ k pc, s.server.clients.lookup k = some pc → pc.ws ≠ con
  page : ∀ peer, (s.signal con).peer = some peer → peer.closed = true

/-- Both ends of every session that has ended are cleaned up, once its messages are processed. -/
def TeardownAgrees (notes : List Note) (s : Signalling) : Prop :=
  ∀ con, Ended con notes → Quiet s con → Clean s con

/-- If its socket has opened, the user has clicked on Hangup with the socket open, and it has closed. -/
def HungUpAndClosed (con : ConnId) (notes : List Note) : Prop :=
  .opened con ∈ notes → .hangupClicked con .open ∈ notes ∧ .closed con ∈ notes

/-! ### When it is done -/

section Teardown

variable {env : Server.Env} {js : Browser.Env} {notes : List Note} {s : Signalling} {con : ConnId}
  {es : List Event} {os : List (List Note)}

lemma mem_filter_about {n : Note} (h : about con n = true) : n ∈ notes.filter (about con) ↔ n ∈ notes := by
  rw [List.mem_filter, and_iff_left h]

/-- A session of which everything is read, and which was hung up and closed, is cleaned up. -/
theorem Recorded.clean (h : Recorded notes s) (hup : s.up con = []) (hend : HungUpAndClosed con notes) :
    Clean s con := by
  rcases h.tracks con with hun | hop
  · -- nothing was sent, and there is no peer connection
    refine ⟨fun k pc hk hcon => ?_, fun peer hpeer => ?_⟩
    · obtain ⟨-, l₁, m, l₂, heq, -⟩ := h.entry k pc hk
      have hsent := h.up con
      rw [← sentBy_filter, hun.sent, ← hcon, heq] at hsent
      simp at hsent
    · rw [hun.before.peer] at hpeer
      simp at hpeer
  have hopened : .opened con ∈ notes := (mem_filter_about (by simp [about])).1 hop.opened
  obtain ⟨hclicked, hclosed⟩ := hend hopened
  obtain ⟨rest, hsent, hcall, hhangup⟩ := hop.sent
  rw [sentBy_filter, h.up, hup, List.append_nil] at hsent
  refine ⟨fun k pc hk hcon => ?_, fun peer hpeer => ?_⟩
  · -- the call that made the entry is the first message, and the hangup is after it
    obtain ⟨-, l₁, m, l₂, heq, hm, hl₂⟩ := h.entry k pc hk
    obtain ⟨x, hx, hxup⟩ := hhangup.2 ((mem_filter_about (by simp [about])).2 hclicked)
    rw [hcon, hsent] at heq
    rcases l₁ with _ | ⟨y, l₁⟩
    · obtain ⟨rfl, rfl⟩ := List.cons.inj heq
      rw [hl₂ x hx] at hxup
      simp at hxup
    · have hin : m ∈ rest := (List.cons.inj heq).2 ▸ by simp
      rw [hcall m hin] at hm
      simp at hm
  · rcases hop.phase with ⟨-, hopen⟩ | ⟨hafter, -⟩
    · exact absurd ((mem_filter_about (by simp [about])).2 hclosed) hopen
    · have := hafter.peer
      rw [hpeer] at this
      exact Option.some.inj this

/-- The only session, once everything is read, is cleaned up in no other way. -/
theorem Recorded.hungUpAndClosed (h : Recorded notes s) (hsingle : s.next ≤ 1) (hup : s.up con = [])
    (hclean : Clean s con) : HungUpAndClosed con notes := by
  intro hopened
  rcases h.tracks con with hun | hop
  · exact absurd ((mem_filter_about (by simp [about])).2 hopened) hun.opened
  obtain ⟨rest, hsent, hcall, hhangup⟩ := hop.sent
  rw [sentBy_filter] at hsent
  have hcon : con = 0 := Nat.lt_one_iff.1 (lt_of_lt_of_le (h.lt_next (by simp [hsent])) hsingle)
  rw [h.up, hup, List.append_nil] at hsent
  constructor
  · by_contra hno
    have hnone : ∀ m ∈ rest, (readMessage m).isHangup = false := by
      intro m hm
      by_contra hmu
      exact hno ((mem_filter_about (by simp [about])).1 (hhangup.1 ⟨m, hm, by simpa using hmu⟩))
    obtain ⟨pc, hpc, hws⟩ := h.single hsingle
      ⟨callRequest, by simp [← hcon, hsent], by rw [readMessage_callRequest]; rfl⟩ (by
        intro m hm
        rw [← hcon, hsent] at hm
        rcases List.mem_cons.1 hm with rfl | hm
        · rw [readMessage_callRequest]
          rfl
        · exact hnone m hm)
    exact hclean.server _ pc hpc (hws.trans hcon.symm)
  · rcases hop.phase with ⟨hduring, -⟩ | ⟨-, hclosed⟩
    · obtain ⟨peer, hpeer, hfalse⟩ := Option.map_eq_some_iff.1 hduring.peer
      rw [hclean.page peer hpeer] at hfalse
      simp at hfalse
    · exact (mem_filter_about (by simp [about])).1 hclosed

/-- **Teardown.** After every run, whatever the sessions and however their steps are interleaved, the
two ends agree if each session that has ended was hung up on an open socket that closed; and in a run
of one session they agree in no other way. -/
theorem teardown (h : run (step env js) start es = .ok (os, s)) :
    ((∀ con, Ended con os.flatten → Quiet s con → HungUpAndClosed con os.flatten) →
      TeardownAgrees os.flatten s) ∧
    (s.next ≤ 1 → TeardownAgrees os.flatten s →
      ∀ con, Ended con os.flatten → Quiet s con → HungUpAndClosed con os.flatten) := by
  have hrec := recorded_run h
  exact ⟨fun hall con hend hquiet => hrec.clean hquiet.1 (hall con hend hquiet),
    fun hsingle hagrees con hend hquiet =>
      hrec.hungUpAndClosed hsingle hquiet.1 (hagrees con hend hquiet)⟩

end Teardown

/-! ### Two sessions -/

/-- A browser to which nothing is said. -/
def sampleJs : Browser.Env where
  parse _ := none
  stringify _ := ""
  text _ := ""
  description _ := true
  candidate _ := true
  isZero _ := false
  indexed _ := []

/-- A session that is hung up, and then closed. -/
def orderlyEnd : List Event :=
  [.clickCall 0, .wsOpen 0, .data 0, .clickHangup 0, .data 0, .wsClosed 0]

/-- A session that is hung up. -/
def hangupOnly : List Event := [.clickCall 0, .wsOpen 0, .data 0, .clickHangup 0, .data 0]

/-- What both show. -/
def hangupNotes : List (List Note) :=
  [[], [.opened 0, .sent 0 callRequest], [.handled 0 callRequest],
    [.hangupClicked 0 .open, .sent 0 hangupRequest], [.handled 0 hangupRequest]]

theorem teardown_orderlyEnd :
    ∃ os s, run (step Server.sampleEnv sampleJs) start orderlyEnd = .ok (os, s) ∧
      Ended 0 os.flatten ∧ Quiet s 0 ∧ TeardownAgrees os.flatten s := by
  obtain ⟨s, h, hquiet⟩ : ∃ s, run (step Server.sampleEnv sampleJs) start orderlyEnd =
      .ok (hangupNotes ++ [[.closed 0]], s) ∧ Quiet s 0 := ⟨_, rfl, rfl, rfl⟩
  refine ⟨_, s, h, Or.inr (Or.inl (by simp)), hquiet, (teardown h).1 fun con _ _ hopened => ?_⟩
  obtain rfl : con = 0 := by simpa [hangupNotes] using hopened
  simp [hangupNotes]

/-- The user hangs up, everything is read, and the peer connection of the page is as open as before. -/
theorem hangupOnly_disagrees :
    ¬ ∀ es os s, run (step Server.sampleEnv sampleJs) start es = .ok (os, s) →
      TeardownAgrees os.flatten s := by
  intro hclaim
  obtain ⟨s, h, hquiet, hpeer⟩ : ∃ s, run (step Server.sampleEnv sampleJs) start hangupOnly =
      .ok (hangupNotes, s) ∧ Quiet s 0 ∧ (s.signal 0).peer = some Peer.new := ⟨_, rfl, ⟨rfl, rfl⟩, rfl⟩
  have hclean := hclaim _ _ _ h 0 (Or.inl ⟨.open, by simp [hangupNotes]⟩) hquiet
  have := hclean.page _ hpeer
  simp [Peer.new] at this

end RcControl.Signalling
