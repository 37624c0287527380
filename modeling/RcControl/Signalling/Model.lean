import RcControl.Browser.Signal
import RcControl.Server.Handlers

/-!
# Pages, sockets and the server

The signalling of the whole system: any number of pages, the sessions their users start, the server,
and for each session the messages on their way to and from the server. A session is named by its
number, and so is its socket, at both ends. A message is the value that one end makes into a text and
the other end parses.

A message that is on its way stays so until it is read. A page whose socket is not open drops what it
reads, and the server reads nothing from a socket once its end has been reported.
-/

namespace RcControl.Signalling

open Server (ConnId PeerId PeerState GatheringState Json)
open Browser (Signal Effect ReadyState LocalCandidate)

abbrev PageId := ℕ

/-- What can happen next. -/
inductive Event where
  | clickCall (p : PageId)
  | clickHangup (p : PageId)
  /-- The socket opens, or closes, at the page. -/
  | wsOpen (con : ConnId)
  | wsClosed (con : ConnId)
  /-- The page reads a message. -/
  | wsMessage (con : ConnId)
  /-- `setRemoteDescription` calls back. -/
  | remoteSet (con : ConnId) (success : Bool)
  /-- `createAnswer` calls back. -/
  | answered (con : ConnId) (sessionDescription : Option Json)
  | iceCandidate (con : ConnId) (candidate : Option LocalCandidate)
  /-- The server reads a message. -/
  | data (con : ConnId)
  /-- The end of a socket is reported to the server. -/
  | disconnect (con : ConnId)
  | stateChange (pc : PeerId) (state : PeerState)
  | gatheringStateChange (pc : PeerId) (state : GatheringState) (type sdp : String)

/-- What can be seen of it. -/
inductive Note where
  | opened (con : ConnId)
  | closed (con : ConnId)
  /-- The user clicked on Hangup, with the socket in this state. -/
  | hangupClicked (con : ConnId) (readyState : ReadyState)
  /-- The page sent a message. -/
  | sent (con : ConnId) (message : Json)
  /-- The server read a message. -/
  | handled (con : ConnId) (message : Json)
  | disconnected (con : ConnId)
  /-- The peer connection of the server reached `Disconnected`, `Failed` or `Closed`. -/
  | ended (pc : PeerId)

end RcControl.Signalling

namespace RcControl

open Signalling Browser
open Server (ConnId PeerId PeerState GatheringState Json)

/-- The state of the system. -/
structure Signalling where
  server : Server
  /-- `signalObj` of each page. -/
  signalObj : PageId → Option ConnId
  /-- The page on which each session was started. -/
  owner : ConnId → PageId
  /-- How many sessions were started. -/
  next : ConnId
  signal : ConnId → Signal
  /-- The messages on their way to the server, the next to be read in front. -/
  up : ConnId → List Json
  /-- The messages on their way to the page. -/
  down : ConnId → List Json

namespace Signalling

def start : Signalling where
  server := .start
  signalObj _ := none
  owner _ := 0
  next := 0
  signal _ := .new
  up _ := []
  down _ := []

/-! ### The pages -/

/-- A handler of a session has run: what it sent is on its way, and `onClose` clears `signalObj`. -/
def runHandler (s : Signalling) (con : ConnId) (r : Effect × Signal) : List Note × Signalling :=
  (r.1.sent.map (.sent con), { s with
    signal := Function.update s.signal con r.2
    up := Function.update s.up con (s.up con ++ r.1.sent)
    signalObj := if r.1.onClose then Function.update s.signalObj (s.owner con) none else s.signalObj })

/-- `call` of the page. -/
def call (s : Signalling) (p : PageId) : List Note × Signalling :=
  match s.signalObj p with
  | some _ => ([], s)
  | none => ([], { s with
      signalObj := Function.update s.signalObj p (some s.next)
      owner := Function.update s.owner s.next p
      signal := Function.update s.signal s.next .new
      next := s.next + 1 })

/-- `hangup` of the page; an exception leaves `signalObj` as it is. -/
def hangup (s : Signalling) (p : PageId) : List Note × Signalling :=
  match s.signalObj p with
  | none => ([], s)
  | some con =>
    let r := (s.signal con).hangup
    let (notes, t) := s.runHandler con r
    (.hangupClicked con (s.signal con).readyState :: notes,
      if r.1.threw then t else { t with signalObj := Function.update t.signalObj p none })

def wsOpen (s : Signalling) (con : ConnId) : List Note × Signalling :=
  if con < s.next ∧ (s.signal con).readyState = .connecting then
    let (notes, s) := s.runHandler con (s.signal con).onopen
    (.opened con :: notes, s)
  else ([], s)

def wsClosed (s : Signalling) (con : ConnId) : List Note × Signalling :=
  if con < s.next ∧ (s.signal con).readyState ≠ .closed then
    let (notes, s) := s.runHandler con (s.signal con).onclose
    (.closed con :: notes, s)
  else ([], s)

def wsMessage (js : Browser.Env) (s : Signalling) (con : ConnId) : List Note × Signalling :=
  match s.down con with
  | [] => ([], s)
  | message :: rest =>
    let s := { s with down := Function.update s.down con rest }
    if (s.signal con).readyState = .open then
      s.runHandler con ((s.signal con).onmessage js message)
    else ([], s)

def remoteSet (s : Signalling) (con : ConnId) (success : Bool) : List Note × Signalling :=
  let g := s.signal con
  if 0 < g.settingRemote then
    let g := { g with settingRemote := g.settingRemote - 1 }
    s.runHandler con (if success then g.onRemoteSdpSuccess else g.onRemoteSdpError)
  else ([], s)

def answered (js : Browser.Env) (s : Signalling) (con : ConnId) (sessionDescription : Option Json) :
    List Note × Signalling :=
  let g := s.signal con
  if 0 < g.creatingAnswer then
    s.runHandler con
      (Signal.onAnswer js { g with creatingAnswer := g.creatingAnswer - 1 } sessionDescription)
  else ([], s)

/-- Candidates come once there is a local description, until the peer connection is closed. -/
def iceCandidate (js : Browser.Env) (s : Signalling) (con : ConnId)
    (candidate : Option LocalCandidate) : List Note × Signalling :=
  match (s.signal con).peer with
  | none => ([], s)
  | some peer =>
    if peer.hasLocalDesc ∧ ¬ peer.closed then
      s.runHandler con (Signal.onicecandidate js (s.signal con) candidate)
    else ([], s)

/-! ### The server -/

/-- A handler of the server has run: what it sent is on its way, if the socket is still there. -/
def runServer (s : Signalling) (r : Server.Output × Server) : Signalling :=
  { s with
    server := r.2
    down := fun con => s.down con ++
      if con ∈ s.server.gone then [] else (r.1.sent.filter fun m => m.1 = con).map Prod.snd }

def data (env : Server.Env) (s : Signalling) (con : ConnId) :
    Except Server.Fault (List Note × Signalling) :=
  match s.up con with
  | [] => .ok ([], s)
  | message :: rest =>
    if con ∈ s.server.gone then .ok ([], s)
    else
      match Server.dispatch env s.server con (Server.readMessage message) with
      | .error f => .error f
      | .ok r =>
        .ok ([.handled con message],
          { s.runServer r with up := Function.update s.up con rest })

def disconnect (s : Signalling) (con : ConnId) : List Note × Signalling :=
  if con < s.next ∧ con ∉ s.server.gone then
    ([.disconnected con], s.runServer (Server.onDisconnect s.server con))
  else ([], s)

def stateChange (s : Signalling) (pc : PeerId) (state : PeerState) : List Note × Signalling :=
  if pc.nth < s.server.created pc.ws then
    (match state with
      | .disconnected | .failed | .closed => [.ended pc]
      | _ => [],
      s.runServer (Server.onStateChange s.server pc state))
  else ([], s)

def gatheringStateChange (env : Server.Env) (s : Signalling) (pc : PeerId) (state : GatheringState)
    (type sdp : String) : List Note × Signalling :=
  ([], s.runServer (Server.onGatheringStateChange env s.server pc state type sdp))

def step (env : Server.Env) (js : Browser.Env) (s : Signalling) :
    Event → Except Server.Fault (List Note × Signalling)
  | .clickCall p => .ok (s.call p)
  | .clickHangup p => .ok (s.hangup p)
  | .wsOpen con => .ok (s.wsOpen con)
  | .wsClosed con => .ok (s.wsClosed con)
  | .wsMessage con => .ok (s.wsMessage js con)
  | .remoteSet con success => .ok (s.remoteSet con success)
  | .answered con sessionDescription => .ok (s.answered js con sessionDescription)
  | .iceCandidate con candidate => .ok (s.iceCandidate js con candidate)
  | .data con => s.data env con
  | .disconnect con => .ok (s.disconnect con)
  | .stateChange pc state => .ok (s.stateChange pc state)
  | .gatheringStateChange pc state type sdp => .ok (s.gatheringStateChange env pc state type sdp)

end Signalling

end RcControl
