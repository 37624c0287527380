import RcControl.Lib.Registry
import RcControl.Lib.Run
import RcControl.Server.Message
import Mathlib.Logic.Function.Basic

/-!
# The signalling server

`WebRTCHandler` and the callbacks `createPeerConnection` registers. A run is a list of events, each
handled to its end before the next. A client is its peer connection here, and a peer connection is
named by the socket whose `call` created it and the number of that call. A text that makes an
exception leave `onData` has no further effect, and the run goes on with whatever event comes next.
-/

namespace RcControl.Server

open Lib

/-- A `WebSocket*`. -/
abbrev ConnId := ℕ

/-- A peer connection: the `nth` one created for `ws`. -/
structure PeerId where
  ws : ConnId
  nth : ℕ
  deriving DecidableEq

/-- `auto id = "999"`. -/
def id : String := "999"

/-- What happens to a peer connection and its entry. -/
inductive Action where
  /-- Inserted into `clients`. -/
  | inserted
  /-- Removed from `clients`. -/
  | removed
  | op (o : PcOp)
  deriving DecidableEq

/-- What one event makes the server do. -/
structure Output where
  actions : List (PeerId × Action) := []
  sent : List (ConnId × Json) := []
  threw : Bool := false

/-- `getType` returns no value: nothing is known of what follows. -/
inductive Fault where
  | flowsOff
  deriving DecidableEq

inductive PeerState where
  | new | connecting | connected | disconnected | failed | closed

inductive GatheringState where
  | new | inProgress | complete

/-- What can come in from a socket or from libdatachannel. -/
inductive Event where
  | connect (con : ConnId)
  | disconnect (con : ConnId)
  | data (con : ConnId) (text : String)
  | stateChange (pc : PeerId) (state : PeerState)
  | gatheringStateChange (pc : PeerId) (state : GatheringState) (type sdp : String)

end RcControl.Server

namespace RcControl

open Lib Server

/-- The state of the server. -/
structure Server where
  clients : Registry String PeerId
  /-- How many peer connections each socket has had created. -/
  created : ConnId → ℕ
  /-- The operations that took effect on each peer connection. -/
  history : PeerId → List PcOp
  /-- The sockets whose disconnect has been reported. -/
  gone : List ConnId

namespace Server

def start : Server where
  clients := ∅
  created := fun _ => 0
  history := fun _ => []
  gone := []

/-- The shared pointer in `clients` is the only one that outlives a handler. -/
def alive (s : Server) (pc : PeerId) : Bool := s.clients.lookup id == some pc

/-- `createPeerConnection`. -/
def createPeerConnection (s : Server) (ws : ConnId) : PeerId × Server :=
  (⟨ws, s.created ws⟩, { s with created := Function.update s.created ws (s.created ws + 1) })

/-- A call of one of the operations that may throw, and then have no effect. -/
def perform (env : Env) (s : Server) (pc : PeerId) (o : PcOp) : Output × Server :=
  if env.accepts (s.history pc) o then
    ({ actions := [(pc, .op o)] },
      { s with history := Function.update s.history pc (s.history pc ++ [o]) })
  else ({ actions := [(pc, .op o)], threw := true }, s)

/-- `case call`. The peer connection is created first; `emplace` drops it again if the key is taken. -/
def onCall (s : Server) (con : ConnId) : Output × Server :=
  let (pc, s) := createPeerConnection s con
  ({ actions := if (s.clients.lookup id).isSome then [] else [(pc, .inserted)] },
    { s with clients := s.clients.emplace id pc })

/-- `case answer` and `case addIceCandidate`: look the client up, read the data, call. -/
def onOperation (env : Env) (s : Server) (o : Option PcOp) : Output × Server :=
  match s.clients.lookup id with
  | none => ({}, s)
  | some pc =>
    match o with
    | none => ({ threw := true }, s)
    | some o => perform env s pc o

/-- `case hangup`. -/
def onHangup (s : Server) : Output × Server :=
  match s.clients.lookup id with
  | none => ({}, s)
  | some pc =>
    ({ actions := [(pc, .op .close), (pc, .removed)] },
      { s with
        history := Function.update s.history pc (s.history pc ++ [.close])
        clients := s.clients.erase id })

/-- The `switch` of `onData`. -/
def dispatch (env : Env) (s : Server) (con : ConnId) : Received → Except Fault (Output × Server)
  | .dropped threw => .ok ({ threw := threw }, s)
  | .undefined => .error .flowsOff
  | .signal .call _ _ => .ok (onCall s con)
  | .signal .answer type message => .ok (onOperation env s (descriptionOf env type message))
  | .signal .addIceCandidate _ message => .ok (onOperation env s (candidateOf env message))
  | .signal .hangup _ _ => .ok (onHangup s)

def onData (env : Env) (s : Server) (con : ConnId) (text : String) :
    Except Fault (Output × Server) := dispatch env s con (received env text)

def onDisconnect (s : Server) (con : ConnId) : Output × Server :=
  ({ sent := [(con, .object [("what", .string "hangup")])] }, { s with gone := con :: s.gone })

/-- The callback for state changes: what it would erase is commented out. -/
def onStateChange (s : Server) (_ : PeerId) (_ : PeerState) : Output × Server := ({}, s)

/-- The offer, once all candidates are in it. -/
def offer (env : Env) (type sdp : String) : Json :=
  .object [("what", .string type),
    ("data", .string (env.dump (.object [("type", .string type), ("sdp", .string sdp)])))]

/-- The callback for gathering, with the local description of that moment. The socket is the one of
the `call`, whatever has become of it. -/
def onGatheringStateChange (env : Env) (s : Server) (pc : PeerId) (state : GatheringState)
    (type sdp : String) : Output × Server :=
  match state with
  | .complete => if s.alive pc then ({ sent := [(pc.ws, offer env type sdp)] }, s) else ({}, s)
  | _ => ({}, s)

def step (env : Env) (s : Server) : Event → Except Fault (Output × Server)
  | .connect _ => .ok ({}, s)
  | .disconnect con => .ok (onDisconnect s con)
  | .data con text => onData env s con text
  | .stateChange pc state => .ok (onStateChange s pc state)
  | .gatheringStateChange pc state type sdp =>
    .ok (onGatheringStateChange env s pc state type sdp)

end Server

end RcControl
