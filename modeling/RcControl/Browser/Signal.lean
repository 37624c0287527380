import RcControl.Server.Message

/-!
# The page's end of a session

The object `signal` makes: a `WebSocket`, an `RTCPeerConnection` once the socket has opened, the
candidates that wait for a remote description, and the handlers. What a handler does outside the
object is its `Effect`. An exception ends the handler where it is thrown, and what the handler has
done by then stays done.

Not in the object: what the page shows and logs, and the handlers that only do that.
-/

namespace RcControl.Browser

open Server (Json)

/-- `WebSocket.readyState`. -/
inductive ReadyState where
  | connecting | open | closing | closed
  deriving DecidableEq

/-- What an `RTCIceCandidate` is made from; `none` is `undefined`. -/
structure Candidate where
  sdpMLineIndex : Option Json
  candidate : Option Json

/-- `event.candidate` of `onicecandidate`. -/
structure LocalCandidate where
  sdpMLineIndex : ℕ
  sdpMid : String
  candidate : String

/-- The part of the language and of WebRTC that the handlers call. -/
structure Env where
  /-- `JSON.parse`; `none` is an exception. -/
  parse : String → Option Json
  /-- `JSON.stringify`. -/
  stringify : Json → String
  /-- The conversion to a string; `none` is `undefined`. -/
  text : Option Json → String
  /-- `new RTCSessionDescription` does not throw. -/
  description : Json → Bool
  /-- `new RTCIceCandidate` does not throw. -/
  candidate : Candidate → Bool
  /-- The literal stands for zero. -/
  isZero : String → Bool
  /-- What indexing up to `length` gives for a value that is neither `null` nor an array. -/
  indexed : Json → List (Option Json)

/-- An `RTCPeerConnection`. -/
structure Peer where
  closed : Bool
  /-- `setLocalDescription` was called. -/
  hasLocalDesc : Bool
  /-- The arguments of `addIceCandidate`, in order. -/
  added : List Candidate

def Peer.new : Peer := ⟨false, false, []⟩

/-- What a handler does outside. -/
structure Effect where
  /-- What went into the socket. -/
  sent : List Json := []
  /-- `onClose` was called. -/
  onClose : Bool := false
  threw : Bool := false

/-- The variables of `signal`, the state of the socket, and the peer connection whether or not `pc`
still refers to it. -/
structure Signal where
  readyState : ReadyState
  /-- `ws` is not `null`. -/
  ws : Bool
  /-- `pc` is neither `undefined` nor `null`. -/
  pc : Bool
  peer : Option Peer
  iceCandidates : List Candidate
  hasRemoteDesc : Bool
  /-- The calls of `setRemoteDescription` that have not called back. -/
  settingRemote : ℕ
  /-- The calls of `createAnswer` that have not called back. -/
  creatingAnswer : ℕ

/-- `new signal(..)`. -/
def Signal.new : Signal where
  readyState := .connecting
  ws := true
  pc := false
  peer := none
  iceCandidates := []
  hasRemoteDesc := false
  settingRemote := 0
  creatingAnswer := 0

/-- Property access; `none` is an exception, `some none` is `undefined`. -/
def property : Json → String → Option (Option Json)
  | .null, _ => none
  | .object fields, key => some (fields.lookup key)
  | _, _ => some none

/-! ### What is sent -/

def callRequest : Json :=
  .object [("what", .string "call"),
    ("options", .object [("force_hw_vcodec", .boolean true), ("vformat", .number "30"),
      ("trickle_ice", .boolean true)])]

def hangupRequest : Json := .object [("what", .string "hangup")]

def answerRequest (js : Env) (sessionDescription : Json) : Json :=
  .object [("what", .string "answer"), ("data", .string (js.stringify sessionDescription))]

def candidateRequest (js : Env) (c : LocalCandidate) : Json :=
  .object [("what", .string "addIceCandidate"),
    ("data", .string (js.stringify (.object [("sdpMLineIndex", .number (toString c.sdpMLineIndex)),
      ("sdpMid", .string c.sdpMid), ("candidate", .string c.candidate)])))]

namespace Signal

/-- `ws.send`. A socket that is closing or closed drops what it is given. -/
def wsSend (g : Signal) (request : Json) : Effect :=
  if g.ws then
    match g.readyState with
    | .connecting => { threw := true }
    | .open => { sent := [request] }
    | .closing | .closed => {}
  else { threw := true }

/-- `ws.close()`. -/
def wsClose (g : Signal) : Effect × Signal :=
  if g.ws then
    match g.readyState with
    | .connecting | .open => ({}, { g with readyState := .closing })
    | .closing | .closed => ({}, g)
  else ({ threw := true }, g)

def updatePeer (g : Signal) (f : Peer → Peer) : Signal := { g with peer := g.peer.map f }

/-- `addIceCandidates`. -/
def addIceCandidates (g : Signal) : Effect × Signal :=
  if g.hasRemoteDesc then
    if g.iceCandidates = [] then ({}, g)
    else if g.pc then
      ({}, { g.updatePeer fun p => { p with added := p.added ++ g.iceCandidates } with
        iceCandidates := [] })
    else ({ threw := true }, g)
  else ({}, g)

/-! ### The handlers -/

/-- `ws.onopen`. -/
def onopen (g : Signal) : Effect × Signal :=
  let g := { g with
    readyState := .open, pc := true, peer := some .new, iceCandidates := [], hasRemoteDesc := false }
  (g.wsSend callRequest, g)

/-- `pc.onicecandidate`; `none` is the end of the candidates. -/
def onicecandidate (js : Env) (g : Signal) : Option LocalCandidate → Effect × Signal
  | none => ({}, g)
  | some c => if c.candidate = "" then ({}, g) else (g.wsSend (candidateRequest js c), g)

/-- `case "offer"`. -/
def onOffer (js : Env) (g : Signal) (data : Option Json) : Effect × Signal :=
  if g.pc then
    match js.parse (js.text data) with
    | none => ({ threw := true }, g)
    | some description =>
      if js.description description then ({}, { g with settingRemote := g.settingRemote + 1 })
      else ({ threw := true }, g)
  else ({ threw := true }, g)

/-- `new RTCIceCandidate({sdpMLineIndex: elt.sdpMLineIndex, candidate: elt.candidate})`. -/
def newCandidate (js : Env) (elt : Option Json) : Option Candidate :=
  match elt.bind (property · "sdpMLineIndex"), elt.bind (property · "candidate") with
  | some sdpMLineIndex, some candidate =>
    if js.candidate ⟨sdpMLineIndex, candidate⟩ then some ⟨sdpMLineIndex, candidate⟩ else none
  | _, _ => none

/-- What `!` turns into `false`. -/
def truthy (js : Env) : Option Json → Bool
  | none | some .null | some (.boolean false) => false
  | some (.number literal) => !js.isZero literal
  | some (.string s) => s != ""
  | some _ => true

/-- `case "iceCandidate"`. -/
def onIceCandidate (js : Env) (g : Signal) (data : Option Json) : Effect × Signal :=
  if truthy js data then
    match (js.parse (js.text data)).bind fun elt => newCandidate js (some elt) with
    | none => ({ threw := true }, g)
    | some candidate => addIceCandidates { g with iceCandidates := g.iceCandidates ++ [candidate] }
  else ({}, g)

/-- The loop of `case "iceCandidates"`; it stops at the first exception. -/
def pushCandidates (js : Env) (g : Signal) : List (Option Json) → Effect × Signal
  | [] => addIceCandidates g
  | elt :: elts =>
    match newCandidate js elt with
    | none => ({ threw := true }, g)
    | some candidate =>
      pushCandidates js { g with iceCandidates := g.iceCandidates ++ [candidate] } elts

/-- `case "iceCandidates"`. -/
def onIceCandidates (js : Env) (g : Signal) (data : Option Json) : Effect × Signal :=
  match js.parse (js.text data) with
  | none | some .null => ({ threw := true }, g)
  | some (.array candidates) => pushCandidates js g (candidates.map some)
  | some candidates => pushCandidates js g (js.indexed candidates)

/-- `ws.onmessage`, with the message parsed. -/
def onmessage (js : Env) (g : Signal) (msg : Json) : Effect × Signal :=
  match property msg "what", property msg "data" with
  | some (some (.string "offer")), some data => onOffer js g data
  | some (some (.string "iceCandidate")), some data => onIceCandidate js g data
  | some (some (.string "iceCandidates")), some data => onIceCandidates js g data
  | some _, some _ => ({}, g)
  | _, _ => ({ threw := true }, g)

/-- `onRemoteSdpSuccess`. -/
def onRemoteSdpSuccess (g : Signal) : Effect × Signal :=
  let (effect, g) := addIceCandidates { g with hasRemoteDesc := true }
  if effect.threw then (effect, g)
  else if g.pc then ({}, { g with creatingAnswer := g.creatingAnswer + 1 })
  else ({ threw := true }, g)

/-- `onRemoteSdpError`. -/
def onRemoteSdpError (g : Signal) : Effect × Signal := wsClose g

/-- The callbacks of `createAnswer`; `none` is the failure, which is only logged. -/
def onAnswer (js : Env) (g : Signal) : Option Json → Effect × Signal
  | none => ({}, g)
  | some sessionDescription =>
    if g.pc then
      let g := g.updatePeer fun p => { p with hasLocalDesc := true }
      (g.wsSend (answerRequest js sessionDescription), g)
    else ({ threw := true }, g)

/-- `ws.onclose`. -/
def onclose (g : Signal) : Effect × Signal :=
  let g := { g with readyState := .closed }
  ({ onClose := true },
    if g.pc then { g.updatePeer fun p => { p with closed := true } with pc := false, ws := false }
    else g)

/-- `this.hangup`. -/
def hangup (g : Signal) : Effect × Signal :=
  if g.ws then (g.wsSend hangupRequest, g) else ({}, g)

end Signal

end RcControl.Browser
