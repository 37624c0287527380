import Mathlib.Data.List.Basic

/-!
# What a text message says

The part of `onData` that looks at the text alone: `json::parse`, the field `what`, and the fields a
signal carries. `none` stands for an exception. The parser and the constructors of libdatachannel
that read a text of their own are parameters (`Env`).
-/

namespace RcControl.Server

/-- A `json` value. -/
inductive Json where
  | null
  | boolean (b : Bool)
  | number (literal : String)
  | string (s : String)
  | array (elements : List Json)
  | object (fields : List (String × Json))

namespace Json

/-- `message.find(key)`; `none` is `end()`, which is also what a value that is no object returns. -/
def find? : Json → String → Option Json
  | object fields, key => fields.lookup key
  | _, _ => none

/-- `message[key]`: a key that is missing is put there with `null`, and `null` is an empty object. -/
def index : Json → String → Option Json
  | null, _ => some null
  | object fields, key => some ((fields.lookup key).getD null)
  | _, _ => none

/-- `get<string>()`. -/
def getString : Json → Option String
  | string s => some s
  | _ => none

end Json

/-- What an operation on a peer connection is called with. -/
inductive PcOp where
  | setRemoteDescription (sdp type : String)
  | addRemoteCandidate (candidate mid : String)
  | close
  deriving DecidableEq

/-- What the handlers call and this repository does not contain. -/
structure Env where
  /-- `json::parse`. -/
  parse : String → Option Json
  /-- `json::dump`. -/
  dump : Json → String
  /-- `rtc::Description(sdp, type)` does not throw. -/
  description : String → String → Bool
  /-- `rtc::Candidate(candidate, mid)` does not throw. -/
  candidate : String → String → Bool
  /-- A peer connection on which these operations took effect does not throw at the next. -/
  accepts : List PcOp → PcOp → Bool

inductive SignalType where
  | call | answer | addIceCandidate | hangup
  deriving DecidableEq

/-- `getType`; `none` is control flowing off the end of the function. -/
def getType (s : String) : Option SignalType :=
  if s = "call" then some .call
  else if s = "answer" then some .answer
  else if s = "addIceCandidate" then some .addIceCandidate
  else if s = "hangup" then some .hangup
  else none

/-- What `onData` has in hand when it comes to its `switch`. -/
inductive Received where
  /-- It does not come there: it returns, or an exception leaves it. -/
  | dropped (threw : Bool)
  /-- `getType` has no value to return. -/
  | undefined
  | signal (t : SignalType) (type : String) (message : Json)

/-- `onData` from the parsed text to its `switch`. -/
def readMessage (message : Json) : Received :=
  match message.find? "what" with
  | none => .dropped false
  | some what =>
    match what.getString with
    | none => .dropped true
    | some type =>
      match getType type with
      | none => .undefined
      | some t => .signal t type message

/-- `onData` up to its `switch`. -/
def received (env : Env) (data : String) : Received :=
  match env.parse data with
  | none => .dropped true
  | some message => readMessage message

/-- `message["data"].get<string>()`, parsed. -/
def dataOf (env : Env) (message : Json) : Option Json :=
  match message.index "data" with
  | none => none
  | some data =>
    match data.getString with
    | none => none
    | some text => env.parse text

/-- The description an `answer` is about. -/
def descriptionOf (env : Env) (type : String) (message : Json) : Option PcOp :=
  match dataOf env message with
  | none => none
  | some sdp_obj =>
    match (sdp_obj.index "sdp").bind Json.getString with
    | none => none
    | some sdp => if env.description sdp type then some (.setRemoteDescription sdp type) else none

/-- The candidate an `addIceCandidate` is about. -/
def candidateOf (env : Env) (message : Json) : Option PcOp :=
  match dataOf env message with
  | none => none
  | some data =>
    match (data.index "sdpMid").bind Json.getString with
    | none => none
    | some mid =>
      match (data.index "candidate").bind Json.getString with
      | none => none
      | some candidate =>
        if env.candidate candidate mid then some (.addRemoteCandidate candidate mid) else none

/-- What was received asks for an operation on a peer connection, and says all the operation needs. -/
def Received.operates (env : Env) : Received → Bool
  | .signal .answer type message => (descriptionOf env type message).isSome
  | .signal .addIceCandidate _ message => (candidateOf env message).isSome
  | .signal .hangup _ _ => true
  | _ => false

def Received.isCall : Received → Bool
  | .signal .call _ _ => true
  | _ => false

def Received.isHangup : Received → Bool
  | .signal .hangup _ _ => true
  | _ => false

/-- The same of a text. -/
def operates (env : Env) (text : String) : Bool := (received env text).operates env

def isCall (env : Env) (text : String) : Bool := (received env text).isCall

def isHangup (env : Env) (text : String) : Bool := (received env text).isHangup

end RcControl.Server
