import RcControl.Mmal.Buffer
import Mathlib.Logic.Function.Basic

/-!
# `FrameBuffer` and `FrameQueue`

The queue between the encoder and the streamer, with its buffers as they are in C++: pointers into
a heap of live `FrameBuffer`s, moved between three containers and overwritten in place. A pointer is
a number that is never given out twice; `delete` takes it out of the heap. What the C++ standard
leaves undefined is a `Fault`, and a call that runs into one has no result.
-/

namespace RcControl.FrameQueue

open Mmal

/-- What the code can do that C++ leaves undefined. -/
inductive Fault where
  /-- `pop_front` on an empty deque. -/
  | popFront
  /-- A use of a `FrameBuffer` that is not live. -/
  | useAfterFree
  /-- A `delete` of a `FrameBuffer` that is not live. -/
  | doubleFree
  /-- A `memcpy` past the end of the block. -/
  | overflow
  deriving DecidableEq, Repr

/-- What the queue takes from the machine it runs on. -/
structure Platform where
  /-- `size_t` is arithmetic modulo this number; `0` is arithmetic without a bound. -/
  sizeMod : ℕ
  /-- The bytes `malloc` leaves in the block of a new buffer. -/
  malloc : ℕ → ℕ → UInt8

/-- A sum of two `size_t`s. -/
def Platform.add (pf : Platform) (m n : ℕ) : ℕ := (m + n) % pf.sizeMod

/-! ### Flags -/

def kFrameFlagEOS : ℕ := 0
def kFrameFlagStart : ℕ := 1
def kFrameFlagEnd : ℕ := 2
def kFrameFlagKeyFrame : ℕ := 3
def kFrameFlagConfig : ℕ := 5
def kFrameFlagIdeInfo : ℕ := 7

/-- `std::bitset<kFrameBufferFlagSize>`. -/
abbrev Flags := BitVec 8

/-- `flags_ = buffer->flags`: the constructor of the bitset keeps the low bits. -/
def Flags.ofHeader (x : BufferHeader) : Flags := x.flags.setWidth 8

/-! ### Buffers -/

/-- `FrameBuffer`. -/
structure FrameBuffer where
  temporary : Bool
  flags : Flags
  data : List UInt8
  length : ℕ
  capacity : ℕ
  block : data.length = capacity

namespace FrameBuffer

/-- `FrameBuffer(capacity, temporary)`, the block being what `malloc` found. -/
def new (junk : ℕ → UInt8) (capacity : ℕ) (temporary : Bool) : FrameBuffer where
  temporary := temporary
  flags := 0
  data := (List.range capacity).map junk
  length := 0
  capacity := capacity
  block := by simp

def isKeyFrame (b : FrameBuffer) : Bool := b.flags.getLsbD kFrameFlagKeyFrame
def isFrame (b : FrameBuffer) : Bool :=
  b.flags.getLsbD kFrameFlagStart && b.flags.getLsbD kFrameFlagEnd
def isFrameEnd (b : FrameBuffer) : Bool := b.flags.getLsbD kFrameFlagEnd
def isMotionVector (b : FrameBuffer) : Bool := b.flags.getLsbD kFrameFlagIdeInfo
def isConfig (b : FrameBuffer) : Bool := b.flags.getLsbD kFrameFlagConfig
def isEOS (b : FrameBuffer) : Bool := b.flags.getLsbD kFrameFlagEOS
def isTemporary (b : FrameBuffer) : Bool := b.temporary

def reset (b : FrameBuffer) : FrameBuffer := { b with flags := 0, length := 0 }

/-- `std::memcpy(data_ + off, src, n)` for the `n` bytes of `src`. -/
def memcpy (b : FrameBuffer) (off : ℕ) (src : List UInt8) : Except Fault FrameBuffer :=
  if h : off + src.length ≤ b.capacity then
    .ok { b with
      data := b.data.take off ++ src ++ b.data.drop (off + src.length)
      block := by simp only [List.length_append, List.length_take, List.length_drop, b.block]; omega }
  else .error .overflow

def copy (b : FrameBuffer) (x : BufferHeader) : Except Fault FrameBuffer :=
  match { b with flags := Flags.ofHeader x }.memcpy 0 x.payload with
  | .error f => .error f
  | .ok b' => .ok { b' with length := x.length }

def append (pf : Platform) (b : FrameBuffer) (x : BufferHeader) : Except Fault FrameBuffer :=
  match { b with flags := Flags.ofHeader x }.memcpy b.length x.payload with
  | .error f => .error f
  | .ok b' => .ok { b' with length := pf.add b.length x.length }

/-- What a reader sees of a buffer: its flags and the bytes in use. -/
def content (b : FrameBuffer) : Flags × List UInt8 := (b.flags, b.data.take b.length)

end FrameBuffer

/-! ### The queue -/

/-- The live `FrameBuffer`s. -/
abbrev Heap := ℕ → Option FrameBuffer

/-- `delete` on each pointer of a list. -/
def deleteAll (heap : Heap) : List ℕ → Except Fault Heap
  | [] => .ok heap
  | p :: ps =>
    match heap p with
    | none => .error .doubleFree
    | some _ => deleteAll (Function.update heap p none) ps

end RcControl.FrameQueue

namespace RcControl

/-- `FrameQueue`, with the heap its pointers point into. -/
structure FrameQueue where
  inited : Bool
  capacity : ℕ
  bufferSize : ℕ
  encodedFrameQueue : List ℕ
  freeList : List ℕ
  pending : List ℕ
  heap : FrameQueue.Heap
  /-- The next pointer `new` gives out. -/
  next : ℕ

namespace FrameQueue

open Mmal

/-- `FrameQueue()`: three empty containers, and in the plain members whatever was in memory. -/
def construct (inited : Bool) (capacity bufferSize : ℕ) : FrameQueue where
  inited := inited
  capacity := capacity
  bufferSize := bufferSize
  encodedFrameQueue := []
  freeList := []
  pending := []
  heap := fun _ => none
  next := 0

/-- `new FrameBuffer(_buffer_size, temporary)`. -/
def newBuffer (pf : Platform) (s : FrameQueue) (temporary : Bool) : ℕ × FrameQueue :=
  (s.next, { s with
    heap := Function.update s.heap s.next
      (some (FrameBuffer.new (pf.malloc s.next) s.bufferSize temporary))
    next := s.next + 1 })

def destroy (s : FrameQueue) : Except Fault FrameQueue :=
  match deleteAll s.heap (s.pending ++ s.freeList ++ s.encodedFrameQueue) with
  | .error f => .error f
  | .ok heap => .ok { s with heap := heap, pending := [], freeList := [], encodedFrameQueue := [] }

/-- The loop of `init`: `n` new permanent buffers at the back of the free list. -/
def fillFreeList (pf : Platform) : ℕ → FrameQueue → FrameQueue
  | 0, s => s
  | n + 1, s =>
    let (p, s) := newBuffer pf s false
    fillFreeList pf n { s with freeList := s.freeList ++ [p] }

/-- `FrameQueue(capacity, buffer_size)`. It assigns no member, so its loop runs to what was in memory for
`_capacity`, with slots of what was there for `_buffer_size`. -/
def constructWith (pf : Platform) (inited : Bool) (memCapacity memBufferSize : ℕ)
    (_capacity _bufferSize : ℕ) : FrameQueue :=
  fillFreeList pf memCapacity (construct inited memCapacity memBufferSize)

def init (pf : Platform) (capacity bufferSize : ℕ) (s : FrameQueue) : Except Fault FrameQueue :=
  match destroy { s with capacity := capacity, bufferSize := bufferSize, inited := true } with
  | .error f => .error f
  | .ok s => .ok (fillFreeList pf capacity s)

def clear (s : FrameQueue) : FrameQueue :=
  { s with freeList := s.freeList ++ s.encodedFrameQueue, encodedFrameQueue := [] }

def size (s : FrameQueue) : ℕ := s.encodedFrameQueue.length

/-- `read_front`; `none` is the null pointer. -/
def readFront (s : FrameQueue) : Option ℕ × FrameQueue :=
  match s.encodedFrameQueue with
  | [] => (none, s)
  | p :: rest => (some p, { s with encodedFrameQueue := rest, freeList := s.freeList ++ [p] })

/-- The loop of `write_back` that deletes the temporary buffers at the front of the free list. -/
def drainTemporaries (heap : Heap) : List ℕ → Except Fault (Heap × List ℕ)
  | [] => .ok (heap, [])
  | p :: rest =>
    match heap p with
    | none => .error .useAfterFree
    | some b =>
      if b.isTemporary then drainTemporaries (Function.update heap p none) rest
      else .ok (heap, p :: rest)

/-- The buffer for a new frame: a new temporary one if the free list is empty, otherwise the front of
the free list once its leading temporary buffers are deleted. The loop leaves `buffer` at the front
it stopped at; the `pop_front` after it does not ask whether there is one. -/
def takeBuffer (pf : Platform) (s : FrameQueue) : Except Fault (ℕ × FrameQueue) :=
  match s.freeList with
  | [] => .ok (newBuffer pf s true)
  | p :: rest =>
    match drainTemporaries s.heap (p :: rest) with
    | .error f => .error f
    | .ok (_, []) => .error .popFront
    | .ok (heap, buffer :: rest) => .ok (buffer, { s with heap := heap, freeList := rest })

/-- The part of `write_back` for a fragment that starts a new frame. -/
def startFrame (pf : Platform) (s : FrameQueue) (x : BufferHeader) : Except Fault (Bool × FrameQueue) :=
  match takeBuffer pf s with
  | .error f => .error f
  | .ok (p, s) =>
    match s.heap p with
    | none => .error .useAfterFree
    | some b =>
      match b.reset.copy x with
      | .error f => .error f
      | .ok b =>
        let s := { s with heap := Function.update s.heap p (some b) }
        if b.isConfig then .ok (true, { s with pending := s.pending ++ [p] })
        else .ok (true, { s with encodedFrameQueue := s.encodedFrameQueue ++ [p] })

/-- The part of `write_back` for a fragment that meets a pending frame, `front` being the front of
`_pending` and `back` its back. -/
def extendFrame (pf : Platform) (s : FrameQueue) (x : BufferHeader) (front back : ℕ) :
    Except Fault (Bool × FrameQueue) :=
  match s.heap back with
  | none => .error .useAfterFree
  | some b =>
    if s.bufferSize < pf.add b.length x.length then
      .ok (false, { s with freeList := s.freeList ++ [front], pending := [] })
    else
      match b.append pf x with
      | .error f => .error f
      | .ok b =>
        let s := { s with heap := Function.update s.heap back (some b) }
        if b.isFrameEnd then
          .ok (true, { s with
            pending := s.pending.dropLast
            encodedFrameQueue := s.encodedFrameQueue ++ [back] })
        else .ok (true, s)

/-- `write_back`; `none` is the null pointer. -/
def writeBack (pf : Platform) (s : FrameQueue) (mmalFrame : Option BufferHeader) :
    Except Fault (Bool × FrameQueue) :=
  match mmalFrame with
  | none => .ok (false, s)
  | some x =>
    if !s.inited then .ok (false, s)
    else if x.length = 0 ∧ x.flags = 0 then .ok (true, s)
    else if s.bufferSize < x.length then .ok (false, s)
    else
      match s.pending with
      | [] => startFrame pf s x
      | p :: ps => extendFrame pf s x p ((p :: ps).getLast (List.cons_ne_nil p ps))

/-! ### Calls -/

/-- A call on the queue. -/
inductive Call where
  | writeBack (mmalFrame : Option BufferHeader)
  | readFront
  | clear
  | size

/-- What a call gives back: of a frame handed out, its flags and bytes at that moment. -/
inductive Result where
  | written (accepted : Bool)
  | frame (content : Option (Flags × List UInt8))
  | cleared
  | size (n : ℕ)
  deriving DecidableEq

/-- One call. The caller looks at the frame `read_front` returns. -/
def step (pf : Platform) (s : FrameQueue) : Call → Except Fault (Result × FrameQueue)
  | .writeBack x =>
    match writeBack pf s x with
    | .error f => .error f
    | .ok (r, s') => .ok (.written r, s')
  | .readFront =>
    match readFront s with
    | (none, s') => .ok (.frame none, s')
    | (some p, s') =>
      match s'.heap p with
      | none => .error .useAfterFree
      | some b => .ok (.frame (some b.content), s')
  | .clear => .ok (.cleared, s.clear)
  | .size => .ok (.size s.size, s)

end FrameQueue

end RcControl
