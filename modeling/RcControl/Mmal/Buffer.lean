import Mathlib.Data.List.Basic

/-!
# MMAL buffer headers

The part of `MMAL_BUFFER_HEADER_T` the program reads: the command word, the payload block with the
number of its bytes in use, the flags and the decode time. The payload starts at `data` (the program
never adds `offset`), and `alloc_size` is the length of the block.
-/

namespace RcControl.Mmal

/-- `MMAL_BUFFER_HEADER_T`. -/
structure BufferHeader where
  /-- `0` for stream data, otherwise the code of an event. -/
  cmd : BitVec 32
  /-- The payload block, `alloc_size` bytes long. -/
  data : List UInt8
  /-- The bytes of the block in use. -/
  length : ℕ
  flags : BitVec 32
  /-- Decode time in microseconds. -/
  dts : BitVec 64
  length_le : length ≤ data.length
  length_lt : length < UInt32.size
  deriving DecidableEq

/-- The bytes in use. -/
def BufferHeader.payload (x : BufferHeader) : List UInt8 := x.data.take x.length

@[simp] theorem BufferHeader.length_payload (x : BufferHeader) : x.payload.length = x.length := by
  simp [payload, x.length_le]

end RcControl.Mmal
