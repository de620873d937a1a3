import CEmbeddedUtils.ErrorCodes
import CEmbeddedUtils.TransducerProofs

/-! # What the byte buffers are for — a FIFO that overwrites

    Both circular buffers offer the same three calls and mean the same thing: a
    queue of bytes that, when full, drops its oldest byte to take a new one.
    This file says so once; each buffer is shown to refine it. -/

namespace CembByteBuffer

open Transducer

/-- The calls a client makes between init and deinit. -/
inductive ByteBufferOp where
  | pushByte (byte : UInt8)
  | popByte
  | getCount

/-- What a call answers; a pop stores its byte only when it succeeds. -/
inductive ByteBufferResponse where
  | pushed (code : ErrorCode)
  | popped (code : ErrorCode) (byte : Option UInt8)
  | counted (count : Nat)
  deriving DecidableEq

/-- A queue of at most `size` bytes, the oldest first. -/
def overwritingFifo (size : Nat) : Spec (List UInt8) ByteBufferOp ByteBufferResponse
  | held, .pushByte byte =>
      (.pushed .errNone, (if held.length = size then held.tail else held) ++ [byte])
  | [], .popByte => (.popped .errEmpty none, [])
  | oldest :: held, .popByte => (.popped .errNone (some oldest), held)
  | held, .getCount => (.counted held.length, held)

end CembByteBuffer
