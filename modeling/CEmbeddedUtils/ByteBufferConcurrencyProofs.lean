import CEmbeddedUtils.ByteBufferProofs

/-! # A byte buffer between a main loop and an interrupt

    The main loop makes calls, and any of them may be interrupted by a complete
    call of the other side: a push inside a pop, or a pop inside a push.  Such a
    pair is IN ORDER when the FIFO gives the same answers, and holds the same
    bytes afterwards, for the two calls one after the other; a run is LINEARIZED
    by plain calls in which every interrupt comes before or after the call that
    it came in.

    A buffer whose operations are linearized one by one is linearized over every
    run (`linearizes_run`). -/

namespace CembByteBuffer

open Transducer

/-- Which of the two calls comes inside the other. -/
inductive Inside where
  | pushInPop
  | popInPush

/-- What the main loop does: a call, or one that is interrupted by the other after
    `k` statements; the byte is the one pushed. -/
inductive ConcurrentOp where
  | call (op : ByteBufferOp)
  | interrupted (inside : Inside) (k : Nat) (byte : UInt8)

/-- What is returned, by the call or by both. -/
inductive ConcurrentResponse where
  | answered (response : ByteBufferResponse)
  | both (popped pushed : ByteBufferResponse)

/-- What the main loop did and got is what these calls, one after the other, do
    and get. -/
inductive LinearizesOp : ConcurrentOp → ConcurrentResponse → List ByteBufferOp →
    List ByteBufferResponse → Prop where
  | call (op : ByteBufferOp) (response : ByteBufferResponse) :
      LinearizesOp (.call op) (.answered response) [op] [response]
  | pushFirst (inside : Inside) (k : Nat) (byte : UInt8) (popped pushed : ByteBufferResponse) :
      LinearizesOp (.interrupted inside k byte) (.both popped pushed)
        [.pushByte byte, .popByte] [pushed, popped]
  | popFirst (inside : Inside) (k : Nat) (byte : UInt8) (popped pushed : ByteBufferResponse) :
      LinearizesOp (.interrupted inside k byte) (.both popped pushed)
        [.popByte, .pushByte byte] [popped, pushed]

/-- A run is linearized operation by operation. -/
inductive Linearizes : List ConcurrentOp → List ConcurrentResponse → List ByteBufferOp →
    List ByteBufferResponse → Prop where
  | nil : Linearizes [] [] [] []
  | cons {op : ConcurrentOp} {response : ConcurrentResponse} {ops : List ConcurrentOp}
      {responses : List ConcurrentResponse} {calls calls' : List ByteBufferOp}
      {answers answers' : List ByteBufferResponse}
      (first : LinearizesOp op response calls answers)
      (rest : Linearizes ops responses calls' answers') :
      Linearizes (op :: ops) (response :: responses) (calls ++ calls') (answers ++ answers')

/-- What the pop answers, what the push answers, and the bytes afterwards. -/
abbrev PairOutcome := ByteBufferResponse × ByteBufferResponse × List UInt8

/-- The FIFO that holds `held` does the same for one of the two orders. -/
def InOrder (size : Nat) (held : List UInt8) (byte : UInt8) (outcome : PairOutcome) : Prop :=
  runSpec (overwritingFifo size) held [.pushByte byte, .popByte]
      = ([outcome.2.1, outcome.1], outcome.2.2) ∨
    runSpec (overwritingFifo size) held [.popByte, .pushByte byte]
      = ([outcome.1, outcome.2.1], outcome.2.2)

/-- What a pop answers. -/
def popResponse : List UInt8 → ByteBufferResponse
  | [] => .popped .errEmpty none
  | oldest :: _ => .popped .errNone (some oldest)

/-- What a push leaves of the bytes held: on a full buffer, the oldest goes first. -/
def fifoPushed (size : Nat) (held : List UInt8) (byte : UInt8) : List UInt8 :=
  (if held.length = size then held.tail else held) ++ [byte]

section Pairs

variable {size : Nat} {held : List UInt8} {byte : UInt8}

theorem fifoPushed_of_room (hroom : held.length ≠ size) :
    fifoPushed size held byte = held ++ [byte] := by
  rw [fifoPushed, if_neg hroom]

theorem fifoPushed_of_full (hfull : held.length = size) :
    fifoPushed size held byte = held.tail ++ [byte] := by
  rw [fifoPushed, if_pos hfull]

theorem exists_cons_fifoPushed (size : Nat) (held : List UInt8) (byte : UInt8) :
    ∃ next rest, fifoPushed size held byte = next :: rest :=
  List.exists_cons_of_ne_nil (List.append_ne_nil_of_right_ne_nil _ (List.cons_ne_nil _ _))

theorem fifo_push (size : Nat) (held : List UInt8) (byte : UInt8) :
    overwritingFifo size held (.pushByte byte) = (.pushed .errNone, fifoPushed size held byte) := by
  cases held <;> rfl

theorem fifo_pop (size : Nat) (held : List UInt8) :
    overwritingFifo size held .popByte = (popResponse held, held.tail) := by
  cases held <;> rfl

/-- **THE TWO ORDERS**, on the bytes held. -/
theorem inOrder_iff {outcome : PairOutcome} :
    InOrder size held byte outcome ↔
      outcome = (popResponse (fifoPushed size held byte), .pushed .errNone,
          (fifoPushed size held byte).tail) ∨
        outcome = (popResponse held, .pushed .errNone, fifoPushed size held.tail byte) := by
  obtain ⟨popped, pushed, left⟩ := outcome
  rw [InOrder]
  simp only [runSpec, fifo_push, fifo_pop, Prod.mk.injEq, List.cons.injEq, and_true]
  constructor
  · rintro (⟨⟨rfl, rfl⟩, rfl⟩ | ⟨⟨rfl, rfl⟩, rfl⟩)
    · exact .inl ⟨rfl, rfl, rfl⟩
    · exact .inr ⟨rfl, rfl, rfl⟩
  · rintro (⟨rfl, rfl, rfl⟩ | ⟨rfl, rfl, rfl⟩)
    · exact .inl ⟨⟨rfl, rfl⟩, rfl⟩
    · exact .inr ⟨⟨rfl, rfl⟩, rfl⟩

/-- A pair in order is linearized. -/
theorem InOrder.linearizes {popped pushed : ByteBufferResponse} {left : List UInt8}
    (h : InOrder size held byte (popped, pushed, left)) (inside : Inside) (k : Nat) :
    ∃ calls answers, LinearizesOp (.interrupted inside k byte) (.both popped pushed) calls
        answers ∧
      runSpec (overwritingFifo size) held calls = (answers, left) := by
  rcases h with hpush | hpop
  · exact ⟨_, _, .pushFirst inside k byte popped pushed, hpush⟩
  · exact ⟨_, _, .popFirst inside k byte popped pushed, hpop⟩

end Pairs

/-- **EVERY RUN** is linearized if every operation is. -/
theorem linearizes_run {σ : Type} {size : Nat} {step : Step σ ConcurrentOp ConcurrentResponse}
    {R : σ → List UInt8 → Prop} {safe : σ → ConcurrentOp → Prop}
    (hop : ∀ s held op, R s held → safe s op → ∃ response s' calls answers held',
      step s op = some (response, s') ∧ LinearizesOp op response calls answers ∧
      runSpec (overwritingFifo size) held calls = (answers, held') ∧ R s' held')
    (ops : List ConcurrentOp) :
    ∀ {s : σ} {held : List UInt8}, R s held → Admits step safe s ops →
      ∃ responses s' calls answers held', run step s ops = some (responses, s') ∧
        Linearizes ops responses calls answers ∧
        runSpec (overwritingFifo size) held calls = (answers, held') ∧ R s' held' := by
  induction ops with
  | nil =>
      intro s held h _
      exact ⟨[], s, [], [], held, rfl, .nil, rfl, h⟩
  | cons op ops ih =>
      intro s held h hadmits
      obtain ⟨hsafe, hrest⟩ := hadmits
      obtain ⟨response, s₁, calls, answers, held₁, hstep, hlinear, hspec, h₁⟩ :=
        hop s held op h hsafe
      obtain ⟨responses, s', calls', answers', held', hrun, hlinear', hspec', h'⟩ :=
        ih h₁ (hrest response s₁ hstep)
      refine ⟨response :: responses, s', calls ++ calls', answers ++ answers', held', ?_,
        .cons hlinear hlinear', ?_, h'⟩
      · rw [run_cons hstep, hrun]
        rfl
      · rw [runSpec_append, hspec, hspec']

end CembByteBuffer
