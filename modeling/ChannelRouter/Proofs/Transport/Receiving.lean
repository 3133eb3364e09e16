import ChannelRouter.Proofs.Wire.Decoding
import ChannelRouter.Transport.FrameReader

/-!
# What a reader answers

A reader is asked for one frame after the other.  It gives out the frames at the
front of the stream in their order, and then always the same last answer.  Which
one that is depends on the bytes that are left alone, not on the pieces in which
the stream arrived.
-/

namespace ChannelRouter

namespace FrameReader

open ChannelRouter.Frame

variable {limit : Nat} {reader : FrameReader} {pieces : List (List UInt8)}
  {drained : Drained}

/-! ## One call -/

/-- The bytes that have not been given out, whether they have arrived or not. -/
def ahead (reader : FrameReader) (pieces : List (List UInt8)) : List UInt8 :=
  reader.buffer ++ pieces.flatten

theorem ahead_nil : reader.ahead [] = reader.buffer :=
  List.append_nil reader.buffer

theorem ahead_feed (piece : List UInt8) :
    (reader.feed piece).ahead pieces = reader.ahead (piece :: pieces) := by
  rw [ahead, ahead, feed, List.flatten_cons, List.append_assoc]

/--
What comes of asking for a frame of bytes after which nothing comes, and what is
left.
-/
def answer (limit : Nat) (bytes : List UInt8) :
    Except StreamError (Option Datagram) × List UInt8 :=
  match next limit bytes with
  | .error cause => (.error (.malformed cause), bytes)
  | .ok (some found) => (.ok (some found.body), found.rest)
  | .ok none => (if bytes.isEmpty then .ok none else .error .closed, bytes)

/-- It makes no difference how much of what is ahead has arrived. -/
theorem receive_closed (reader : FrameReader) (pieces : List (List UInt8)) :
    let receipt := reader.receive .closed pieces
    (receipt.result, receipt.reader.ahead receipt.pieces) =
        answer reader.limit (reader.ahead pieces) ∧
      receipt.reader.limit = reader.limit := by
  induction pieces generalizing reader with
  | nil =>
      rw [receive, answer, ahead_nil]
      rcases look : next reader.limit reader.buffer with cause | _ | found
      · exact ⟨congrArg _ ahead_nil, rfl⟩
      · exact ⟨congrArg _ ahead_nil, rfl⟩
      · exact ⟨congrArg _ ahead_nil, rfl⟩
  | cons piece rest ih =>
      rw [receive, answer]
      rcases look : next reader.limit reader.buffer with cause | _ | found
      · rw [show next reader.limit (reader.ahead (piece :: rest)) =
          .error cause from next_append_of_error look _]
        exact ⟨rfl, rfl⟩
      · -- One more piece is taken in, and what is ahead stays the same.
        rw [← answer, ← ahead_feed]
        exact ih (reader.feed piece)
      · rw [show next reader.limit (reader.ahead (piece :: rest)) =
          .ok (some ⟨found.body, found.rest ++ (piece :: rest).flatten⟩) from
            next_append_of_found look _]
        exact ⟨rfl, rfl⟩

/-! ## Call after call -/

/--
What is answered once all frames of a stream that is closed have been given out.
-/
def lastAnswer (drained : Drained) : Except StreamError (Option Datagram) :=
  match drained.refusal with
  | some cause => .error (.malformed cause)
  | none => if drained.rest.isEmpty then .ok none else .error .closed

/--
What the call after so many others answers, on a stream with these frames.
-/
def answerAfter (drained : Drained) (calls : Nat) :
    Except StreamError (Option Datagram) :=
  match drained.bodies[calls]? with
  | some body => .ok (some body)
  | none => lastAnswer drained

/-- The frames of a stream without the first. -/
def afterOne (drained : Drained) : Drained :=
  { drained with bodies := drained.bodies.tail }

theorem answerAfter_afterOne (drained : Drained) (calls : Nat) :
    answerAfter (afterOne drained) calls = answerAfter drained (calls + 1) := by
  rw [answerAfter, answerAfter, afterOne, List.getElem?_tail]
  rfl

theorem answer_of_drains {bytes : List UInt8}
    (drains : Drains limit bytes drained) :
    (answer limit bytes).1 = answerAfter drained 0 ∧
      Drains limit (answer limit bytes).2 (afterOne drained) := by
  cases drains with
  | starved starves =>
      rw [answer, starves]
      exact ⟨rfl, .starved starves⟩
  | refused refuses =>
      rw [answer, refuses]
      exact ⟨rfl, .refused refuses⟩
  | found finds others =>
      rw [answer, finds]
      exact ⟨rfl, others⟩

/--
A call gives out the first frame that is ahead, and the others stay ahead.
-/
theorem receive_of_drains
    (drains : Drains reader.limit (reader.ahead pieces) drained) :
    let receipt := reader.receive .closed pieces
    receipt.result = answerAfter drained 0 ∧
      Drains receipt.reader.limit (receipt.reader.ahead receipt.pieces)
        (afterOne drained) := by
  intro receipt
  rcases receive_closed reader pieces with ⟨answers, sameLimit⟩
  rcases answer_of_drains drains with ⟨first, others⟩
  rw [← answers] at first others
  refine ⟨first, ?_⟩
  rw [sameLimit]
  exact others

/-- The receipt of the call after so many others. -/
def receiptAfter (ending : StreamEnding) (reader : FrameReader)
    (pieces : List (List UInt8)) : Nat → Receipt
  | 0 => reader.receive ending pieces
  | calls + 1 =>
      let first := reader.receive ending pieces
      receiptAfter ending first.reader first.pieces calls

theorem result_receiptAfter
    (drains : Drains reader.limit (reader.ahead pieces) drained) (calls : Nat) :
    (receiptAfter .closed reader pieces calls).result =
      answerAfter drained calls := by
  induction calls generalizing reader pieces drained with
  | zero => exact (receive_of_drains drains).1
  | succ calls ih =>
      rw [receiptAfter, ← answerAfter_afterOne]
      exact ih (receive_of_drains drains).2

/-! ## All calls -/

theorem lastAnswer_ne_some (drained : Drained) (body : Datagram) :
    lastAnswer drained ≠ .ok (some body) := by
  rw [lastAnswer]
  split
  · exact nofun
  · split <;> exact nofun

/-- A frame is answered while there are frames. -/
theorem bodies_of_answerAfter_eq_some
    {body : Datagram} (answers : answerAfter drained 0 = .ok (some body)) :
    drained.bodies = body :: drained.bodies.tail := by
  rw [answerAfter] at answers
  cases bodies : drained.bodies with
  | nil =>
      rw [bodies] at answers
      exact absurd answers (lastAnswer_ne_some drained body)
  | cons front rest =>
      rw [bodies] at answers
      injection answers with isSome
      injection isSome with isBody
      rw [isBody, List.tail_cons]

/-- No frame is answered once there are none. -/
theorem bodies_of_answerAfter_ne_some
    (answers : ∀ body, answerAfter drained 0 ≠ .ok (some body)) :
    drained.bodies = [] ∧ answerAfter drained 0 = lastAnswer drained := by
  cases bodies : drained.bodies with
  | nil => exact ⟨rfl, by rw [answerAfter, bodies]; rfl⟩
  | cons front rest =>
      exact absurd (by rw [answerAfter, bodies]; rfl) (answers front)

/-- The failure that an answer is, if it is one. -/
def failure? : Except StreamError (Option Datagram) → Option StreamError
  | .ok _ => none
  | .error failure => some failure

theorem receiveAfter_closed
    (given : List Datagram)
    (drains : Drains reader.limit (reader.ahead pieces) drained) :
    receiveAfter .closed given reader pieces =
      (given.reverse ++ drained.bodies, failure? (lastAnswer drained)) := by
  fun_induction receiveAfter StreamEnding.closed given reader pieces
    generalizing drained with
  | case1 given reader pieces body reached coming receives ih =>
      rcases receive_of_drains drains with ⟨first, others⟩
      rw [receives] at first others
      rw [ih others, bodies_of_answerAfter_eq_some first.symm,
        List.reverse_cons, List.append_assoc]
      rfl
  | case2 given reader pieces reached coming receives =>
      have first := (receive_of_drains drains).1
      rw [receives] at first
      rcases bodies_of_answerAfter_ne_some
        (by rw [← first]; exact fun _ => nofun) with ⟨noMore, isLast⟩
      rw [noMore, ← isLast, ← first, List.append_nil]
      rfl
  | case3 given reader pieces failure reached coming receives =>
      have first := (receive_of_drains drains).1
      rw [receives] at first
      rcases bodies_of_answerAfter_ne_some
        (by rw [← first]; exact fun _ => nofun) with ⟨noMore, isLast⟩
      rw [noMore, ← isLast, ← first, List.append_nil]
      rfl

/-! ## The last answer -/

/-- The bytes are the beginning of an allowed frame, and not all of it. -/
def CutFrame (limit : Nat) (bytes : List UInt8) : Prop :=
  ∃ body missing, body.length ≤ min limit maxDatagramSize ∧ missing ≠ [] ∧
    bytes ++ missing = ofBody body

theorem next_of_cutFrame {bytes : List UInt8} (cut : CutFrame limit bytes) :
    next limit bytes = .ok none := by
  rcases cut with ⟨body, missing, allowed, some, isFrame⟩
  have whole := next_ofBody_append allowed []
  rw [List.append_nil, ← isFrame] at whole
  rcases look : next limit bytes with cause | _ | found
  · rw [next_append_of_error look] at whole
    cases whole
  · rfl
  · rw [next_append_of_found look] at whole
    injection whole with isSome
    injection isSome with isFound
    injection isFound with _ isNil
    exact absurd (List.append_eq_nil_iff.mp isNil).2 some

/--
Too few bytes with a whole count that is allowed are the beginning of a frame.
-/
theorem cutFrame_of_announced
    {bytes : List UInt8} {size : Nat} (announces : announced bytes = some size)
    (allowed : size ≤ min limit maxDatagramSize)
    (tooFew : bytes.length < countWidth + size) :
    CutFrame limit bytes := by
  rcases announced_eq_some_iff.mp announces with ⟨counted, isSize⟩
  have width : (bytes.take countWidth).length = countWidth := by
    rw [List.length_take]
    exact Nat.min_eq_left counted
  -- Any bytes may be missing; here they are zeros.
  let missing : List UInt8 :=
    List.replicate (countWidth + size - bytes.length) 0
  have length : (bytes.drop countWidth ++ missing).length = size := by
    rw [List.length_append, List.length_drop, List.length_replicate]
    omega
  refine ⟨bytes.drop countWidth ++ missing, missing, length ▸ allowed, ?_, ?_⟩
  · apply List.ne_nil_of_length_pos
    rw [List.length_replicate]
    omega
  · have count := Word.bytes_value (bytes.take countWidth)
    rw [width, isSize] at count
    rw [ofBody, length, count, ← List.append_assoc, List.take_append_drop]

/-- What the last answer is, by the bytes that are left. -/
structure LastAnswer
    (limit : Nat) (rest : List UInt8)
    (last : Except StreamError (Option Datagram)) : Prop where
  ended_iff : last = .ok none ↔ rest = []
  refused_iff : ∀ size, last = .error (.malformed (.frameTooLarge size)) ↔
    announced rest = some size ∧ min limit maxDatagramSize < size
  cut_iff : last = .error .closed ↔
    rest ≠ [] ∧ (rest.length < countWidth ∨ CutFrame limit rest)
  exhaustive : last = .ok none ∨
    (∃ size, last = .error (.malformed (.frameTooLarge size))) ∨
    last = .error .closed

theorem lastAnswer_of_waiting {rest : List UInt8}
    (starves : next limit rest = .ok none) :
    LastAnswer limit rest
      (if rest.isEmpty then .ok none else .error .closed) := by
  rcases next_eq_none_iff.mp starves with ⟨within, tooFew⟩
  cases rest with
  | nil => exact ⟨by simp, by simp [announced, countWidth], by simp, Or.inl rfl⟩
  | cons byte others =>
      refine ⟨by simp, ?_, ?_, Or.inr (Or.inr rfl)⟩
      · intro size
        simp only [List.isEmpty_cons, Bool.false_eq_true, if_false,
          Except.error.injEq, reduceCtorEq, false_iff, not_and, Nat.not_lt]
        exact within size
      · simp only [List.isEmpty_cons, Bool.false_eq_true, if_false,
          ne_eq, reduceCtorEq, not_false_eq_true, true_and, true_iff]
        cases announces : announced (byte :: others) with
        | none => exact Or.inl (announced_eq_none_iff.mp announces)
        | some size =>
            rw [wanted_of_announced announces] at tooFew
            exact Or.inr
              (cutFrame_of_announced announces (within size announces) tooFew)

theorem lastAnswer_of_refusing
    {rest : List UInt8} {cause : FormatError}
    (refuses : next limit rest = .error cause) :
    LastAnswer limit rest (.error (.malformed cause)) := by
  rcases next_eq_error_iff.mp refuses with ⟨size, announces, above, rfl⟩
  refine ⟨?_, ?_, ?_, Or.inr (Or.inl ⟨size, rfl⟩)⟩
  · simp only [reduceCtorEq, false_iff]
    rintro rfl
    cases announces
  · intro other
    simp only [Except.error.injEq, StreamError.malformed.injEq,
      FormatError.frameTooLarge.injEq, announces, Option.some.injEq]
    constructor
    · rintro rfl
      exact ⟨rfl, above⟩
    · exact And.left
  · simp only [Except.error.injEq, reduceCtorEq, false_iff, not_and,
      not_or, Nat.not_lt]
    intro _
    refine ⟨(announced_eq_some_iff.mp announces).1, ?_⟩
    intro cut
    rw [next_of_cutFrame cut] at refuses
    cases refuses

theorem lastAnswer_of_drains {bytes : List UInt8}
    (drains : Drains limit bytes drained) :
    LastAnswer limit drained.rest (lastAnswer drained) := by
  have look := drains.next_rest
  rw [lastAnswer]
  cases refusal : drained.refusal with
  | none =>
      rw [refusal] at look
      exact lastAnswer_of_waiting look
  | some cause =>
      rw [refusal] at look
      exact lastAnswer_of_refusing look

/-! ## Every stream -/

/--
Frames that are allowed and stand at the front of a stream are among those
drained from it.
-/
theorem prefix_of_drains
    {bytes rest : List UInt8} {bodies : List Datagram}
    (drains : Drains limit bytes drained)
    (allowed : ∀ body ∈ bodies, body.length ≤ min limit maxDatagramSize)
    (isStream : bodies.flatMap ofBody ++ rest = bytes) :
    bodies <+: drained.bodies := by
  subst isStream
  have whole :=
    (drains_flatMap_ofBody allowed).append (drains_drain limit ([] ++ rest))
  rw [drains.eq_of_drains whole]
  exact List.prefix_append bodies _

/--
Whatever the bytes of a stream that is closed, and in whatever pieces they
arrive, a reader answers with the bodies of the longest run of whole allowed
frames at its front, one a call and in their order.  After them every call has
the same answer: the end of the stream if nothing is left, a refusal if a count
above the limit is left, and otherwise that the peer hung up inside a frame.
-/
theorem frames_and_then_the_last_answer (limit : Nat)
    (pieces : List (List UInt8)) : ∃ bodies rest last,
      bodies.flatMap ofBody ++ rest = pieces.flatten ∧
      (∀ body ∈ bodies, body.length ≤ min limit maxDatagramSize) ∧
      (∀ others left,
        (∀ body ∈ others, body.length ≤ min limit maxDatagramSize) →
        others.flatMap ofBody ++ left = pieces.flatten → others <+: bodies) ∧
      (∀ calls, (receiptAfter .closed (start limit) pieces calls).result =
        match bodies[calls]? with
        | some body => .ok (some body)
        | none => last) ∧
      (start limit).receiveAll .closed pieces = (bodies, failure? last) ∧
      LastAnswer limit rest last := by
  have drains : Drains (start limit).limit ((start limit).ahead pieces)
      (drain limit pieces.flatten) := drains_drain limit pieces.flatten
  exact ⟨(drain limit pieces.flatten).bodies, (drain limit pieces.flatten).rest,
    lastAnswer (drain limit pieces.flatten), drains.lossless, drains.allowed,
    fun _ _ => prefix_of_drains drains, result_receiptAfter drains,
    receiveAfter_closed [] drains, lastAnswer_of_drains drains⟩

/--
One frame, and then a count above the limit that is cut into pieces itself.
-/
theorem frames_and_then_the_last_answer_to_a_count_above_the_limit :
    let pieces : List (List UInt8) :=
      [[1, 0], [0, 0, 7, 3], [], [0, 0, 0, 1, 2]]
    let frames : List Datagram := [[7]]
    (∀ body ∈ frames, body.length ≤ min 2 maxDatagramSize) ∧
      frames.flatMap ofBody ++ [3, 0, 0, 0, 1, 2] = pieces.flatten ∧
      (receiptAfter .closed (start 2) pieces 0).result = .ok (some [7]) ∧
      ∃ rest, announced rest = some 3 ∧
        ∀ calls, (receiptAfter .closed (start 2) pieces (calls + 1)).result =
          .error (.malformed (.frameTooLarge 3)) := by
  intro pieces frames
  have allowed : ∀ body ∈ frames, body.length ≤
      min 2 maxDatagramSize := by decide
  have isStream : frames.flatMap ofBody ++ [3, 0, 0, 0, 1, 2] =
      pieces.flatten := by decide
  rcases frames_and_then_the_last_answer 2 pieces
    with ⟨bodies, rest, last, _, _, longest, answers, _, isLast⟩
  have second := answers 1
  have refused : (receiptAfter .closed (start 2) pieces 1).result =
      .error (.malformed (.frameTooLarge 3)) := rfl
  rcases longest frames _ allowed isStream with ⟨others, rfl⟩
  cases others with
  | cons front later =>
      rw [refused] at second
      cases second
  | nil =>
      have isRefusal : last = .error (.malformed (.frameTooLarge 3)) :=
        second.symm.trans refused
      exact ⟨allowed, isStream, answers 0, rest,
        ((isLast.refused_iff 3).mp isRefusal).1,
        fun calls => (answers (calls + 1)).trans isRefusal⟩

end FrameReader

end ChannelRouter
