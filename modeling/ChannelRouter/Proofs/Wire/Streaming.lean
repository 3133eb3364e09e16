import ChannelRouter.Proofs.Wire.Word
import ChannelRouter.Wire.Frame

/-!
# Frames of a stream in pieces

A stream arrives in pieces, and after each piece every frame that is complete is
taken from the buffer.  What has been taken, framed again, and what is left in
the buffer make up the stream, and only a frame that is incomplete or not
allowed is left.  There is only one way to divide the stream so; where it was
cut into pieces does not matter.
-/

namespace ChannelRouter

namespace Frame

variable {limit : Nat} {buffer : List UInt8}

/-! ## One frame -/

theorem encode_eq_ofBody {body : Datagram}
    (framable : body.length ≤ maxDatagramSize) :
    encode body = .ok (ofBody body) :=
  if_pos framable

/-- A count that has arrived does not change with what follows. -/
theorem announced_append
    {size : Nat} (announces : announced buffer = some size)
    (more : List UInt8) :
    announced (buffer ++ more) = some size := by
  rw [announced] at announces
  split at announces
  · rename_i whole
    have enough : countWidth ≤ buffer.length := by
      rw [List.length_take] at whole
      omega
    rw [announced, List.take_append_of_le_length enough,
      if_pos whole, announces]
  · cases announces

theorem announced_ofBody
    {body : Datagram} (allowed : body.length ≤ min limit maxDatagramSize) :
    announced (ofBody body) = some body.length := by
  have front : (ofBody body).take countWidth =
      Word.bytes countWidth body.length := by
    rw [ofBody, List.take_left' (Word.length_bytes countWidth body.length)]
  have counted : body.length < 256 ^ countWidth :=
    Nat.lt_of_le_of_lt (Nat.le_trans allowed (Nat.min_le_right _ _)) (by decide)
  rw [announced, front, if_pos (Word.length_bytes _ _), Word.value_bytes,
    Nat.mod_eq_of_lt counted]

/-- A frame that is allowed is found, whatever follows. -/
theorem next_ofBody_append
    {body : Datagram} (allowed : body.length ≤ min limit maxDatagramSize)
    (rest : List UInt8) :
    next limit (ofBody body ++ rest) = .ok (some ⟨body, rest⟩) := by
  have behind : (ofBody body ++ rest).drop countWidth = body ++ rest := by
    rw [ofBody, List.append_assoc,
      List.drop_left' (Word.length_bytes countWidth body.length)]
  rw [next, announced_append (announced_ofBody allowed) rest]
  simp only [behind, List.take_left, List.drop_left, if_pos allowed, if_true]

/-- A frame that is found is allowed and stands at the front of the buffer. -/
theorem eq_ofBody_append_of_next
    {found : Found} (finds : next limit buffer = .ok (some found)) :
    found.body.length ≤ min limit maxDatagramSize ∧
      buffer = ofBody found.body ++ found.rest := by
  rw [next] at finds
  cases announces : announced buffer with
  | none =>
      rw [announces] at finds
      cases finds
  | some size =>
      rw [announces] at finds
      simp only at finds
      split at finds
      · rename_i allowed
        split at finds
        · rename_i whole
          injection finds with isSome
          injection isSome with isFound
          subst isFound
          refine ⟨Nat.le_trans (Nat.le_of_eq whole) allowed, ?_⟩
          rw [announced] at announces
          split at announces
          · rename_i counted
            injection announces with isSize
            have count := Word.bytes_value (buffer.take countWidth)
            rw [counted, isSize] at count
            rw [ofBody, whole, count, List.append_assoc, List.take_append_drop,
              List.take_append_drop]
          · cases announces
        · cases finds
      · cases finds

theorem next_eq_error_iff {cause : FormatError} :
    next limit buffer = .error cause ↔
      ∃ size, announced buffer = some size ∧ min limit maxDatagramSize < size ∧
        cause = .frameTooLarge size := by
  rw [next]
  cases announced buffer with
  | none => simp
  | some size =>
      by_cases allowed : size ≤ min limit maxDatagramSize
      · have notAbove : ¬ min limit maxDatagramSize < size :=
          Nat.not_lt_of_le allowed
        simp only [Option.some.injEq, exists_eq_left', notAbove,
          false_and, iff_false]
        rw [if_pos allowed]
        split <;> exact nofun
      · have above : min limit maxDatagramSize < size :=
          Nat.lt_of_not_le allowed
        simp only [Option.some.injEq, exists_eq_left', above, true_and]
        rw [if_neg allowed, Except.error.injEq]
        exact eq_comm

theorem next_append_of_found
    {found : Found} (finds : next limit buffer = .ok (some found))
    (more : List UInt8) :
    next limit (buffer ++ more) =
      .ok (some ⟨found.body, found.rest ++ more⟩) := by
  rcases eq_ofBody_append_of_next finds with ⟨allowed, isBuffer⟩
  rw [isBuffer, List.append_assoc]
  exact next_ofBody_append allowed (found.rest ++ more)

/-- More bytes do not mend a refusal. -/
theorem next_append_of_error
    {cause : FormatError} (refuses : next limit buffer = .error cause)
    (more : List UInt8) :
    next limit (buffer ++ more) = .error cause := by
  rcases next_eq_error_iff.mp refuses with ⟨size, announces, above, isCause⟩
  exact next_eq_error_iff.mpr
    ⟨size, announced_append announces more, above, isCause⟩

/-! ## All frames of a buffer -/

/-- How a buffer is drained, frame by frame. -/
inductive Drains (limit : Nat) : List UInt8 → Drained → Prop
  | starved {buffer : List UInt8} :
      next limit buffer = .ok none → Drains limit buffer ⟨[], buffer, none⟩
  | refused {buffer : List UInt8} {cause : FormatError} :
      next limit buffer = .error cause →
      Drains limit buffer ⟨[], buffer, some cause⟩
  | found {buffer : List UInt8} {found : Found} {drained : Drained} :
      next limit buffer = .ok (some found) → Drains limit found.rest drained →
        Drains limit buffer
          { drained with bodies := found.body :: drained.bodies }

theorem drains_drainAfter (limit : Nat) (taken : List Datagram)
    (buffer : List UInt8) : ∃ drained, Drains limit buffer drained ∧
      drainAfter limit taken buffer =
        { drained with bodies := taken.reverse ++ drained.bodies } := by
  fun_induction drainAfter limit taken buffer with
  | case1 taken buffer body rest finds ih =>
      rcases ih with ⟨drained, drains, isDrained⟩
      refine ⟨_, .found finds drains, ?_⟩
      rw [isDrained, List.reverse_cons, List.append_assoc]
      rfl
  | case2 taken buffer starves =>
      refine ⟨_, .starved starves, ?_⟩
      rw [List.append_nil]
  | case3 taken buffer cause refuses =>
      refine ⟨_, .refused refuses, ?_⟩
      rw [List.append_nil]

theorem drains_drain (limit : Nat) (buffer : List UInt8) :
    Drains limit buffer (drain limit buffer) := by
  rcases drains_drainAfter limit [] buffer with ⟨drained, drains, isDrained⟩
  rw [drain, isDrained]
  exact drains

namespace Drains

variable {drained : Drained}

theorem eq_of_drains
    {other : Drained} (drains : Drains limit buffer drained)
    (alike : Drains limit buffer other) : drained = other := by
  induction drains generalizing other with
  | starved starves =>
      cases alike with
      | starved _ => rfl
      | refused refuses => rw [starves] at refuses; cases refuses
      | found finds _ => rw [starves] at finds; cases finds
  | refused refuses =>
      cases alike with
      | starved starves => rw [refuses] at starves; cases starves
      | refused same => rw [refuses] at same; cases same; rfl
      | found finds _ => rw [refuses] at finds; cases finds
  | found finds _ ih =>
      cases alike with
      | starved starves => rw [finds] at starves; cases starves
      | refused refuses => rw [finds] at refuses; cases refuses
      | found same rest =>
          rw [finds] at same
          cases same
          rw [ih rest]

theorem eq_drain (drains : Drains limit buffer drained) :
    drain limit buffer = drained :=
  (drains_drain limit buffer).eq_of_drains drains

theorem lossless (drains : Drains limit buffer drained) :
    drained.bodies.flatMap ofBody ++ drained.rest = buffer := by
  induction drains with
  | starved _ => rfl
  | refused _ => rfl
  | found finds _ ih =>
      rw [List.flatMap_cons, List.append_assoc, ih]
      exact (eq_ofBody_append_of_next finds).2.symm

theorem allowed (drains : Drains limit buffer drained) :
    ∀ body ∈ drained.bodies, body.length ≤ min limit maxDatagramSize := by
  induction drains with
  | starved _ => simp
  | refused _ => simp
  | found finds _ ih =>
      intro body listed
      rcases List.mem_cons.mp listed with rfl | later
      · exact (eq_ofBody_append_of_next finds).1
      · exact ih body later

/-- What the last look at the buffer answers. -/
theorem next_rest (drains : Drains limit buffer drained) :
    next limit drained.rest =
      match drained.refusal with
      | none => .ok none
      | some cause => .error cause := by
  induction drains with
  | starved starves => exact starves
  | refused refuses => exact refuses
  | found _ _ ih => exact ih

/-- What arrives later is drained after what is left. -/
theorem append
    {later : Drained} (drains : Drains limit buffer drained) {more : List UInt8}
    (continues : Drains limit (drained.rest ++ more) later) :
    Drains limit (buffer ++ more)
      { later with bodies := drained.bodies ++ later.bodies } := by
  induction drains with
  | starved _ => exact continues
  | refused _ => exact continues
  | found finds _ ih =>
      exact .found (next_append_of_found finds more) (ih continues)

end Drains

theorem drains_flatMap_ofBody
    {bodies : List Datagram}
    (allowed : ∀ body ∈ bodies, body.length ≤ min limit maxDatagramSize) :
    Drains limit (bodies.flatMap ofBody) ⟨bodies, [], none⟩ := by
  induction bodies with
  | nil => exact .starved rfl
  | cons body rest ih =>
      have finds := next_ofBody_append (allowed body List.mem_cons_self)
        (rest.flatMap ofBody)
      have others :=
        ih fun other listed => allowed other (List.mem_cons_of_mem body listed)
      exact .found finds others

/-- Nothing is refused of a stream whose continuation is accepted. -/
theorem Drains.refusal_eq_none_of_append
    {drained whole : Drained} (drains : Drains limit buffer drained)
    {more : List UInt8}
    (continues : Drains limit (buffer ++ more) whole)
    (accepted : whole.refusal = none) :
    drained.refusal = none := by
  cases refusal : drained.refusal with
  | none => rfl
  | some cause =>
      have answer := drains.next_rest
      rw [refusal] at answer
      have stops := drains.append (.refused (next_append_of_error answer more))
      rw [continues.eq_of_drains stops] at accepted
      cases accepted

/-- What is framed one by one, and the frames. -/
theorem ofBody_of_mapM_encode
    {bodies : List Datagram} {frames : List (List UInt8)}
    (framed : bodies.mapM encode = .ok frames) :
    (∀ body ∈ bodies, body.length ≤ maxDatagramSize) ∧
      frames.flatten = bodies.flatMap ofBody := by
  induction bodies generalizing frames with
  | nil =>
      cases framed
      exact ⟨by simp, rfl⟩
  | cons body rest ih =>
      rw [List.mapM_cons, encode] at framed
      split at framed
      · rename_i framable
        cases others : rest.mapM encode with
        | error cause =>
            rw [others] at framed
            cases framed
        | ok later =>
            rw [others] at framed
            cases framed
            rcases ih others with ⟨restFramable, isStream⟩
            refine ⟨?_, ?_⟩
            · intro other listed
              rcases List.mem_cons.mp listed with rfl | inRest
              · exact framable
              · exact restFramable other inRest
            · rw [List.flatten_cons, List.flatMap_cons, isStream]
      · cases framed

/-! ## Pieces -/

/-- One more piece arrives, and every frame that is complete is taken. -/
def Drained.feed (limit : Nat) (before : Drained) (piece : List UInt8) :
    Drained :=
  let after := drain limit (before.rest ++ piece)
  { after with bodies := before.bodies ++ after.bodies }

theorem Drains.feed
    {drained : Drained} (drains : Drains limit buffer drained)
    (piece : List UInt8) :
    Drains limit (buffer ++ piece) (drained.feed limit piece) :=
  drains.append (drains_drain limit (drained.rest ++ piece))

/-- What arrives after a refusal is left where it is. -/
theorem Drains.feed_of_refused
    {drained : Drained} (drains : Drains limit buffer drained)
    {cause : FormatError} (refusal : drained.refusal = some cause)
    (piece : List UInt8) :
    drained.feed limit piece =
      { drained with rest := drained.rest ++ piece } := by
  have answer := drains.next_rest
  rw [refusal] at answer
  rw [Drained.feed,
    (Drains.refused (next_append_of_error answer piece)).eq_drain, refusal,
    List.append_nil]

/-- What has become of a stream that arrived in pieces. -/
def ofPieces (limit : Nat) (pieces : List (List UInt8)) : Drained :=
  pieces.foldl (Drained.feed limit) ⟨[], [], none⟩

theorem drains_ofPieces (limit : Nat) (pieces : List (List UInt8)) :
    Drains limit pieces.flatten (ofPieces limit pieces) := by
  -- What has arrived so far is drained already; of it only the rest is carried
  -- on.
  have continued : ∀ (arrived : List UInt8) (before : Drained),
      Drains limit arrived before →
      Drains limit (arrived ++ pieces.flatten)
        (pieces.foldl (Drained.feed limit) before) := by
    induction pieces with
    | nil =>
        intro arrived before drains
        simpa using drains
    | cons piece rest ih =>
        intro arrived before drains
        rw [List.flatten_cons, ← List.append_assoc]
        exact ih _ _ (drains.feed piece)
  exact continued [] _ (.starved rfl)

/--
What has been taken from a stream and what is left of it: nothing is missing,
everything taken is allowed, and no more can be taken.  A stream comes to a stop
at a count above the limit, for good, and otherwise waits for more.
-/
structure Divides (limit : Nat) (stream : List UInt8) (drained : Drained) :
    Prop where
  lossless : drained.bodies.flatMap ofBody ++ drained.rest = stream
  allowed : ∀ body ∈ drained.bodies, body.length ≤ min limit maxDatagramSize
  framed : ∀ body ∈ drained.bodies, encode body = .ok (ofBody body)
  exhausted : ∀ body rest, body.length ≤ min limit maxDatagramSize →
    drained.rest ≠ ofBody body ++ rest
  answer : next limit drained.rest =
    match drained.refusal with
    | none => .ok none
    | some cause => .error cause
  refused_iff : ∀ cause, drained.refusal = some cause ↔
    ∃ size, announced drained.rest = some size ∧
    min limit maxDatagramSize < size ∧
      cause = .frameTooLarge size
  repeats : ∀ cause, drained.refusal = some cause → ∀ more,
    drain limit (drained.rest ++ more) = ⟨[], drained.rest ++ more, some cause⟩

theorem Drains.divides {drained : Drained}
    (drains : Drains limit buffer drained) : Divides limit buffer drained where
  lossless := drains.lossless
  allowed := drains.allowed
  framed := by
    intro body listed
    exact encode_eq_ofBody
      (Nat.le_trans (drains.allowed body listed) (Nat.min_le_right _ _))
  exhausted := by
    intro body rest allowed isRest
    have answer := drains.next_rest
    rw [isRest, next_ofBody_append allowed] at answer
    cases refusal : drained.refusal with
    | none => rw [refusal] at answer; cases answer
    | some cause => rw [refusal] at answer; cases answer
  answer := drains.next_rest
  refused_iff := by
    intro cause
    have answer := drains.next_rest
    rw [← next_eq_error_iff, answer]
    cases drained.refusal <;> simp
  repeats := by
    intro cause refusal more
    have answer := drains.next_rest
    rw [refusal] at answer
    exact (Drains.refused (next_append_of_error answer more)).eq_drain

/--
However a stream is cut into pieces, nothing of it is lost, and the same frames
are taken from it and the same bytes left.  A stream of frames that are allowed
comes out as their bodies.
-/
theorem stream_divides_alike_in_all_pieces (limit : Nat)
    (pieces : List (List UInt8)) :
    Divides limit pieces.flatten (ofPieces limit pieces) ∧
      (∀ others : List (List UInt8), others.flatten = pieces.flatten →
        ofPieces limit others = ofPieces limit pieces) ∧
      ∀ bodies : List Datagram,
        (∀ body ∈ bodies, body.length ≤ min limit maxDatagramSize) →
        pieces.flatten = bodies.flatMap ofBody →
          ofPieces limit pieces = ⟨bodies, [], none⟩ := by
  have drains := drains_ofPieces limit pieces
  refine ⟨drains.divides, ?_, ?_⟩
  · intro others same
    exact (same ▸ drains_ofPieces limit others).eq_of_drains drains
  · intro bodies allowed isStream
    exact (isStream ▸ drains).eq_of_drains (drains_flatMap_ofBody allowed)

theorem stream_divides_alike_in_pieces_cut_inside_a_count :
    let pieces : List (List UInt8) :=
      [[2, 0], [], [0, 0, 7], [8, 0, 0, 0, 0], [1, 0, 0, 0, 9]]
    let bodies : List Datagram := [[7, 8], [], [9]]
    (∀ body ∈ bodies, body.length ≤ min 2 maxDatagramSize) ∧
      pieces.flatten = bodies.flatMap ofBody ∧
      ofPieces 2 pieces = ⟨bodies, [], none⟩ ∧
      ofPieces 2 [pieces.flatten] = ⟨bodies, [], none⟩ := by
  intro pieces bodies
  have allowed : ∀ body ∈ bodies, body.length ≤
      min 2 maxDatagramSize := by decide
  have isStream : pieces.flatten = bodies.flatMap ofBody := by decide
  have divided := stream_divides_alike_in_all_pieces 2 pieces
  have given := divided.2.2 bodies allowed isStream
  exact ⟨allowed, isStream, given,
    (divided.2.1 [pieces.flatten] (by simp)).trans given⟩

end Frame

end ChannelRouter
