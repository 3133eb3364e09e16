import ChannelRouter.Proofs.Transport.Receiving
import ChannelRouter.Transport.FrameWriter

/-!
# What a writer sends

A writer is called for one datagram after the other, and each call either puts
one whole frame on the wire or refuses the datagram and leaves the wire alone.
So the wire holds the frames of the datagrams that may be framed, and a reader
at the other end is given these datagrams back until one is longer than the
reader allows.

Frames are put together in a buffer that outlives the call.  It is emptied
before each frame, so nothing of one call shows in the next, whether that one
was refused or not.
-/

namespace ChannelRouter

open ChannelRouter.Frame

/-! ## Frames put together in a buffer -/

namespace Frame

/--
Put the frame of a body behind what a buffer holds, unless the body is too
large.
-/
def encodeInto (body : Datagram) (buffer : List UInt8) :
    Except FormatError Unit × List UInt8 :=
  if maxDatagramSize <
    body.length then (.error (.frameTooLarge body.length), buffer)
  else (.ok (), buffer ++ Word.bytes countWidth body.length ++ body)

theorem encodeInto_eq (body : Datagram) (buffer : List UInt8) :
    encodeInto body buffer =
      match encode body with
      | .error cause => (.error cause, buffer)
      | .ok frame => (.ok (), buffer ++ frame) := by
  rw [encodeInto, encode]
  by_cases large : maxDatagramSize < body.length
  · rw [if_pos large, if_neg (Nat.not_le_of_lt large)]
  · rw [if_neg large, if_pos (Nat.le_of_not_lt large), ofBody,
      List.append_assoc]

/-- Bodies that are too large to be framed are refused. -/
theorem encode_eq_error {body : Datagram}
    (large : maxDatagramSize < body.length) :
    encode body = .error (.frameTooLarge body.length) :=
  if_neg (Nat.not_le_of_lt large)

end Frame

/-- A writer with the buffer that it puts its frames together in. -/
structure BufferedWriter where
  writer : FrameWriter
  buffer : List UInt8

namespace BufferedWriter

/-- Send a datagram from the buffer. -/
def send (sender : BufferedWriter) (body : Datagram) :
    Except StreamError Unit × BufferedWriter :=
  let emptied : List UInt8 := []
  match encodeInto body emptied with
  | (.error cause, buffer) =>
      (.error (.malformed cause), { sender with buffer })
  | (.ok (), buffer) =>
    let sent :=
      if sender.writer.isOpen then sender.writer.put buffer
      else (.error .failed, sender.writer)
    (sent.1, ⟨sent.2, buffer⟩)

/-- Send datagrams one after the other, whatever becomes of each. -/
def sendAll (sender : BufferedWriter) : List Datagram →
    List (Except StreamError Unit) × BufferedWriter
  | [] => ([], sender)
  | body :: others =>
    let sent := sender.send body
    let rest := sent.2.sendAll others
    (sent.1 :: rest.1, rest.2)

end BufferedWriter

namespace FrameWriter

/-- Send datagrams one after the other, whatever becomes of each. -/
def sendAll (writer : FrameWriter) :
    List Datagram → List (Except StreamError Unit) × FrameWriter
  | [] => ([], writer)
  | body :: others =>
    let sent := writer.send body
    let rest := sent.2.sendAll others
    (sent.1 :: rest.1, rest.2)

end FrameWriter

namespace BufferedWriter

/-- What the buffer holds makes no difference. -/
theorem send_eq (sender : BufferedWriter) (body : Datagram) :
    (sender.send body).1 = (sender.writer.send body).1 ∧
      (sender.send body).2.writer = (sender.writer.send body).2 := by
  rw [send, FrameWriter.send, encodeInto_eq]
  cases encode body with
  | error cause => exact ⟨rfl, rfl⟩
  | ok frame =>
      simp only [List.nil_append, and_self]

theorem sendAll_eq (sender : BufferedWriter) (bodies : List Datagram) :
    (sender.sendAll bodies).1 = (sender.writer.sendAll bodies).1 ∧
      (sender.sendAll bodies).2.writer = (sender.writer.sendAll bodies).2 := by
  induction bodies generalizing sender with
  | nil => exact ⟨rfl, rfl⟩
  | cons body others ih =>
      rcases sender.send_eq body with ⟨sameResult, sameWriter⟩
      rcases ih (sender.send body).2 with ⟨sameResults, sameLast⟩
      rw [sameWriter] at sameResults sameLast
      refine ⟨?_, sameLast⟩
      rw [sendAll, FrameWriter.sendAll, sameResult, sameResults]

end BufferedWriter

namespace FrameWriter

/-! ## Call after call -/

/-- No write failed, and none took too long. -/
def Undisturbed (result : Except StreamError Unit) : Prop :=
  result ≠ .error .timedOut ∧ result ≠ .error .failed

/-- How a call ends that is not disturbed. -/
def resultFor (body : Datagram) : Except StreamError Unit :=
  if body.length ≤ maxDatagramSize then .ok ()
  else .error (.malformed (.frameTooLarge body.length))

/-- The datagrams that may be framed. -/
def framable (bodies : List Datagram) : List Datagram :=
  bodies.filter (·.length ≤ maxDatagramSize)

theorem wire_put_of_undisturbed
    {writer : FrameWriter} {frame : List UInt8}
    (undisturbed : Undisturbed (writer.put frame).1) :
    (writer.put frame).1 = .ok () ∧
      (writer.put frame).2.wire = writer.wire ++ frame := by
  rw [put] at undisturbed ⊢
  split
  · exact ⟨rfl, by simp [wire]⟩
  · rename_i room limited
    simp only [limited] at undisturbed
    split
    · exact ⟨rfl, by simp [wire]⟩
    · rename_i tooLong
      rw [if_neg tooLong] at undisturbed
      exact absurd rfl undisturbed.1

/-- A refused datagram leaves the writer as it is. -/
theorem send_of_large
    (writer : FrameWriter) {body : Datagram}
    (large : maxDatagramSize < body.length) :
    writer.send body =
      (.error (.malformed (.frameTooLarge body.length)), writer) := by
  rw [send, encode_eq_error large]

theorem send_of_framable
    {writer : FrameWriter} {body : Datagram}
    (allowed : body.length ≤ maxDatagramSize)
    (undisturbed : Undisturbed (writer.send body).1) :
    (writer.send body).1 = resultFor body ∧
      (writer.send body).2.wire = writer.wire ++ ofBody body := by
  simp only [send, encode_eq_ofBody allowed] at undisturbed ⊢
  rw [resultFor, if_pos allowed]
  split
  · rename_i isOpen
    rw [if_pos isOpen] at undisturbed
    exact wire_put_of_undisturbed undisturbed
  · rename_i isClosed
    rw [if_neg isClosed] at undisturbed
    exact absurd rfl undisturbed.2

/--
Each call adds the frame of its datagram, or nothing if there is no frame of it.
-/
theorem sendAll_of_undisturbed
    {writer : FrameWriter} {bodies : List Datagram}
    (undisturbed : ∀ result ∈ (writer.sendAll bodies).1, Undisturbed result) :
    (writer.sendAll bodies).1 = bodies.map resultFor ∧
      (writer.sendAll bodies).2.wire =
        writer.wire ++ (framable bodies).flatMap ofBody := by
  induction bodies generalizing writer with
  | nil => exact ⟨rfl, (List.append_nil _).symm⟩
  | cons body others ih =>
      simp only [sendAll] at undisturbed ⊢
      have first := undisturbed _ List.mem_cons_self
      rcases ih fun result listed =>
        undisturbed result (List.mem_cons_of_mem _ listed)
        with ⟨results, others⟩
      rw [results, others, List.map_cons, framable, framable]
      by_cases allowed : body.length ≤ maxDatagramSize
      · rcases send_of_framable allowed first with ⟨isOk, added⟩
        rw [isOk, added, List.filter_cons_of_pos (by simpa using allowed),
          List.flatMap_cons, List.append_assoc]
        exact ⟨rfl, rfl⟩
      · rw [send_of_large writer (Nat.lt_of_not_le allowed),
          resultFor, if_neg allowed,
          List.filter_cons_of_neg (by simpa using allowed)]
        exact ⟨rfl, rfl⟩

end FrameWriter

/-! ## The other end -/

namespace FrameReader

/-- The datagrams before the first that is longer than the limit. -/
def upToLimit (limit : Nat) (bodies : List Datagram) : List Datagram :=
  bodies.takeWhile (·.length ≤ limit)

/-- How a stream of these datagrams ends for a reader with a limit. -/
def closing (limit : Nat) (bodies : List Datagram) :
    Except StreamError (Option Datagram) :=
  match bodies.find? (limit < ·.length) with
  | none => .ok none
  | some body => .error (.malformed (.frameTooLarge body.length))

/--
A stream of frames is drained up to the first that is longer than the limit.
-/
theorem exists_drains_frames
    (limit : Nat) {bodies : List Datagram}
    (framable : ∀ body ∈ bodies, body.length ≤ maxDatagramSize) :
    ∃ drained, Drains limit (bodies.flatMap ofBody) drained ∧
      drained.bodies = upToLimit limit bodies ∧
        lastAnswer drained = closing limit bodies := by
  induction bodies with
  | nil => exact ⟨_, .starved rfl, rfl, rfl⟩
  | cons body others ih =>
      have bodyFramable := framable body List.mem_cons_self
      rcases ih fun other listed =>
        framable other (List.mem_cons_of_mem body listed)
        with ⟨drained, drains, isFitting, isClosing⟩
      rw [List.flatMap_cons, upToLimit, closing]
      by_cases allowed : body.length ≤ limit
      · have finds :=
          next_ofBody_append (Nat.le_min.mpr ⟨allowed, bodyFramable⟩)
          (others.flatMap ofBody)
        refine ⟨_, .found finds drains, ?_, ?_⟩
        · rw [List.takeWhile_cons_of_pos (by simpa using allowed), isFitting]
          rfl
        · rw [List.find?_cons_of_neg (by simpa using allowed)]
          exact isClosing
      · have above : limit < body.length := Nat.lt_of_not_le allowed
        have counted : announced (ofBody body) = some body.length :=
          announced_ofBody (Nat.le_min.mpr ⟨bodyFramable, bodyFramable⟩)
        have announces := announced_append counted (others.flatMap ofBody)
        have refuses := next_eq_error_iff.mpr ⟨body.length, announces,
          Nat.lt_of_le_of_lt (Nat.min_le_left limit _) above, rfl⟩
        refine ⟨_, .refused refuses, ?_, ?_⟩
        · rw [List.takeWhile_cons_of_neg (by simpa using allowed)]
        · rw [List.find?_cons_of_pos (by simpa using above)]
          rfl

end FrameReader

namespace FrameWriter

open FrameReader

/--
Whatever datagrams a writer is called for, as long as no write fails or takes
too long, the wire holds the frames of those that may be framed, in the order of
the calls; a call for any other is refused with its length.  What is left in the
buffer from an earlier call makes no difference.

However the bytes are divided on their way, a reader at the other end of the
stream, which the writer closes, answers with the datagrams that were framed,
one a call and in their order, up to the first that is longer than its own
limit.  Then every call is answered by the end of the stream, or by a refusal if
there is such a datagram.
-/
theorem frames_reach_the_reader_intact
    {writer : FrameWriter} {bodies : List Datagram}
    (unused : writer.written = [])
    (undisturbed : ∀ result ∈ (writer.sendAll bodies).1, Undisturbed result) :
    let sent := (writer.sendAll bodies).2.close
    (writer.sendAll bodies).1 = bodies.map resultFor ∧
      (∀ body ∈ bodies, maxDatagramSize < body.length → ∀ midway : FrameWriter,
        midway.send body =
          (.error (.malformed (.frameTooLarge body.length)), midway)) ∧
      (∀ body ∈ framable bodies, encode body = .ok (ofBody body)) ∧
      sent.wire = (framable bodies).flatMap ofBody ∧
      (∀ buffer,
        ((BufferedWriter.mk writer buffer).sendAll bodies).1 =
          (writer.sendAll bodies).1 ∧
        ((BufferedWriter.mk writer buffer).sendAll bodies).2.writer =
          (writer.sendAll bodies).2) ∧
      ∀ limit pieces, pieces.flatten = sent.wire →
        (∀ calls, (receiptAfter .closed (.start limit) pieces calls).result =
          match (upToLimit limit (framable bodies))[calls]? with
          | some body => .ok (some body)
          | none => closing limit (framable bodies)) ∧
        (FrameReader.start limit).receiveAll .closed pieces =
          (upToLimit limit (framable bodies),
            failure? (closing limit (framable bodies))) := by
  intro sent
  have allFramable : ∀ body ∈ framable bodies, body.length ≤
      maxDatagramSize := by
    intro body listed
    simpa using (List.mem_filter.mp listed).2
  rcases sendAll_of_undisturbed undisturbed with ⟨results, wire⟩
  have isWire : sent.wire = (framable bodies).flatMap ofBody := by
    rw [show sent.wire = (writer.sendAll bodies).2.wire from rfl, wire,
      FrameWriter.wire, unused]
    rfl
  refine ⟨results, fun _ _ large midway => send_of_large midway large,
    fun body listed => encode_eq_ofBody (allFramable body listed), isWire,
    fun buffer => BufferedWriter.sendAll_eq ⟨writer, buffer⟩ bodies, ?_⟩
  intro limit pieces arrives
  rcases exists_drains_frames limit allFramable
    with ⟨drained, drains, isFitting, isClosing⟩
  rw [← isWire, ← arrives] at drains
  have ahead : Drains (FrameReader.start limit).limit
      ((FrameReader.start limit).ahead pieces) drained := drains
  rw [← isFitting, ← isClosing]
  exact ⟨result_receiptAfter ahead, receiveAfter_closed [] ahead⟩

/-- One datagram is refused, and the peer takes just what the other two need. -/
theorem frames_reach_the_reader_intact_around_a_refused_one :
    let writer : FrameWriter := ⟨[], some 12, true⟩
    let refused : Datagram := List.replicate 16777217 0
    let bodies : List Datagram := [[7], refused, [1, 2, 3]]
    let pieces : List (List UInt8) := [[1, 0], [0, 0, 7, 3], [0, 0, 0, 1, 2, 3]]
    (writer.sendAll bodies).1 =
        [.ok (), .error (.malformed (.frameTooLarge 16777217)), .ok ()] ∧
      (receiptAfter .closed (.start 2) pieces 0).result = .ok (some [7]) ∧
      ∀ calls, (receiptAfter .closed (.start 2) pieces (calls + 1)).result =
        .error (.malformed (.frameTooLarge 3)) := by
  intro writer refused bodies pieces
  have size : refused.length = 16777217 := List.length_replicate
  have large : maxDatagramSize < refused.length := by rw [size]; decide
  have results : (writer.sendAll bodies).1 =
      [.ok (), .error (.malformed (.frameTooLarge 16777217)), .ok ()] := by
    have first : writer.send [7] =
        (.ok (), ⟨[[1, 0, 0, 0, 7]], some 7, true⟩) := rfl
    have third :
        (FrameWriter.send ⟨[[1, 0, 0, 0, 7]], some 7, true⟩ [1, 2, 3]).1 =
          .ok () := rfl
    simp only [bodies, sendAll, first, send_of_large _ large, size, third]
  have undisturbed : ∀ result ∈ (writer.sendAll bodies).1,
      Undisturbed result := by
    simp [results, Undisturbed]
  have isFramable : framable bodies = [[7], [1, 2, 3]] := by
    rw [framable, List.filter_cons_of_pos (by decide),
      List.filter_cons_of_neg
        (by rw [decide_eq_true_eq]; exact Nat.not_le_of_lt large),
      List.filter_cons_of_pos (by decide), List.filter_nil]
  obtain ⟨-, -, -, wire, -, reads⟩ :=
    frames_reach_the_reader_intact rfl undisturbed
  rw [isFramable] at wire reads
  have answers := (reads 2 pieces (wire ▸ by decide)).1
  exact ⟨results, answers 0, fun calls => answers (calls + 1)⟩

end FrameWriter

end ChannelRouter
