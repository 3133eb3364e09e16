import ChannelRouter.Proofs.Wire.Streaming

/-!
# Decoding at once and decoding a stream

A frame can be taken from bytes that should hold it whole, or looked for at the
front of a buffer that may still grow.  Both agree on what is a frame.  As long
as a frame is incomplete, its count tells how long the bytes have to become, and
until they are that long every answer counts down to it.
-/

namespace ChannelRouter

namespace Frame

variable {limit : Nat} {bytes : List UInt8} {body : Datagram}

/-! ## The count in front -/

theorem announced_eq_some_iff {size : Nat} :
    announced bytes = some size ↔
      countWidth ≤ bytes.length ∧
        Word.value (bytes.take countWidth) = size := by
  rw [announced, List.length_take]
  by_cases enough : countWidth ≤ bytes.length
  · rw [if_pos (Nat.min_eq_left enough), Option.some.injEq,
      and_iff_right enough]
  · rw [if_neg (by omega)]
    simp [enough]

theorem announced_eq_none_iff : announced bytes = none ↔
      bytes.length < countWidth := by
  rw [announced, List.length_take]
  split <;> simp <;> omega

/--
The bytes ask for a body of at most so many bytes, if they ask for one already.
-/
def AsksWithin (bound : Nat) (bytes : List UInt8) : Prop :=
  ∀ size, announced bytes = some size → size ≤ bound

/-- How long bytes have to be to hold their frame, as far as they tell. -/
def wanted (bytes : List UInt8) : Nat :=
  match announced bytes with
  | none => countWidth
  | some size => countWidth + size

theorem wanted_of_announced {size : Nat}
    (announces : announced bytes = some size) :
    wanted bytes = countWidth + size := by
  rw [wanted, announces]

theorem asksWithin_of_announced {size : Nat}
    (announces : announced bytes = some size)
    (bound : Nat) : AsksWithin bound bytes ↔ size ≤ bound := by
  simp [AsksWithin, announces]

/--
Bytes that are too few tell the same when more come, as long as they stay too
few.
-/
theorem announced_append_of_lt {more : List UInt8}
    (tooFew : bytes.length + more.length < wanted bytes) :
    announced (bytes ++ more) = announced bytes := by
  cases announces : announced bytes with
  | some size => exact announced_append announces more
  | none =>
      rw [wanted, announces] at tooFew
      rw [announced_eq_none_iff, List.length_append]
      exact tooFew

theorem wanted_append_of_lt {more : List UInt8}
    (tooFew : bytes.length + more.length < wanted bytes) :
    wanted (bytes ++ more) = wanted bytes := by
  rw [wanted, announced_append_of_lt tooFew, wanted]

/-! ## Too few bytes -/

/--
More bytes are needed exactly if too few are there for what they may ask for.
-/
theorem next_eq_none_iff :
    next limit bytes = .ok none ↔
      AsksWithin (min limit maxDatagramSize) bytes ∧
        bytes.length < wanted bytes := by
  rw [next]
  cases announces : announced bytes with
  | none =>
      have tooFew := announced_eq_none_iff.mp announces
      simp [AsksWithin, wanted, announces, tooFew]
  | some size =>
      have counted := (announced_eq_some_iff.mp announces).1
      rw [asksWithin_of_announced announces, wanted_of_announced announces]
      by_cases within : size ≤ min limit maxDatagramSize
      · have holds : ((bytes.drop countWidth).take size).length = size ↔
            ¬ bytes.length < countWidth + size := by
          rw [List.length_take, List.length_drop]
          omega
        simp only [within, true_and, if_true, holds]
        by_cases tooFew : bytes.length < countWidth + size
        · simp [tooFew]
        · simp [tooFew]
      · simp [within]

theorem decode_eq_incomplete_iff {missing : Nat} :
    decode bytes = .error (.incomplete missing) ↔
      AsksWithin maxDatagramSize bytes ∧ bytes.length < wanted bytes ∧
        missing = wanted bytes - bytes.length := by
  rw [decode]
  cases announces : announced bytes with
  | none =>
      have tooFew := announced_eq_none_iff.mp announces
      simp [AsksWithin, wanted, announces, tooFew, eq_comm]
  | some size =>
      rw [asksWithin_of_announced announces, wanted_of_announced announces]
      by_cases within : size ≤ maxDatagramSize
      · have short : (bytes.drop countWidth).length < size ↔
            bytes.length < countWidth + size := by
          have counted := (announced_eq_some_iff.mp announces).1
          rw [List.length_drop]
          omega
        simp only [within, true_and, if_true, short]
        by_cases tooFew : bytes.length < countWidth + size
        · simp [tooFew, eq_comm]
        · simp [tooFew]
      · simp [within]

/-! ## A whole frame -/

theorem decode_ofBody_append (framable : body.length ≤ maxDatagramSize)
    (rest : List UInt8) : decode (ofBody body ++ rest) = .ok body := by
  have announces : announced (ofBody body ++ rest) = some body.length := by
    apply announced_append
    exact announced_ofBody (Nat.le_min.mpr ⟨framable, framable⟩)
  have behind : (ofBody body ++ rest).drop countWidth = body ++ rest := by
    rw [ofBody, List.append_assoc,
      List.drop_left' (Word.length_bytes countWidth body.length)]
  have enough : ¬ (body ++ rest).length < body.length := by
    rw [List.length_append]
    omega
  rw [decode, announces]
  simp only [if_pos framable, behind, if_neg enough, List.take_left]

/-- Bytes that announce an allowed body, and hold it, begin with its frame. -/
theorem decode_of_announced {size : Nat}
    (announces : announced bytes = some size)
    (framable : size ≤ maxDatagramSize)
    (enough : countWidth + size ≤ bytes.length) :
    ∃ body, decode bytes = .ok body ∧ body.length = size := by
  have holds : ¬ (bytes.drop countWidth).length < size := by
    rw [List.length_drop]
    omega
  refine ⟨(bytes.drop countWidth).take size, ?_, ?_⟩
  · rw [decode, announces]
    simp only [if_pos framable, if_neg holds]
  · rw [List.length_take]
    omega

theorem length_le_of_decode (decodes : decode bytes = .ok body) :
    body.length ≤ maxDatagramSize := by
  rw [decode] at decodes
  cases announces : announced bytes with
  | none =>
      rw [announces] at decodes
      cases decodes
  | some size =>
      simp only [announces] at decodes
      split at decodes
      · rename_i framable
        split at decodes
        · cases decodes
        · injection decodes with isBody
          rw [← isBody, List.length_take]
          exact Nat.le_trans (Nat.min_le_left _ _) framable
      · cases decodes

/--
A frame is found in a buffer exactly if it can be taken at once and is allowed.
-/
theorem next_eq_found_iff {rest : List UInt8} :
    next limit bytes = .ok (some ⟨body, rest⟩) ↔
      decode bytes = .ok body ∧ body.length ≤ limit ∧
        ∃ frame, encode body = .ok frame ∧ bytes = frame ++ rest := by
  constructor
  · intro finds
    rcases eq_ofBody_append_of_next finds with ⟨allowed, rfl⟩
    have framable := Nat.le_trans allowed (Nat.min_le_right _ _)
    exact ⟨decode_ofBody_append framable rest,
      Nat.le_trans allowed (Nat.min_le_left _ _), ofBody body,
      encode_eq_ofBody framable, rfl⟩
  · rintro ⟨decodes, within, frame, encodes, rfl⟩
    have framable := length_le_of_decode decodes
    rw [encode_eq_ofBody framable] at encodes
    injection encodes with isFrame
    subst isFrame
    exact next_ofBody_append (Nat.le_min.mpr ⟨within, framable⟩) rest

/-- The bytes are those of the stream, and nothing was taken. -/
theorem drain_of_none (starves : next limit bytes = .ok none) :
    drain limit bytes = ⟨[], bytes, none⟩ :=
  (Drains.starved starves).eq_drain

theorem drain_of_error {cause : FormatError}
    (refuses : next limit bytes = .error cause) :
    drain limit bytes = ⟨[], bytes, some cause⟩ :=
  (Drains.refused refuses).eq_drain

/-! ## Agreement -/

/--
Until the missing bytes are there they are counted down; then the frame is
complete.
-/
structure CountsDown (bytes : List UInt8) (missing : Nat) : Prop where
  positive : 0 < missing
  fewer : ∀ more : List UInt8, more.length < missing →
    decode (bytes ++ more) = .error (.incomplete (missing - more.length))
  enough : ∀ size, announced bytes = some size →
    ∀ more : List UInt8, missing ≤ more.length →
    ∃ body, decode (bytes ++ more) = .ok body ∧ body.length = size

theorem countsDown_of_decode {missing : Nat}
    (incomplete : decode bytes = .error (.incomplete missing)) :
    CountsDown bytes missing := by
  rcases decode_eq_incomplete_iff.mp incomplete with ⟨within, tooFew, rfl⟩
  refine ⟨Nat.sub_pos_of_lt tooFew, ?_, ?_⟩
  · intro more stillFewer
    have short : bytes.length + more.length < wanted bytes := by omega
    rw [decode_eq_incomplete_iff, AsksWithin, announced_append_of_lt short,
      wanted_append_of_lt short, List.length_append]
    exact ⟨within, short, by omega⟩
  · intro size announces more enough
    rw [wanted_of_announced announces] at enough tooFew
    apply decode_of_announced (announced_append announces more)
      (within size announces)
    rw [List.length_append]
    omega

/--
A buffer gives out a frame exactly if the frame can be taken at once, is within
the limit, and stands in front.  It refuses a count above the limit, and waits
otherwise; either way it stays as it is.  Without a limit of its own it waits
exactly while taking at once finds the frame incomplete, and what is said to be
missing is exact.
-/
theorem one_shot_and_streaming_decoding_agree (limit : Nat)
    (bytes : List UInt8) :
    (∀ body rest, next limit bytes = .ok (some ⟨body, rest⟩) ↔
      decode bytes = .ok body ∧ body.length ≤ limit ∧
        ∃ frame, encode body = .ok frame ∧ bytes = frame ++ rest) ∧
    (∀ cause, next limit bytes = .error cause ↔
      ∃ size, (4 ≤ bytes.length ∧ Word.value (bytes.take 4) = size) ∧
        min limit maxDatagramSize < size ∧ cause = .frameTooLarge size) ∧
    (next limit bytes = .ok none ↔
      AsksWithin (min limit maxDatagramSize) bytes ∧
        bytes.length < wanted bytes) ∧
    (maxDatagramSize ≤ limit →
      (next limit bytes = .ok none ↔
        ∃ missing, decode bytes = .error (.incomplete missing))) ∧
    (next limit bytes = .ok none → drain limit bytes = ⟨[], bytes, none⟩) ∧
    (∀ cause, next limit bytes = .error cause →
      drain limit bytes = ⟨[], bytes, some cause⟩) ∧
    ∀ missing, decode bytes = .error (.incomplete missing) →
      CountsDown bytes missing := by
  refine ⟨fun _ _ => next_eq_found_iff, ?_, next_eq_none_iff, ?_, drain_of_none,
    fun _ => drain_of_error, fun _ => countsDown_of_decode⟩
  · intro cause
    simp only [next_eq_error_iff, announced_eq_some_iff, countWidth]
  · intro unlimited
    simp only [next_eq_none_iff, decode_eq_incomplete_iff,
      Nat.min_eq_right unlimited]
    constructor
    · rintro ⟨within, tooFew⟩
      exact ⟨_, within, tooFew, rfl⟩
    · rintro ⟨_, within, tooFew, _⟩
      exact ⟨within, tooFew⟩

/--
A frame of three bytes of which one has arrived, under the general limit and a
narrow one.
-/
theorem one_shot_and_streaming_decoding_agree_on_a_frame_cut_short :
    let bytes : List UInt8 := [3, 0, 0, 0, 7]
    (maxDatagramSize ≤ maxDatagramSize ∧
      next maxDatagramSize bytes = .ok none) ∧
      drain maxDatagramSize bytes = ⟨[], bytes, none⟩ ∧
      (∃ missing, decode bytes = .error (.incomplete missing)) ∧
      decode bytes = .error (.incomplete 2) ∧
      decode (bytes ++ [8]) = .error (.incomplete 1) ∧
      (∃ body, decode (bytes ++ [8, 9, 1]) = .ok body ∧ body.length = 3) ∧
      next 2 bytes = .error (.frameTooLarge 3) ∧
      drain 2 bytes = ⟨[], bytes, some (.frameTooLarge 3)⟩ := by
  intro bytes
  have waits : next maxDatagramSize bytes = .ok none := rfl
  have incomplete : decode bytes = .error (.incomplete 2) := rfl
  have refuses : next 2 bytes = .error (.frameTooLarge 3) := rfl
  rcases one_shot_and_streaming_decoding_agree maxDatagramSize bytes
    with ⟨_, _, _, unlimited, untouched, _, exactly⟩
  rcases one_shot_and_streaming_decoding_agree 2 bytes
    with ⟨_, _, _, _, _, kept, _⟩
  have counts := exactly 2 incomplete
  exact ⟨⟨Nat.le_refl _, waits⟩, untouched waits,
    (unlimited (Nat.le_refl _)).mp waits, incomplete,
    counts.fewer [8] (by decide),
    counts.enough 3 (by decide) [8, 9, 1] (by decide), refuses,
    kept _ refuses⟩

end Frame

end ChannelRouter
