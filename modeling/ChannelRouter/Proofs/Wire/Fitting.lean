import ChannelRouter.Proofs.Wire.Access
import ChannelRouter.Proofs.Wire.Passing

/-!
# Fields that fit

A read takes fields of certain widths, one after the other, and what it needs to
know of the bytes is only how many there are.  It succeeds if all its fields fit
into what remains, and otherwise it stops in front of the first that does not.

For a header the widths follow from the count in front of it.  So the bodies
with a whole header are those that are long enough, and they correspond one to
one to what can be written as a header and what comes after it.
-/

namespace ChannelRouter

open ChannelRouter.Field (channelBytes)

namespace Cursor

/-- The cursor is within the datagram, and so many bytes remain. -/
def Has (cursor : Cursor) (count : Nat) : Prop :=
  cursor.position ≤ cursor.body.length ∧ count ≤ cursor.remaining

instance (cursor : Cursor) (count : Nat) : Decidable (cursor.Has count) :=
  inferInstanceAs (Decidable (_ ∧ _))

/-- The next bytes. -/
def upcoming (cursor : Cursor) (count : Nat) : List UInt8 :=
  (cursor.body.drop cursor.position).take count

/-- The cursor moved over so many bytes. -/
def past (cursor : Cursor) (count : Nat) : Cursor :=
  cursor.seek (cursor.position + count)

theorem past_past (cursor : Cursor) (count more : Nat) :
    (cursor.past count).past more = cursor.past (count + more) := by
  simp only [past, seek, Nat.add_assoc]

theorem remaining_past (cursor : Cursor) (count : Nat) :
    (cursor.past count).remaining = cursor.remaining - count :=
  Nat.sub_add_eq _ _ _

theorem has_iff (cursor : Cursor) (count : Nat) :
    cursor.Has count ↔ cursor.position + count ≤ cursor.body.length := by
  unfold Has remaining
  omega

theorem length_upcoming {cursor : Cursor} {count : Nat}
    (enough : cursor.Has count) : (cursor.upcoming count).length = count := by
  rw [upcoming, List.length_take, List.length_drop]
  exact Nat.min_eq_left enough.2

theorem holds_eq_true_iff (cursor : Cursor) (count : Nat) :
    cursor.holds count = true ↔ cursor.Has count := by
  rw [holds, Bool.and_eq_true, decide_eq_true_iff,
    decide_eq_true_iff, Has, and_comm]

end Cursor

namespace Read

variable {α β : Type}

theorem runAt_take_of_has {cursor : Cursor} {count : Nat}
    (enough : cursor.Has count) :
    (take count).runAt cursor =
      (.ok (cursor.upcoming count), cursor.past count) :=
  if_pos ((cursor.holds_eq_true_iff count).mpr enough)

theorem runAt_take_of_not_has {cursor : Cursor} {count : Nat}
    (short : ¬ cursor.Has count) :
    (take count).runAt cursor =
      (.error (.truncated count cursor.remaining), cursor) :=
  if_neg (mt (cursor.holds_eq_true_iff count).mp short)

/--
The read takes bytes of a known number and says what they denote.  If they are
not there, the cursor stays.
-/
structure TakesKnown (read : Read α) (count : Nat) (denote : List UInt8 → α) :
    Prop where
  succeeds : ∀ cursor : Cursor, cursor.Has count →
    read.runAt cursor =
      (.ok (denote (cursor.upcoming count)), cursor.past count)
  fails : ∀ cursor : Cursor, ¬ cursor.Has count →
    read.runAt cursor = (.error (.truncated count cursor.remaining), cursor)

theorem takesKnown_take (count : Nat) : (take count).TakesKnown count id where
  succeeds _ enough := runAt_take_of_has enough
  fails _ short := runAt_take_of_not_has short

theorem TakesKnown.map
    {read : Read α} {count : Nat} {denote : List UInt8 → α}
    (takes : read.TakesKnown count denote) (change : α → β) :
    (change <$> read).TakesKnown count (change ∘ denote) where
  succeeds cursor enough := by rw [runAt_map, takes.succeeds cursor enough]; rfl
  fails cursor short := by rw [runAt_map, takes.fails cursor short]; rfl

theorem takesKnown_numeral (numeral : Numeral) :
    numeral.read.TakesKnown numeral.width numeral.ofBytes := by
  rw [Numeral.read_eq]
  exact (takesKnown_take numeral.width).map numeral.ofBytes

/--
In so much room, fields of the given widths stop fitting at the one that would
begin at a place and take so many bytes.
-/
def StopsAt (widths : List Nat) (room place width : Nat) : Prop :=
  ∃ earlier later, widths = earlier ++ width :: later ∧ earlier.sum = place ∧
    place ≤ room ∧ room < place + width

theorem StopsAt.append
    {widths : List Nat} {room place width : Nat}
    (stops : StopsAt widths room place width)
    (more : List Nat) : StopsAt (widths ++ more) room place width := by
  rcases stops with ⟨earlier, later, rfl, begins, fits, misfits⟩
  refine ⟨earlier, later ++ more, ?_, begins, fits, misfits⟩
  rw [List.append_assoc, List.cons_append]

/-- Then the fields do not fit together. -/
theorem StopsAt.lt_sum
    {widths : List Nat} {room place width : Nat}
    (stops : StopsAt widths room place width) :
    room < widths.sum := by
  rcases stops with ⟨earlier, later, rfl, rfl, _, misfits⟩
  rw [List.sum_append, List.sum_cons]
  omega

/-- Behind fields that fit. -/
theorem StopsAt.behind
    {widths first : List Nat} {room place width : Nat} (fit : first.sum ≤ room)
    (stops : StopsAt widths (room - first.sum) place width) :
    StopsAt (first ++ widths) room (first.sum + place) width := by
  rcases stops with ⟨earlier, later, rfl, rfl, fits, misfits⟩
  refine ⟨first ++ earlier, later, ?_, List.sum_append, ?_, ?_⟩
  · rw [List.append_assoc]
  · omega
  · omega

/--
The read takes fields of the given widths: it gives a value if all of them fit
into what remains, and stops in front of the first that does not.
-/
def Consumes (read : Read α) (widths : List Nat) : Prop :=
  ∀ cursor : Cursor, cursor.position ≤ cursor.body.length →
    (widths.sum ≤ cursor.remaining ∧
      ∃ value, read.runAt cursor = (.ok value, cursor.past widths.sum)) ∨
    ∃ place width, StopsAt widths cursor.remaining place width ∧
      read.runAt cursor =
        (.error (.truncated width (cursor.remaining - place)),
          cursor.past place)

theorem consumes_pure (value : α) : (pure value : Read α).Consumes [] :=
  fun _ _ => Or.inl ⟨Nat.zero_le _, value, rfl⟩

theorem TakesKnown.consumes
    {read : Read α} {count : Nat} {denote : List UInt8 → α}
    (takes : read.TakesKnown count denote) : read.Consumes [count] := by
  intro cursor inside
  by_cases enough : cursor.Has count
  · exact Or.inl ⟨enough.2, _, takes.succeeds cursor enough⟩
  · have misfit : cursor.remaining < 0 + count := by
      rw [Nat.zero_add]
      exact Nat.lt_of_not_le fun fits => enough ⟨inside, fits⟩
    exact Or.inr ⟨0, count, ⟨[], [], rfl, rfl, Nat.zero_le _, misfit⟩,
      takes.fails cursor enough⟩

theorem Consumes.bind
    {first : Read α} {next : α → Read β} {widths more : List Nat}
    (consumes : first.Consumes widths)
    (continues : ∀ value, (next value).Consumes more) :
    (first >>= next).Consumes (widths ++ more) := by
  intro cursor inside
  rcases consumes cursor inside
    with ⟨fit, value, reads⟩ | ⟨place, width, stops, reads⟩
  · rw [runAt_bind_of_ok reads]
    have still : (cursor.past widths.sum).position ≤
        (cursor.past widths.sum).body.length :=
      (cursor.has_iff _).mp ⟨inside, fit⟩
    have later := continues value (cursor.past widths.sum) still
    simp only [Cursor.remaining_past, Cursor.past_past] at later
    rcases later with ⟨alsoFit, result, goesOn⟩ | ⟨place, width, stops, goesOn⟩
    · refine Or.inl ⟨?_, result, ?_⟩
      · rw [List.sum_append]
        omega
      · rw [goesOn, List.sum_append]
    · refine Or.inr ⟨widths.sum + place, width, stops.behind fit, ?_⟩
      rw [goesOn, Nat.sub_sub]
  · rw [runAt_bind_of_error reads]
    exact Or.inr ⟨place, width, stops.append more, rfl⟩

theorem consumes_channel : channel.Consumes [8] :=
  (takesKnown_numeral .channel).consumes

theorem consumes_channels (count : Nat) :
    (channels count).Consumes (List.replicate count 8) := by
  induction count with
  | zero => exact consumes_pure []
  | succ count ih =>
      have both := consumes_channel.bind fun next =>
        ih.bind fun others => consumes_pure (next :: others)
      rwa [List.append_nil] at both

/-! ## Headers -/

/-- Wherever the cursor stands, the recipients are read from the beginning. -/
theorem runAt_recipients (cursor : Cursor) :
    recipients.runAt cursor =
      countedChannels.runAt (Cursor.start cursor.body) := by
  have atStart : (seek 0).runAt cursor =
      (.ok (), Cursor.start cursor.body) := rfl
  rw [recipients, runAt_bind_of_ok atStart]
  rfl

/-- Without a count byte there are no recipients. -/
theorem runAt_countedChannels_nil :
    countedChannels.runAt (Cursor.start []) =
      (.error (.truncated 1 0), Cursor.start []) := by
  have noByte : u8.runAt (Cursor.start []) =
      (.error (.truncated 1 0), Cursor.start []) := rfl
  rw [countedChannels, runAt_bind_of_error noByte]

theorem runAt_countedChannels_cons (count : UInt8) (rest : List UInt8) :
    countedChannels.runAt (Cursor.start (count :: rest)) =
      (channels count.toNat).runAt ⟨count :: rest, 1⟩ := by
  have counted : u8.runAt (Cursor.start (count :: rest)) =
      (.ok count, ⟨count :: rest, 1⟩) :=
    (reads_u8 count).runAt_start rest
  rw [countedChannels, runAt_bind_of_ok counted]

theorem Consumes.addressed
    {names : Read (List Channel)} {widths : List Nat}
    (consumes : names.Consumes widths) :
    (addressed names).Consumes (widths ++ [8, 2]) :=
  consumes.bind fun recipients => consumes_channel.bind fun sender =>
    (takesKnown_numeral .u16).consumes.bind fun messageType =>
      consumes_pure (recipients, sender, messageType)

/--
The widths of the fields of a header, as the first byte of the datagram
announces them.
-/
def headerWidths (body : Datagram) : List Nat :=
  1 :: (List.replicate (Cursor.start body).recipientCount.toNat 8 ++ [8, 2])

/--
The fields of a header fit if there is a count byte and, behind it, what it
announces.
-/
theorem sum_headerWidths_le_iff (body : Datagram) :
    (headerWidths body).sum ≤ body.length ↔
      ∃ count rest, body = count :: rest ∧
        1 + 8 * count.toNat + 10 ≤ body.length := by
  cases body with
  | nil => simp [headerWidths]
  | cons count rest =>
      have sum : (headerWidths (count :: rest)).sum =
          1 + 8 * count.toNat + 10 := by
        rw [headerWidths, List.sum_cons, List.sum_append,
          List.sum_replicate_nat, Nat.mul_comm, ← Nat.add_assoc]
        rfl
      rw [sum]
      constructor
      · exact fun fit => ⟨count, rest, rfl, fit⟩
      · rintro ⟨announced, behind, same, fit⟩
        injection same with sameCount _
        rwa [← sameCount] at fit

/-- A header is read if its fields fit into the datagram. -/
theorem runAt_header_start (body : Datagram) :
    ((headerWidths body).sum ≤ body.length ∧
      ∃ value, (addressed countedChannels).runAt (Cursor.start body) =
        (.ok value, ⟨body, (headerWidths body).sum⟩)) ∨
    ∃ place width, StopsAt (headerWidths body) body.length place width ∧
      (addressed countedChannels).runAt (Cursor.start body) =
        (.error (.truncated width (body.length - place)), ⟨body, place⟩) := by
  cases body with
  | nil =>
      refine Or.inr
        ⟨0, 1, ⟨[], _, rfl, rfl, Nat.le_refl 0, Nat.zero_lt_one⟩, ?_⟩
      exact runAt_bind_of_error runAt_countedChannels_nil _
  | cons count rest =>
      -- Behind the count byte the number of channels is known, so the widths
      -- are.
      have behindCount :
          (addressed countedChannels).runAt (Cursor.start (count :: rest)) =
          (addressed (channels count.toNat)).runAt ⟨count :: rest, 1⟩ :=
        runAt_bind_congr (runAt_countedChannels_cons count rest) _
      have first : [1].sum ≤ (count :: rest).length :=
        Nat.succ_le_succ (Nat.zero_le rest.length)
      rw [behindCount]
      rcases (consumes_channels count.toNat).addressed ⟨count :: rest, 1⟩ first
        with ⟨fit, value, reads⟩ | ⟨place, width, stops, reads⟩
      · refine Or.inl ⟨?_, value, reads⟩
        rw [headerWidths, List.sum_cons, Nat.add_comm]
        exact Nat.add_le_of_le_sub first fit
      · refine Or.inr ⟨1 + place, width, stops.behind first, ?_⟩
        rw [reads, Cursor.remaining, Nat.sub_sub]
        rfl

theorem passes_addressed :
    (addressed countedChannels).Passes fun value passed =>
      (Field.header value.1 value.2.1 value.2.2).Writable ∧
        passed = (Field.header value.1 value.2.1 value.2.2).encode := by
  apply (passes_countedChannels.bind fun recipients =>
    passes_channel.bind fun sender =>
    passes_u16.bind fun messageType =>
      passes_pure (recipients, sender, messageType)).mono
  rintro value passed ⟨recipients, _, _, ⟨counted, rfl⟩, ⟨sender, _, _, rfl,
    ⟨messageType, _, _, rfl, ⟨rfl, rfl⟩, rfl⟩, rfl⟩, rfl⟩
  refine ⟨counted, ?_⟩
  rw [List.append_nil, ← List.append_assoc, List.cons_append, List.cons_append]
  rfl

/--
A header in front of raw data is written if its recipients can be counted.
-/
theorem foldlM_add?_header_eq_some_iff
    (receivers : List Channel) (sender : Channel) (messageType : UInt16)
    (rest : List UInt8) (body : Datagram) :
    [Field.header receivers sender messageType, .data rest].foldlM
        Datagram.add? [] = some body ↔
      (Field.header receivers sender messageType).Writable ∧
        (Field.header receivers sender messageType).encode ++ rest = body := by
  rw [Datagram.foldlM_add?_eq_some_iff]
  simp [Datagram.ofFields, Field.encode, Field.Writable]

/--
A header that has been written is read, and behind it what was written there.
-/
theorem runAt_header_of_written
    {receivers : List Channel} {sender : Channel} {messageType : UInt16}
    {rest : List UInt8} {body : Datagram}
    (written : [Field.header receivers sender messageType, .data rest].foldlM
      Datagram.add? [] = some body) :
    ∃ reached, (addressed countedChannels).runAt (Cursor.start body) =
        (.ok (receivers, sender, messageType), reached) ∧
      remainder.runAt reached = (.ok rest, ⟨body, body.length⟩) := by
  rcases (foldlM_add?_header_eq_some_iff _ _ _ _ _).mp written
    with ⟨writable, rfl⟩
  refine ⟨_, (reads_field writable).runAt_start rest, ?_⟩
  show (Except.ok (List.drop _ _), _) = _
  rw [List.drop_left]
  rfl

/-- A header that has been read is there, in front of everything else. -/
theorem written_of_runAt_header
    {receivers : List Channel} {sender : Channel} {messageType : UInt16}
    {body : Datagram} {reached : Cursor}
    (succeeds : (addressed countedChannels).runAt (Cursor.start body) =
      (.ok (receivers, sender, messageType), reached)) :
    [Field.header receivers sender messageType, .data reached.ahead].foldlM
      Datagram.add? [] = some body := by
  rcases passes_addressed _ _ _ succeeds with ⟨_, ⟨writable, rfl⟩, split⟩
  exact (foldlM_add?_header_eq_some_iff _ _ _ _ _).mpr ⟨writable, split.symm⟩

/--
From any position, a header is read exactly if the datagram is long enough for
the recipients it announces, a sender and a message type.  Writing the header
again with everything behind it then gives the same bytes, and what has been
written so is read.  Otherwise the read stops in front of the first field that
does not fit and says how long that field is and how many bytes there are.
-/
theorem headers_are_read_as_written (body : Datagram) (position : Nat) :
    let outcome := (addressed recipients).runAt ⟨body, position⟩
    ((∃ value reached, outcome = (.ok value, reached)) ↔
      ∃ count rest, body = count :: rest ∧
        1 + 8 * count.toNat + 10 ≤ body.length) ∧
    (∀ receivers sender messageType reached,
      outcome = (.ok (receivers, sender, messageType), reached) →
        ∃ rest, remainder.runAt reached = (.ok rest, ⟨body, body.length⟩) ∧
          [Field.header receivers sender messageType, .data rest].foldlM
            Datagram.add? [] = some body) ∧
    (∀ receivers sender messageType rest,
      [Field.header receivers sender messageType, .data rest].foldlM
          Datagram.add? [] = some body →
        ∃ reached, outcome = (.ok (receivers, sender, messageType), reached) ∧
          remainder.runAt reached = (.ok rest, ⟨body, body.length⟩)) ∧
    (∀ refusal reached, outcome = (.error refusal, reached) →
      ∃ place width, StopsAt (headerWidths body) body.length place width ∧
        refusal = .truncated width (body.length - place) ∧
          reached = ⟨body, place⟩) := by
  intro outcome
  have isOutcome :
    outcome = (addressed countedChannels).runAt (Cursor.start body) :=
    runAt_bind_congr (runAt_recipients ⟨body, position⟩) _
  rw [isOutcome]
  refine ⟨?_, ?_, fun _ _ _ _ written => runAt_header_of_written written, ?_⟩
  · rw [← sum_headerWidths_le_iff]
    rcases runAt_header_start body
      with ⟨fit, value, reads⟩ | ⟨place, width, stops, stopped⟩
    · exact iff_of_true ⟨value, _, reads⟩ fit
    · refine iff_of_false ?_ (Nat.not_le_of_lt stops.lt_sum)
      rintro ⟨value, reached, succeeds⟩
      rw [stopped] at succeeds
      cases succeeds
  · intro receivers sender messageType reached succeeds
    have written := written_of_runAt_header succeeds
    rcases runAt_header_of_written written with ⟨_, reads, behind⟩
    rw [succeeds] at reads
    injection reads with _ there
    rw [← there] at behind
    exact ⟨reached.ahead, behind, written⟩
  · intro refusal reached fails
    rcases runAt_header_start body
      with ⟨_, value, reads⟩ | ⟨place, width, stops, stopped⟩
    · rw [reads] at fails
      cases fails
    · rw [stopped] at fails
      injection fails with refused there
      injection refused with refused
      exact ⟨place, width, stops, refused.symm, there.symm⟩

/--
A whole header and something behind it, and one whose second recipient is cut
short.
-/
theorem headers_are_read_as_written_if_they_are_whole :
    let whole := 1 :: (channelBytes 4001 ++ channelBytes 1000 ++ [3, 0, 7, 8])
    let cut := 2 :: (channelBytes 4001 ++ [1, 2, 3])
    (∃ rest, remainder.runAt ⟨whole, 19⟩ = (.ok rest, ⟨whole, whole.length⟩) ∧
      [Field.header [4001] 1000 3, .data rest].foldlM Datagram.add? [] =
        some whole) ∧
    (addressed recipients).runAt ⟨cut, 40⟩ =
      (.error (.truncated 8 3), ⟨cut, 9⟩) ∧
      ∃ place width, StopsAt (headerWidths cut) cut.length place width ∧
        FormatError.truncated 8 3 = .truncated width (cut.length - place) ∧
        (⟨cut, 9⟩ : Cursor) = ⟨cut, place⟩ := by
  intro whole cut
  have succeeds : (addressed recipients).runAt ⟨whole, 0⟩ =
      (.ok ([4001], 1000, 3), ⟨whole, 19⟩) := by
    decide
  have fails : (addressed recipients).runAt ⟨cut, 40⟩ =
      (.error (.truncated 8 3), ⟨cut, 9⟩) := by
    decide
  exact ⟨(headers_are_read_as_written whole 0).2.1 _ _ _ _ succeeds, fails,
    (headers_are_read_as_written cut 40).2.2.2 _ _ fails⟩

end Read

end ChannelRouter
