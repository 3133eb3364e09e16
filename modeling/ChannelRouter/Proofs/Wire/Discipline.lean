import ChannelRouter.Proofs.Wire.Checked

/-!
# The discipline of a cursor

What an access does to the cursor is said for the two shapes that a read can
have, bytes of a known number and bytes behind their count.  A read that fails
has left the cursor in front of the first part that is not there.

Everything but a move leaves the cursor where it was or brings it within the
datagram, whether it succeeds or not, so a run without moves never gets past the
end.
-/

namespace ChannelRouter

namespace Read

variable {α β : Type}

/-! ## Bytes behind their count -/

/--
The read takes a count of four bytes and then so many bytes, of which it says
what they denote, or that they denote nothing.  It stops in front of the part
that is not there.
-/
structure TakesCounted (read : Read α)
    (denote : List UInt8 → Except FormatError α) : Prop where
  uncounted : ∀ cursor : Cursor, ¬ cursor.Has 4 →
    read.runAt cursor = (.error (.truncated 4 cursor.remaining), cursor)
  cut : ∀ cursor : Cursor, cursor.Has 4 →
    let count := Word.value (cursor.upcoming 4)
    ¬ (cursor.past 4).Has count →
      read.runAt cursor =
        (.error (.truncated count (cursor.past 4).remaining), cursor.past 4)
  taken : ∀ cursor : Cursor, cursor.Has 4 →
    let count := Word.value (cursor.upcoming 4)
    (cursor.past 4).Has count →
      read.runAt cursor =
        (denote ((cursor.past 4).upcoming count), cursor.past (4 + count))

theorem takesCounted_blob : blob.TakesCounted .ok := by
  have counts : size.TakesKnown 4 fun bytes =>
      UInt32.ofNat (Word.value bytes) :=
    takesKnown_numeral .size
  -- Four bytes denote a number that 32 bits hold, so none of the count is lost.
  have kept : ∀ cursor : Cursor, cursor.Has 4 →
      (UInt32.ofNat (Word.value (cursor.upcoming 4))).toNat =
        Word.value (cursor.upcoming 4) := by
    intro cursor prefixed
    have fits := Word.value_lt (cursor.upcoming 4)
    rw [Cursor.length_upcoming prefixed] at fits
    exact UInt32.toNat_ofNat_of_lt' fits
  constructor
  · intro cursor short
    rw [blob, runAt_bind_of_error (counts.fails cursor short)]
  · intro cursor prefixed count short
    rw [blob, runAt_bind_of_ok (counts.succeeds cursor prefixed),
      kept cursor prefixed]
    exact runAt_take_of_not_has short
  · intro cursor prefixed count enough
    rw [blob, runAt_bind_of_ok (counts.succeeds cursor prefixed),
      kept cursor prefixed, ← Cursor.past_past]
    exact runAt_take_of_has enough

/-- The value of UTF-8 bytes. -/
def decodeText (bytes : List UInt8) : Except FormatError String :=
  match String.fromUTF8? ⟨bytes.toArray⟩ with
  | some value => .ok value
  | none => .error .invalidText

theorem takesCounted_text : text.TakesCounted decodeText := by
  rcases takesCounted_blob with ⟨uncounted, cut, taken⟩
  constructor
  · intro cursor short
    rw [text, runAt_bind_of_error (uncounted cursor short)]
  · intro cursor prefixed count short
    rw [text, runAt_bind_of_error (cut cursor prefixed short)]
  · intro cursor prefixed count enough
    rw [text, runAt_bind_of_ok (taken cursor prefixed enough), decodeText]
    cases String.fromUTF8? ⟨((cursor.past 4).upcoming count).toArray⟩ <;> rfl

/-! ## Where the cursor can get -/

/-- The cursor stays where it is, or is within the same datagram afterwards. -/
def StaysWithin (read : Read α) : Prop :=
  ∀ cursor, (read.runAt cursor).2 = cursor ∨
    (read.runAt cursor).2.body = cursor.body ∧
      (read.runAt cursor).2.position ≤ cursor.body.length

theorem staysWithin_still (tell : Cursor → Except FormatError α) :
    StaysWithin (ExceptT.mk fun cursor => (tell cursor, cursor) : Read α) :=
  fun _ => Or.inl rfl

theorem TakesKnown.staysWithin
    {read : Read α} {count : Nat} {denote : List UInt8 → α}
    (takes : read.TakesKnown count denote) : read.StaysWithin := by
  intro cursor
  by_cases enough : cursor.Has count
  · rw [takes.succeeds cursor enough]
    exact Or.inr ⟨rfl, (cursor.has_iff count).mp enough⟩
  · rw [takes.fails cursor enough]
    exact Or.inl rfl

theorem StaysWithin.bind
    {first : Read α} {next : α → Read β}
    (stays : first.StaysWithin)
    (continues : ∀ value, (next value).StaysWithin) :
    (first >>= next).StaysWithin := by
  intro cursor
  have here := stays cursor
  rcases reads : first.runAt cursor with ⟨outcome, reached⟩
  rw [reads] at here
  cases outcome with
  | error cause => rwa [runAt_bind_of_error reads]
  | ok value =>
      rw [runAt_bind_of_ok reads]
      rcases continues value reached with still | ⟨sameBody, inside⟩
      · rwa [still]
      · rcases here with rfl | ⟨body, _⟩
        · exact Or.inr ⟨sameBody, inside⟩
        · exact Or.inr ⟨sameBody.trans body, body ▸ inside⟩

theorem staysWithin_blob : blob.StaysWithin :=
  (takesKnown_numeral .size).staysWithin.bind fun count =>
    (takesKnown_take (UInt32.toNat count)).staysWithin

theorem staysWithin_text : text.StaysWithin := by
  apply staysWithin_blob.bind
  intro bytes
  cases String.fromUTF8? ⟨bytes.toArray⟩ with
  | none => exact staysWithin_still fun _ => .error .invalidText
  | some value => exact staysWithin_still fun _ => .ok value

theorem staysWithin_channels (count : Nat) : (channels count).StaysWithin := by
  induction count with
  | zero => exact staysWithin_still fun _ => .ok []
  | succ count ih =>
      exact (takesKnown_numeral .channel).staysWithin.bind fun next =>
        ih.bind fun others => staysWithin_still fun _ => .ok (next :: others)

theorem staysWithin_recipients : recipients.StaysWithin := by
  have atStart : (seek 0).StaysWithin :=
    fun cursor => Or.inr ⟨rfl, Nat.zero_le _⟩
  exact atStart.bind fun _ =>
    (takesKnown_numeral .u8).staysWithin.bind fun count =>
      staysWithin_channels (UInt8.toNat count)

theorem staysWithin_remainder : remainder.StaysWithin :=
  fun _ => Or.inr ⟨rfl, Nat.le_refl _⟩

end Read

namespace Access

theorem staysWithin_read {access : Access} (reads : access.moves = false) :
    access.read.StaysWithin := by
  cases access with
  | number numeral => exact (Read.takesKnown_numeral numeral).staysWithin
  | skip count =>
      exact ((Read.takesKnown_take count).map fun _ => ()).staysWithin
  | data count => exact (Read.takesKnown_take count).staysWithin
  | blob => exact Read.staysWithin_blob
  | text => exact Read.staysWithin_text
  | datagram => exact Read.staysWithin_blob
  | remainder => exact Read.staysWithin_remainder
  | recipients => exact Read.staysWithin_recipients
  | seek place => cases reads
  | seekPayload => cases reads
  | recipientCount | isControl | sender | messageType | position | remaining
  | whole =>
      exact Read.staysWithin_still _

/-- Without a move, a run that begins within the datagram ends there. -/
theorem position_run_le
    {accesses : List Access} (reads : ∀ access ∈ accesses, access.moves = false)
    {cursor : Cursor} (inside : cursor.position ≤ cursor.body.length) :
    (run accesses cursor).2.position ≤ cursor.body.length := by
  induction accesses generalizing cursor with
  | nil => exact inside
  | cons access others ih =>
      rcases List.forall_mem_cons.mp reads with ⟨first, rest⟩
      show (run others (access.read.runAt cursor).2).2.position ≤
        cursor.body.length
      rcases staysWithin_read first cursor with still | ⟨body, within⟩
      · rw [still]
        exact ih rest inside
      · rw [← body] at within ⊢
        exact ih rest within

/--
Whatever is asked of a cursor, and wherever it has been moved, no sum leaves 64
bits and no cut leaves the datagram.  Numerals, skips and raw data are taken if
they are there, and otherwise the cursor stays where it was.  A blob, a text or
an embedded datagram stops in front of its count if that is not there, behind
the count if the bytes are not there, and behind the bytes if they are not what
they should be.  Nothing but a move puts the cursor past the end.
-/
theorem cursors_are_disciplined (body : Datagram) (accesses : List Access) :
    let fresh := Cursor.start body
    (body.length < 2 ^ 64 → runChecked accesses fresh =
      some (run accesses fresh)) ∧
    (∀ numeral, (number numeral).read.TakesKnown numeral.width
      numeral.ofBytes) ∧
    (∀ count, (skip count).read.TakesKnown count fun _ => ()) ∧
    (∀ count, (data count).read.TakesKnown count id) ∧
    blob.read.TakesCounted .ok ∧
    datagram.read.TakesCounted .ok ∧
    text.read.TakesCounted Read.decodeText ∧
    (∀ access : Access, access.moves = false → ∀ cursor : Cursor,
      (access.read.runAt cursor).2 = cursor ∨
        (access.read.runAt cursor).2.position ≤ cursor.body.length) ∧
    ((∀ access ∈ accesses, access.moves = false) →
      (run accesses fresh).2.position ≤ body.length) := by
  intro fresh
  refine ⟨fun addressed => runChecked_eq addressed accesses,
    Read.takesKnown_numeral,
    fun count => (Read.takesKnown_take count).map fun _ => (),
    Read.takesKnown_take,
    Read.takesCounted_blob, Read.takesCounted_blob,
      Read.takesCounted_text, ?_, ?_⟩
  · intro access reads cursor
    exact (staysWithin_read reads cursor).imp_right And.right
  · exact fun reads => position_run_le reads (Nat.zero_le body.length)

/-- A blob that is cut short, read after a move far past the end. -/
theorem cursors_are_disciplined_past_the_end :
    let body : Datagram := [3, 0, 0, 0, 104, 105]
    let accesses :=
      [seek (2 ^ 64 - 1), skip 0, remainder, seekPayload,
        messageType, seek 0, blob]
    let far : Cursor := ⟨body, 2 ^ 64 - 1⟩
    runChecked accesses (Cursor.start body) =
      some (run accesses (Cursor.start body)) ∧
      (skip 0).read.runAt far = (.error (.truncated 0 0), far) ∧
      blob.read.runAt ⟨body, 0⟩ = (.error (.truncated 3 2), ⟨body, 4⟩) ∧
      (run [blob, skip 2] (Cursor.start body)).2.position ≤ body.length := by
  intro body accesses far
  rcases cursors_are_disciplined body accesses with
    ⟨checked, _, skips, _, blobs, _, _, _, _⟩
  have addressed : body.length < 2 ^ 64 := by decide
  have skipped := (skips 0).fails far (by decide)
  have spent : far.remaining = 0 := Nat.sub_eq_zero_of_le (by decide)
  rw [spent] at skipped
  refine ⟨checked addressed, skipped, ?_, ?_⟩
  · exact blobs.cut ⟨body, 0⟩ (by decide) (by decide)
  · exact (cursors_are_disciplined body [blob, skip 2]).2.2.2.2.2.2.2.2
      (by decide)

end Access

end ChannelRouter
