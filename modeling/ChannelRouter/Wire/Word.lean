/-!
# Little-endian words

Every number on the wire is written with its least significant byte first, in
a number of bytes that its field fixes.
-/

namespace ChannelRouter

/-- A datagram body: recipients, sender, type and payload as bytes. -/
abbrev Datagram := List UInt8

namespace Word

/-- The given number of bytes of a value, the least significant first. -/
def bytes : (width value : Nat) → List UInt8
  | 0, _ => []
  | width + 1, value => UInt8.ofNat (value % 256) :: bytes width (value / 256)

/-- The value that bytes denote, the least significant first. -/
def value : List UInt8 → Nat
  | [] => 0
  | byte :: rest => byte.toNat + 256 * value rest

@[simp]
theorem length_bytes (width number : Nat) :
    (bytes width number).length = width := by
  induction width generalizing number with
  | zero => rfl
  | succ width ih => simp [bytes, ih]

end Word

end ChannelRouter
