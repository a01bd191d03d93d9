import DataSquare.Bytes

/-!
# Variable length integers

A unit in a compact sequence is preceded by its length in groups of seven bits, the lowest group
first. The high bit of a byte says that another group follows. A length has at most ten groups,
and what the tenth holds above the 64th bit is dropped.
-/
namespace DataSquare.Varint

/-- The groups of seven bits of an integer, lowest first, every byte but the last one marked. -/
def encode (value : Nat) : Bytes :=
  if value < 128 then [UInt8.ofNat value]
  else UInt8.ofNat (value % 128 + 128) :: encode (value / 128)
termination_by value
decreasing_by omega

/-- The number of groups of seven bits of an integer, at least one. -/
def size (value : Nat) : Nat :=
  if value < 128 then 1 else 1 + size (value / 128)
termination_by value
decreasing_by omega

/-- Reads groups on top of `shift` bits that make up `value`. -/
def decodeFrom (shift value : Nat) : Bytes → Option (Nat × Bytes)
  | [] => none
  | byte :: rest =>
    let next := (value + (byte.toNat % 128) <<< shift) % UInt64.size
    if byte < 128 then some (next, rest)
    else if 63 ≤ shift then none
    else decodeFrom (shift + 7) next rest

/-- Reads one integer from the front, with the bytes after it. Nothing is read from an empty
byte string, and nothing when the tenth byte is still marked. -/
def decode (bytes : Bytes) : Option (Nat × Bytes) := decodeFrom 0 0 bytes

/-- An encoding has as many bytes as the integer has groups. -/
theorem length_encode (value : Nat) : (encode value).length = size value := by
  fun_induction encode value with
  | case1 value h => rw [size]; simp [h]
  | case2 value h ih => rw [size]; simp [h, ih]; omega

end DataSquare.Varint
