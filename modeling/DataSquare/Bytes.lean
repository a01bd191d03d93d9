/-!
# Byte strings

A byte string is a list of bytes. Fixed width byte strings carry their width as a proof, and
integers are written at a fixed width in either byte order. Main statements: a written integer
has the width asked for, and reading it back gives the integer.
-/
namespace DataSquare

/-- A string of bytes, first byte first. -/
abbrev Bytes := List UInt8

/-- A byte string of exactly `width` bytes. -/
structure FixedBytes (width : Nat) where
  /-- The bytes in order. -/
  bytes : Bytes
  /-- There are exactly `width` of them. -/
  length_eq : bytes.length = width
deriving DecidableEq, Repr

namespace FixedBytes

variable {width : Nat}

/-- A byte string of the right length as a fixed width one, otherwise nothing. -/
def ofBytes? (width : Nat) (bytes : Bytes) : Option (FixedBytes width) :=
  if h : bytes.length = width then some ⟨bytes, h⟩ else none

/-- The first `width` bytes, with zeros after a shorter byte string. -/
def fit (width : Nat) (bytes : Bytes) : FixedBytes width :=
  ⟨(bytes ++ List.replicate (width - bytes.length) 0).take width, by
    simp only [List.length_take, List.length_append, List.length_replicate]; omega⟩

/-- The byte string that repeats one byte. -/
def replicate (width : Nat) (byte : UInt8) : FixedBytes width :=
  ⟨List.replicate width byte, List.length_replicate⟩

/-- Equal bytes make equal fixed width byte strings. -/
theorem ext {left right : FixedBytes width} (h : left.bytes = right.bytes) : left = right := by
  cases left; cases right; simp_all

/-- Reading the bytes of a fixed width byte string gives it back. -/
theorem ofBytes?_bytes (value : FixedBytes width) : ofBytes? width value.bytes = some value := by
  simp [ofBytes?, value.length_eq]

/-- A byte string that already has the width is kept as it is. -/
theorem bytes_fit_of_length_eq {bytes : Bytes} (h : bytes.length = width) :
    (fit width bytes).bytes = bytes := by
  simp [fit, ← h]

end FixedBytes

/-- An integer written at `width` bytes, least significant byte first. -/
def littleEndian : Nat → Nat → Bytes
  | 0, _ => []
  | width + 1, value => UInt8.ofNat (value % 256) :: littleEndian width (value / 256)

/-- The integer whose least significant byte comes first. -/
def ofLittleEndian : Bytes → Nat
  | [] => 0
  | byte :: rest => byte.toNat + 256 * ofLittleEndian rest

/-- An integer written at `width` bytes, most significant byte first. -/
def bigEndian (width value : Nat) : Bytes := (littleEndian width value).reverse

/-- The integer whose most significant byte comes first. -/
def ofBigEndian (bytes : Bytes) : Nat := ofLittleEndian bytes.reverse

/-- The number of integers that can be written at a width. -/
def capacity : Nat → Nat
  | 0 => 1
  | width + 1 => 256 * capacity width

/-- A written integer has the width asked for. -/
@[simp] theorem length_littleEndian (width value : Nat) :
    (littleEndian width value).length = width := by
  induction width generalizing value with
  | zero => rfl
  | succ width ih => simp [littleEndian, ih]

/-- A written integer has the width asked for. -/
@[simp] theorem length_bigEndian (width value : Nat) :
    (bigEndian width value).length = width := by
  simp [bigEndian]

/-- Reading a written integer gives it back when it fits the width. -/
theorem ofLittleEndian_littleEndian {width value : Nat} (h : value < capacity width) :
    ofLittleEndian (littleEndian width value) = value := by
  induction width generalizing value with
  | zero =>
    have : value = 0 := by simpa [capacity] using h
    subst this; rfl
  | succ width ih =>
    have hq : value / 256 < capacity width := by
      rw [capacity] at h
      omega
    have hm : value % 256 < 256 := Nat.mod_lt _ (by decide)
    simp only [littleEndian, ofLittleEndian, ih hq, UInt8.toNat_ofNat']
    omega

/-- Reading a written integer gives it back when it fits the width. -/
theorem ofBigEndian_bigEndian {width value : Nat} (h : value < capacity width) :
    ofBigEndian (bigEndian width value) = value := by
  simp [ofBigEndian, bigEndian, ofLittleEndian_littleEndian h]

/-- A read integer fits the width it was read from. -/
theorem ofLittleEndian_lt (bytes : Bytes) : ofLittleEndian bytes < capacity bytes.length := by
  induction bytes with
  | nil => decide
  | cons byte rest ih =>
    have hb := byte.toNat_lt
    simp only [ofLittleEndian, List.length_cons, capacity]
    omega

/-- Writing a read integer at its own width gives the bytes back. -/
theorem littleEndian_ofLittleEndian (bytes : Bytes) :
    littleEndian bytes.length (ofLittleEndian bytes) = bytes := by
  induction bytes with
  | nil => rfl
  | cons byte rest ih =>
    have hb := byte.toNat_lt
    have hm : (byte.toNat + 256 * ofLittleEndian rest) % 256 = byte.toNat := by omega
    have hd : (byte.toNat + 256 * ofLittleEndian rest) / 256 = ofLittleEndian rest := by omega
    simp only [ofLittleEndian, List.length_cons, littleEndian, hm, hd, ih, UInt8.ofNat_toNat]

/-- The pieces of `size` bytes that a byte string falls into, in order. The last one may be
shorter, and none is empty. -/
def pieces (size : Nat) : Bytes → List Bytes
  | [] => []
  | byte :: rest => (byte :: rest.take (size - 1)) :: pieces size (rest.drop (size - 1))
termination_by bytes => bytes.length
decreasing_by simp only [List.length_drop, List.length_cons]; omega

end DataSquare
