/-!
# Cuts of a text

Parts of a text that are given by numbers of bytes, where a character has one to four. Main
statement: a text falls into the same two parts again when it is cut after the bytes of the first.
-/
namespace DataSquare.Text

/-- The number of bytes of a text. -/
def byteLength : List Char → Nat
  | [] => 0
  | char :: rest => char.utf8Size + byteLength rest

/-- The two parts of a text around a place given in bytes, unless it is inside of a character or
beyond the end. The first part is read on top of what is in front, last first. -/
def splitBytes? (front : List Char) : Nat → List Char → Option (List Char × List Char)
  | 0, text => some (front.reverse, text)
  | _ + 1, [] => none
  | count + 1, char :: rest =>
    if char.utf8Size ≤ count + 1 then
      splitBytes? (char :: front) (count + 1 - char.utf8Size) rest
    else none

/-- The part of a text from a place on up to another. -/
def cut? (text : List Char) (start stop : Nat) : Option (List Char) := do
  let (_, rest) ← splitBytes? [] start text
  let (part, _) ← splitBytes? [] (stop - start) rest
  some part

/-- The part of a text from a place on. -/
def cutFrom? (text : List Char) (start : Nat) : Option (List Char) :=
  (splitBytes? [] start text).map Prod.snd

/-- Parts have as many bytes together as each has. -/
theorem byteLength_append (first second : List Char) :
    byteLength (first ++ second) = byteLength first + byteLength second := by
  induction first with
  | nil => simp [byteLength]
  | cons char rest ih => simp [byteLength, ih, Nat.add_assoc]

/-- A text is cut after the bytes of its first part into its two parts. -/
theorem splitBytes?_byteLength (front first second : List Char) :
    splitBytes? front (byteLength first) (first ++ second) =
      some (front.reverse ++ first, second) := by
  induction first generalizing front with
  | nil => simp [byteLength, splitBytes?]
  | cons char rest ih =>
    obtain ⟨size, hsize⟩ : ∃ size, char.utf8Size = size + 1 :=
      ⟨char.utf8Size - 1, by have := char.utf8Size_pos; omega⟩
    have hcount : byteLength (char :: rest) = (size + byteLength rest) + 1 := by
      simp only [byteLength, hsize]; omega
    have hrest : size + byteLength rest + 1 - char.utf8Size = byteLength rest := by omega
    have hle : char.utf8Size ≤ size + byteLength rest + 1 := by omega
    rw [hcount, List.cons_append, splitBytes?, if_pos hle, hrest, ih]
    simp

end DataSquare.Text
