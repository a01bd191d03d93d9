import DataSquare.Bytes

/-!
# Characters and numbers in text

A class of characters that a standard lists is a table of ranges of character numbers, each with
its first and its last number. White space is what leaves a gap in any script. Digits are read in
either case and in a base up to 36, one part after the other as all at once. An index in a query is
written in decimal, with leading zeros and one plus sign allowed, and the first offending character
decides between its faults. Main statement: a character is in a table exactly when its number is in
one of the ranges.
-/
namespace DataSquare.Text

/-- Whether a character is in one of some ranges. -/
def inRanges (ranges : Array (Nat × Nat)) (char : Char) : Bool :=
  ranges.any fun (low, high) => low ≤ char.toNat && char.toNat ≤ high

/-- A character is in a table exactly when a range of the table holds its number. -/
theorem inRanges_iff {ranges : Array (Nat × Nat)} {char : Char} :
    inRanges ranges char = true ↔
      ∃ range ∈ ranges, range.1 ≤ char.toNat ∧ char.toNat ≤ range.2 := by
  simp only [inRanges, Array.any_eq_true', Bool.and_eq_true, decide_eq_true_eq]

/-- Whether a character leaves a gap. -/
def isBlank (char : Char) : Bool :=
  let number := char.toNat
  (9 ≤ number && number ≤ 13) || number = 0x20 || number = 0x85 || number = 0xa0 ||
    number = 0x1680 || (0x2000 ≤ number && number ≤ 0x200a) || number = 0x2028 ||
    number = 0x2029 || number = 0x202f || number = 0x205f || number = 0x3000

/-- A text without the white space at its ends. -/
def trimmed (text : List Char) : List Char :=
  ((text.dropWhile isBlank).reverse.dropWhile isBlank).reverse

/-- A character that core counts as white space leaves a gap. -/
theorem isBlank_of_isWhitespace {char : Char} (h : char.isWhitespace = true) :
    isBlank char = true := by
  simp only [Char.isWhitespace, Bool.or_eq_true, decide_eq_true_eq] at h
  rcases h with ((rfl | rfl) | rfl) | rfl <;> decide

/-- The value of a digit in either case, which is 36 for what is no digit. -/
def digitValue (char : Char) : Nat :=
  if '0' ≤ char ∧ char ≤ '9' then char.toNat - 48
  else if 'a' ≤ char ∧ char ≤ 'z' then char.toNat - 87
  else if 'A' ≤ char ∧ char ≤ 'Z' then char.toNat - 55
  else 36

/-- The value of a digit of a base. -/
def digit? (base : Nat) (char : Char) : Option Nat :=
  if digitValue char < base then some (digitValue char) else none

/-- Reads digits on top of the value of those before. -/
def digits? (base value : Nat) : List Char → Option Nat
  | [] => some value
  | char :: rest =>
    match digit? base char with
    | none => none
    | some digit => digits? base (value * base + digit) rest

/-- Digits are read on top of the value of those before them. -/
theorem digits?_append (base value : Nat) (first second : List Char) :
    digits? base value (first ++ second) =
      (digits? base value first).bind fun value => digits? base value second := by
  fun_induction digits? base value first <;> simp_all [digits?]

/-- The value of a digit is below the base. -/
theorem digit?_lt {base : Nat} {char : Char} {value : Nat} (h : digit? base char = some value) :
    value < base := by
  unfold digit? at h
  split at h <;> simp_all

/-- What is wrong with a number. -/
inductive DecimalFault where
  /-- There is no text at all. -/
  | empty
  /-- A character is no decimal digit. -/
  | invalidDigit
  /-- The number does not fit 64 bits. -/
  | tooLarge
deriving DecidableEq, Repr

/-- The wording of a fault. -/
def DecimalFault.message : DecimalFault → String
  | .empty => "cannot parse integer from empty string"
  | .invalidDigit => "invalid digit found in string"
  | .tooLarge => "number too large to fit in target type"

instance : ToString DecimalFault := ⟨DecimalFault.message⟩

/-- Reads digits after the value of those before. -/
def readDigits (value : Nat) : List Char → Except DecimalFault Nat
  | [] => .ok value
  | digit :: rest =>
    if '0' ≤ digit ∧ digit ≤ '9' then
      let next := value * 10 + (digit.toNat - 48)
      if next < UInt64.size then readDigits next rest else .error .tooLarge
    else .error .invalidDigit

/-- Reads a number of at most 64 bits. A sign without digits is no number. -/
def readDecimal (text : List Char) : Except DecimalFault Nat :=
  match text with
  | [] => .error .empty
  | ['+'] => .error .invalidDigit
  | '+' :: digits => readDigits 0 digits
  | digits => readDigits 0 digits

end DataSquare.Text
