/-!
# Sets of characters

A set is built from ranges of characters by union, intersection and difference. Main statement: the
complement holds exactly the characters that the set does not hold.
-/
namespace DataSquare.Text

/-- A set of characters. -/
inductive CharSet where
  /-- The characters from one to another. -/
  | range (low high : Char)
  /-- No character. -/
  | none
  /-- Every character. -/
  | all
  /-- What is in either of two sets. -/
  | union (left right : CharSet)
  /-- What is in both of two sets. -/
  | inter (left right : CharSet)
  /-- What is in the first of two sets but not in the second. -/
  | diff (left right : CharSet)
  /-- What is in exactly one of two sets. -/
  | symmDiff (left right : CharSet)
deriving DecidableEq, Repr

namespace CharSet

/-- Whether a set holds a character. -/
def contains (char : Char) : CharSet → Bool
  | .range low high => low ≤ char && char ≤ high
  | .none => false
  | .all => true
  | .union left right => left.contains char || right.contains char
  | .inter left right => left.contains char && right.contains char
  | .diff left right => left.contains char && !right.contains char
  | .symmDiff left right => left.contains char != right.contains char

/-- The set of one character. -/
def single (char : Char) : CharSet := .range char char

/-- What is in any of some sets. -/
def unions : List CharSet → CharSet
  | [] => .none
  | [set] => set
  | set :: rest => .union set (unions rest)

/-- The characters from the first to the second of any of some pairs. -/
def ranges (pairs : List (Char × Char)) : CharSet :=
  unions (pairs.map fun (low, high) => .range low high)

/-- What is not in a set. -/
def compl (set : CharSet) : CharSet := .diff .all set

/-- The complement of a set holds exactly what the set does not hold. -/
theorem contains_compl {set : CharSet} {char : Char} :
    set.compl.contains char = !set.contains char := by
  simp [compl, contains]

/-- The set of one character holds that character only. -/
theorem contains_single {char other : Char} :
    (single char).contains other = true ↔ other = char := by
  simp only [single, contains, Bool.and_eq_true, decide_eq_true_eq]
  exact ⟨fun h => (Char.le_antisymm h.1 h.2).symm, fun h => h ▸ ⟨Char.le_refl _, Char.le_refl _⟩⟩

/-- The union of sets holds exactly what one of them holds. -/
theorem contains_unions {sets : List CharSet} {char : Char} :
    (unions sets).contains char = sets.any (·.contains char) := by
  fun_induction unions sets <;> simp_all [contains]

end CharSet

end DataSquare.Text
