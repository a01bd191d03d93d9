import DataSquare.Yaml.Scalar.Gap

/-!
# Scalars without quotes

A scalar without quotes starts with no character that means something else, and ends before a
comment, before a colon with a blank after it, between brackets before an indicator, at a mark, or
with the first line that is not indented far enough. Main statement: the words of such a scalar
have no blanks.
-/
namespace DataSquare.Yaml

/-- Whether a scalar without quotes may start a text. -/
def startsPlain (flow : Bool) : List Char → Bool
  | [] => false
  | '-' :: rest => !(rest.head?.any isBlank)
  | '?' :: rest => !flow && !startsBlank rest
  | ':' :: rest => !flow && !startsBlank rest
  | char :: _ =>
    !isFlowIndicator char && !isBlank char && !isBreak char &&
      !(['#', '&', '*', '!', '|', '>', '\'', '"', '%', '@', '\x60'].contains char)

/-- The word that a text starts with, after characters that are held last first. Between brackets
no indicator stands right after a colon. -/
def plainWord? (flow : Bool) (read : List Char) : List Char → Option (List Char)
  | [] => some read.reverse
  | char :: rest =>
    if isBlank char || isBreak char then some read.reverse
    else if flow && char = ':' && rest.head?.any (fun next => next = '?' || isFlowIndicator next)
    then none
    else if (char = ':' && startsBlank rest) || (flow && isFlowIndicator char) then
      some read.reverse
    else plainWord? flow (char :: read) rest

/-- A scalar without quotes. -/
structure Plain where
  /-- Its text. -/
  text : List Char
  /-- Whether a line was left after its last word. -/
  leavesLine : Bool
  /-- The place after it and the gap that follows it. -/
  after : Place
deriving DecidableEq, Repr

/-- A scalar without quotes from a place on, after words that are held last character first and the
gap after them. Its further lines start from a column on, and the number of steps is bounded. -/
def plain? (flow : Bool) (indent fuel : Nat) (read : List Char) (gap : Gap) : Option Plain :=
  match fuel with
  | 0 => none
  | fuel + 1 =>
    let place := gap.after
    let ended (read : List Char) (leavesLine : Bool) (place : Place) : Option Plain :=
      some ⟨read.reverse, leavesLine, place⟩
    if place.isAtAnyMark || place.rest.head? = some '#' then ended read gap.leavesLine place
    else
      match plainWord? flow [] place.rest with
      | none => none
      | some [] => ended read gap.leavesLine place
      | some word =>
        let read := word.reverse ++ gap.text.reverse ++ read
        let place := place.pass word.length
        if !startsBlank place.rest || place.rest.isEmpty then ended read false place
        else
          match Gap.at? indent place with
          | none => none
          | some gap =>
            if !flow && gap.after.column < indent then ended read gap.leavesLine gap.after
            else plain? flow indent fuel read gap

/-- The words of scalars without quotes have no blanks. -/
theorem isBlank_of_mem_plainWord? {flow : Bool} {read text word : List Char}
    (h : plainWord? flow read text = some word) (hread : ∀ char ∈ read, isBlank char = false) :
    ∀ char ∈ word, isBlank char = false := by
  fun_induction plainWord? flow read text <;> simp_all <;> grind

end DataSquare.Yaml
