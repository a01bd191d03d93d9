import Mathlib
import DataSquare.Hash.Sha256

/-!
# Collisions

No statement of the library assumes that SHA-256 has no collisions. What rests on it names the
messages that a computation hashes, and concludes with two of them that are different and have
one digest. Arguments are made about messages without such a pair.
-/
namespace DataSquare.Sha256

/-- Two of the messages are different and have one digest. -/
def Collision (messages : List Bytes) : Prop :=
  ∃ left ∈ messages, ∃ right ∈ messages, left ≠ right ∧ digest left = digest right

/-- The digest tells the messages apart. -/
def CollisionFree (messages : List Bytes) : Prop :=
  ∀ left ∈ messages, ∀ right ∈ messages, digest left = digest right → left = right

/-- Messages that the digest does not tell apart hold a collision. -/
theorem collisionFree_or_collision (messages : List Bytes) :
    CollisionFree messages ∨ Collision messages := by
  by_cases free : CollisionFree messages
  · exact .inl free
  · right
    simp only [CollisionFree, not_forall] at free
    obtain ⟨left, memLeft, right, memRight, same, distinct⟩ := free
    exact ⟨left, memLeft, right, memRight, distinct, same⟩

/-- The digest tells some of the messages apart when it does so for all of them. -/
theorem CollisionFree.mono {part all : List Bytes} (free : CollisionFree all)
    (included : part ⊆ all) : CollisionFree part :=
  fun left memLeft right memRight => free left (included memLeft) right (included memRight)

/-- A collision among some of the messages is one among all of them. -/
theorem Collision.mono {part all : List Bytes} (found : Collision part)
    (included : part ⊆ all) : Collision all := by
  obtain ⟨left, memLeft, right, memRight, distinct, same⟩ := found
  exact ⟨left, included memLeft, right, included memRight, distinct, same⟩

/-- A message of some and a different one of others have one digest. -/
def Clash (messages others : List Bytes) : Prop :=
  ∃ message ∈ messages, ∃ other ∈ others, message ≠ other ∧ digest message = digest other

/-- A clash between some of the messages is one between all of them. -/
theorem Clash.mono {part all others whole : List Bytes} (found : Clash part others)
    (included : part ⊆ all) (otherIncluded : others ⊆ whole) : Clash all whole := by
  obtain ⟨message, member, other, otherMember, distinct, same⟩ := found
  exact ⟨message, included member, other, otherIncluded otherMember, distinct, same⟩

/-- Messages that clash do not have all their digests apart. -/
theorem Clash.not_collisionFree {messages others : List Bytes} (found : Clash messages others) :
    ¬ CollisionFree (messages ++ others) := by
  intro free
  obtain ⟨message, member, other, otherMember, distinct, same⟩ := found
  exact distinct (free message (List.mem_append_left _ member) other
    (List.mem_append_right _ otherMember) same)

end DataSquare.Sha256
