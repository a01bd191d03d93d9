import Mathlib
import DataSquare.Namespace

/-!
# The order of namespaces

Namespaces are ordered by their bytes, which is a linear order. What stands at the two ends of
the square is reserved: namespaces for blobs lie strictly between the padding in front of them
and the padding behind them, and nothing is above parity.
-/
namespace DataSquare

/-- No byte string is above the one of its length that holds nothing but 255. -/
theorem le_replicate_max (bytes : Bytes) : bytes ≤ List.replicate bytes.length 255 := by
  induction bytes with
  | nil => exact List.le_refl _
  | cons byte rest ih =>
    rw [List.length_cons, List.replicate_succ, List.cons_le_cons_iff]
    rcases UInt8.lt_or_eq_of_le (UInt8.le_iff_toNat_le.mpr (Nat.le_of_lt_succ byte.toNat_lt) :
      byte ≤ 255) with below | same
    · exact .inl below
    · exact .inr ⟨same, ih⟩

namespace Namespace

/-- A namespace is not above itself. -/
theorem le_refl (ns : Namespace) : ns ≤ ns := List.le_refl ns.bytes

/-- The order is transitive. -/
theorem le_trans {low middle high : Namespace} (first : low ≤ middle) (second : middle ≤ high) :
    low ≤ high := List.le_trans (α := UInt8) first second

/-- Of two namespaces one is not above the other. -/
theorem le_total (left right : Namespace) : left ≤ right ∨ right ≤ left :=
  List.le_total left.bytes right.bytes

/-- Namespaces that are not above each other are one. -/
theorem le_antisymm {left right : Namespace} (first : left ≤ right) (second : right ≤ left) :
    left = right :=
  Namespace.ext (List.le_antisymm first second)

/-- A namespace that is not below another one is at or above it. -/
theorem not_lt {left right : Namespace} : ¬ left < right ↔ right ≤ left :=
  List.not_lt

/-- A namespace that is not at or below another one is above it. -/
theorem not_le {left right : Namespace} : ¬ left ≤ right ↔ right < left :=
  List.not_le

/-- Below is at or below. -/
theorem le_of_lt {left right : Namespace} (below : left < right) : left ≤ right :=
  List.le_of_lt below

/-- A namespace at or below one that is below a third is below it. -/
theorem lt_of_le_of_lt {low middle high : Namespace} (first : low ≤ middle)
    (second : middle < high) : low < high := by
  rw [← not_le] at second ⊢
  exact fun above => second (le_trans above first)

/-- A namespace below one that is at or below a third is below it. -/
theorem lt_of_lt_of_le {low middle high : Namespace} (first : low < middle)
    (second : middle ≤ high) : low < high := by
  rw [← not_le] at first ⊢
  exact fun above => first (le_trans second above)

/-- Nothing is below itself. -/
theorem ne_of_lt {left right : Namespace} (below : left < right) : left ≠ right := by
  rintro rfl
  exact not_le.mpr below (le_refl left)

/-- Nothing is above the namespace of parity. -/
theorem le_parity (ns : Namespace) : ns ≤ parity := by
  have bound := le_replicate_max ns.bytes
  rw [ns.length_bytes] at bound
  exact bound

/-- A namespace for blobs is above everything reserved at the low end. -/
theorem reservedPadding_lt {ns : Namespace} (valid : ns.validateForBlob = .ok ()) :
    reservedPadding < ns := by
  unfold validateForBlob at valid
  split at valid
  · contradiction
  · split at valid
    · contradiction
    · rename_i free
      simp only [isReserved, isPrimaryReserved, Bool.or_eq_true, decide_eq_true_eq,
        not_or] at free
      exact not_le.mp free.1

/-- A namespace for blobs is below everything reserved at the high end. -/
theorem lt_minSecondaryReserved {ns : Namespace} (valid : ns.validateForBlob = .ok ()) :
    ns < minSecondaryReserved := by
  unfold validateForBlob at valid
  split at valid
  · contradiction
  · split at valid
    · contradiction
    · rename_i free
      simp only [isReserved, isSecondaryReserved, Bool.or_eq_true, decide_eq_true_eq,
        not_or] at free
      exact not_le.mp free.2

/-- A namespace for blobs is below the one of padding behind blobs. -/
theorem lt_tailPadding {ns : Namespace} (valid : ns.validateForBlob = .ok ()) :
    ns < tailPadding :=
  lt_of_lt_of_le (lt_minSecondaryReserved valid) (by decide)

/-- The namespaces of transactions are these two. -/
theorem isCompact_iff {ns : Namespace} :
    (ns == transaction || ns == payForBlob) = true ↔ ns = transaction ∨ ns = payForBlob := by
  rw [Bool.or_eq_true, beq_iff_eq, beq_iff_eq]

/-- All other namespaces are for sparse shares. -/
theorem isSparse_iff {ns : Namespace} :
    (ns == transaction || ns == payForBlob) = false ↔ ns ≠ transaction ∧ ns ≠ payForBlob := by
  rw [Bool.or_eq_false_iff, beq_eq_false_iff_ne, beq_eq_false_iff_ne]

/-- Blobs are not published in the namespaces of transactions. -/
theorem isSparse_of_valid {ns : Namespace} (valid : ns.validateForBlob = .ok ()) :
    (ns == transaction || ns == payForBlob) = false := by
  have above := reservedPadding_lt valid
  have distinct : ∀ {other : Namespace}, other ≤ reservedPadding → (ns == other) = false := by
    intro other below
    exact beq_false_of_ne (ne_of_lt (lt_of_le_of_lt below above)).symm
  rw [distinct (by decide), distinct (by decide)]
  rfl

/-- A namespace that a user may publish blobs in. -/
def lowestUser : Namespace := ⟨List.replicate 27 0 ++ [1, 0], by decide⟩

/-- The namespace after that one, which is for users too. -/
def secondUser : Namespace := ⟨List.replicate 27 0 ++ [1, 1], by decide⟩

end Namespace

end DataSquare
