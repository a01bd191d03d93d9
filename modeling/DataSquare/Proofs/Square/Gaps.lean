import DataSquare.Proofs.Square.Layout
import DataSquare.Proofs.Square.Split

/-!
# The gaps between blobs

A square leaves a gap in front of each blob and one behind the last, and fills them with padding.
Blobs are placed exactly when no gap ends before it starts, so placing them comes down to a list of
gaps. The blobs of a layout are stacked, which leaves such gaps.
-/
namespace DataSquare

namespace Square

/-- Cells between the parts of a square. -/
structure Gap where
  /-- The first cell. -/
  start : Nat
  /-- The cell behind the last one. -/
  stop : Nat
  /-- The namespace of the padding. -/
  ns : Namespace
deriving DecidableEq

/-- The gaps from a cell on: one in front of each blob, with padding in the namespace of what stands
before it, and one from the last blob to the end of the square. -/
def gaps (capacity : Nat) : Nat → Namespace → List (Nat × Blob) → List Gap
  | cursor, _, [] => [⟨cursor, capacity, Namespace.tailPadding⟩]
  | cursor, ns, (index, blob) :: rest =>
    ⟨cursor, index, ns⟩ :: gaps capacity (index + blob.shareCount) blob.ns rest

section Placed

variable {capacity cursor : Nat} {previous : Option Namespace} {entries : List (Nat × Blob)}
  {placed : List Share}

/-- Blobs that can be written are placed inside a square exactly when no gap ends before it
starts. -/
theorem exists_blobShares_iff
    (written : ∀ entry ∈ entries, entry.2.IsWritable ∧ entry.2.data ≠ []) :
    (∃ placed, blobShares capacity cursor previous entries = .ok placed ∧
      cursor + placed.length ≤ capacity) ↔
    ∀ gap ∈ gaps capacity cursor (paddingSpace previous) entries, gap.start ≤ gap.stop := by
  induction entries generalizing cursor previous with
  | nil =>
    rw [gaps, List.forall_mem_singleton]
    constructor
    · rintro ⟨placed, laid, inside⟩
      exact Nat.le_trans (Nat.le_add_right _ _) inside
    · exact fun inside => ⟨[], blobShares_nil_eq_ok.mpr rfl, inside⟩
  | cons entry entries ih =>
    obtain ⟨index, blob⟩ := entry
    obtain ⟨writable, filled⟩ := written _ List.mem_cons_self
    have count : blob.shares.length = blob.shareCount := Blob.length_shares filled
    have rest := @ih (index + blob.shareCount) (some blob.ns)
      fun other member => written other (List.mem_cons_of_mem _ member)
    rw [gaps, List.forall_mem_cons]
    change _ ↔ cursor ≤ index ∧
      ∀ gap ∈ gaps capacity (index + blob.shareCount) blob.ns entries, gap.start ≤ gap.stop
    constructor
    · rintro ⟨placed, laid, inside⟩
      obtain ⟨⟨behind, _⟩, _, later, after, rfl⟩ := blobShares_cons_eq_ok.mp laid
      rw [count] at after
      refine ⟨behind, rest.mp ⟨later, after, ?_⟩⟩
      rw [List.length_append, List.length_append, paddingBefore_eq, List.length_replicate,
        count] at inside
      omega
    · rintro ⟨behind, spaced⟩
      obtain ⟨later, after, inside⟩ := rest.mpr spaced
      have range : cursor ≤ index ∧ index ≤ capacity := ⟨behind, by omega⟩
      refine ⟨_, blobShares_cons_eq_ok.mpr ⟨range, writable, later, by rwa [count], rfl⟩, ?_⟩
      rw [List.length_append, List.length_append, paddingBefore_eq, List.length_replicate, count]
      omega

/-- Stacked blobs leave gaps that do not end before they start. -/
theorem spaced_of_stacked {squareSize : Nat} {slots : List (Nat × Slot)}
    (stacked : Stacked squareSize cursor slots) (inside : cursor ≤ squareSize * squareSize)
    (ns : Namespace) :
    ∀ gap ∈ gaps (squareSize * squareSize) cursor ns
      (slots.map fun entry => (entry.1, entry.2.blob)), gap.start ≤ gap.stop := by
  induction stacked generalizing ns with
  | nil cursor =>
    rw [List.map_nil, gaps, List.forall_mem_singleton]
    exact inside
  | @cons cursor start slot rest behind _ room later ih =>
    rw [Layout.hasRoom, Bool.and_eq_true, decide_eq_true_eq, decide_eq_true_eq] at room
    rw [List.map_cons, gaps, List.forall_mem_cons]
    exact ⟨behind, ih room.2 slot.blob.ns⟩

end Placed

end Square

end DataSquare
