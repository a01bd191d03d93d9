import DataSquare.Proofs.Share.Compact
import DataSquare.Proofs.Share.Sparse

/-!
# The frame of a sequence

Both kinds of sequences are read in one way: the first share tells the length, no other one starts
a sequence, all stand in one namespace, and there are as many as the length asks for. Shares with
such a frame are the only ones that are read, compact ones when their reserved bytes point at
content, and what is written as a sequence has its frame.
-/
namespace DataSquare

/-- A fact about every entry of a list, with another one about those that are not the first, is one
about the entries with their positions. -/
theorem forall_mem_zipIdx_iff {α : Type} {every later : α → Prop} {items : List α} :
    (∀ entry ∈ items.zipIdx, (entry.2 = 0 ∨ later entry.1) ∧ every entry.1) ↔
      (∀ item ∈ items.tail, later item) ∧ ∀ item ∈ items, every item := by
  cases items with
  | nil => simp
  | cons first rest =>
    have behind : (∀ entry ∈ rest.zipIdx 1, (entry.2 = 0 ∨ later entry.1) ∧ every entry.1) ↔
        ∀ item ∈ rest, later item ∧ every item := by
      have entries := @List.forall_mem_map _ _ Prod.fst (rest.zipIdx 1)
        fun item => later item ∧ every item
      rw [List.zipIdx_map_fst] at entries
      rw [entries]
      refine forall₂_congr fun entry member => and_congr_left' (or_iff_right ?_)
      exact Nat.ne_of_gt (List.le_snd_of_mem_zipIdx member)
    rw [List.zipIdx_cons, List.forall_mem_cons, behind, List.tail_cons, List.forall_mem_cons,
      forall₂_and]
    tauto

namespace Share

/-- A share that tells the length of a sequence starts one. -/
theorem isSequenceStart_of_sequenceLength {share : Share} {length : UInt32}
    (declared : share.sequenceLength = some length) : share.isSequenceStart = true := by
  unfold sequenceLength at declared
  split at declared
  · assumption
  · contradiction

/-- The frame of a sequence in a namespace that has a length, when `needed` tells how many shares
it takes. -/
structure Frame (needed : Nat → Nat) (ns : Namespace) (length : UInt32) (shares : List Share) :
    Prop where
  /-- The first share tells the length. -/
  declared : shares.head?.bind sequenceLength = some length
  /-- No later share starts a sequence. -/
  continued : ∀ share ∈ shares.tail, share.isSequenceStart = false
  /-- All shares stand in the namespace. -/
  space : ∀ share ∈ shares, share.ns = .ok ns
  /-- There are as many shares as the length asks for. -/
  count : shares.length = needed length.toNat

/-- No shares are no sequence. -/
theorem not_frame_nil {needed : Nat → Nat} {ns : Namespace} {length : UInt32} :
    ¬ Frame needed ns length [] := by
  intro frame
  have declared : none = some length := frame.declared
  contradiction

/-- A sequence has a first share, which tells the length and stands in the namespace. -/
theorem Frame.exists_first {needed : Nat → Nat} {ns : Namespace} {length : UInt32}
    {shares : List Share} (frame : Frame needed ns length shares) :
    ∃ first rest, shares = first :: rest ∧ first.sequenceLength = some length ∧
      first.ns = .ok ns := by
  cases shares with
  | nil => exact absurd frame not_frame_nil
  | cons first rest =>
    exact ⟨first, rest, rfl, frame.declared, frame.space first List.mem_cons_self⟩

/-- No share starts a second sequence when it is the first one or starts none. -/
theorem not_startsSecond_iff {share : Share} {position : Nat} :
    ¬ (0 < position && share.isSequenceStart) = true ↔
      position = 0 ∨ share.isSequenceStart = false := by
  rw [Bool.and_eq_true, decide_eq_true_eq, not_and, Bool.not_eq_true, Nat.pos_iff_ne_zero]
  exact or_iff_not_imp_left.symm

/-- Whether the reserved bytes of a share are zero or point behind its header. -/
def PointsInside (share : Share) : Prop :=
  share.reservedBytes.getD 0 = 0 ∨ share.headerLength ≤ (share.reservedBytes.getD 0).toNat ∧
    (share.reservedBytes.getD 0).toNat < shareSize

end Share

open Share (Frame)

namespace Sparse

variable {ns : Namespace} {share : Share} {shares : List Share} {offset position : Nat}

/-- A share passes when it starts no second sequence and stands in the namespace. -/
theorem checkShare_eq_ok_iff : checkShare ns offset share position = .ok () ↔
    (position = 0 ∨ share.isSequenceStart = false) ∧ share.ns = .ok ns := by
  unfold checkShare
  rw [guard_eq_ok, Share.not_startsSecond_iff]
  refine and_congr_right' ?_
  cases share.ns with
  | error cause => simp
  | ok own => simp

/-- All shares pass when only the first one may start a sequence and all stand in the namespace. -/
theorem forM_checkShare_eq_ok_iff :
    shares.zipIdx.forM (fun (share, position) => checkShare ns offset share position) = .ok () ↔
      (∀ share ∈ shares.tail, share.isSequenceStart = false) ∧
        ∀ share ∈ shares, share.ns = .ok ns := by
  rw [forM_eq_ok, ← forall_mem_zipIdx_iff]
  exact forall₂_congr fun _ _ => checkShare_eq_ok_iff

/-- One sequence is read exactly from shares that have its frame, and its data is the front of
their contents. -/
theorem readSequence_eq_ok_iff {data : Bytes} : readSequence shares offset = .ok (ns, data) ↔
    ∃ length, Frame (fun length => max 1 (sparseSharesNeeded length)) ns length shares ∧
      data = (shares.flatMap Share.content).take length.toNat := by
  constructor
  · intro read
    unfold readSequence at read
    split at read
    · contradiction
    · rename_i first rest
      split at read
      · contradiction
      · split at read
        · contradiction
        · rename_i length declared
          obtain ⟨counted, read⟩ := guard_eq_ok.mp read
          split at read
          · contradiction
          · rename_i passed
            obtain ⟨rfl, rfl⟩ := Prod.mk.inj (Except.ok.inj read)
            obtain ⟨continued, space⟩ := forM_checkShare_eq_ok_iff.mp passed
            exact ⟨length, ⟨declared, continued, space, (not_not.mp counted).symm⟩, rfl⟩
  · rintro ⟨length, frame, rfl⟩
    obtain ⟨first, rest, rfl, declared, stands⟩ := frame.exists_first
    have counted := frame.count
    have passed := (@forM_checkShare_eq_ok_iff ns (first :: rest) offset).mpr
      ⟨frame.continued, frame.space⟩
    simp only [readSequence, stands, declared]
    rw [if_neg (not_not.mpr counted.symm), passed]

/-- Data takes as many shares as its length needs, and one when it is empty. -/
theorem length_sharesOf_eq_max {version : UInt8} {data : Bytes} :
    (sharesOf ns version data).length = max 1 (sparseSharesNeeded data.length) := by
  by_cases empty : data = []
  · subst empty
    rw [sharesOf, List.drop_nil, pieces]
    rfl
  · rw [length_sharesOf empty, Nat.max_eq_right]
    exact sparseSharesNeeded_pos (Nat.ne_of_gt (List.length_pos_iff.mpr empty))

/-- The shares of data have the frame of a sequence of its length. -/
theorem frame_sharesOf {version : UInt8} {data : Bytes} (short : data.length < UInt32.size) :
    Frame (fun length => max 1 (sparseSharesNeeded length)) ns (UInt32.ofNat data.length)
      (sharesOf ns version data) where
  declared := Share.sequenceLength_build (InfoByte.isSequenceStart_start version)
  continued := by
    intro share member
    obtain ⟨piece, _, rfl⟩ := List.mem_map.mp member
    rw [Share.isSequenceStart_build, InfoByte.isSequenceStart_later]
  space _ := ns_of_mem_sharesOf
  count := by
    rw [UInt32.toNat_ofNat_of_lt' short]
    exact length_sharesOf_eq_max

end Sparse

namespace Compact

variable {ns : Namespace} {share : Share} {shares : List Share} {position : Nat}

/-- A share passes when it starts no second sequence, stands in the namespace, and its reserved
bytes point at content if at all. -/
theorem checkShare_eq_ok_iff : checkShare ns share position = .ok () ↔
    (position = 0 ∨ share.isSequenceStart = false) ∧ share.ns = .ok ns ∧ share.PointsInside := by
  unfold checkShare Share.PointsInside
  rw [guard_eq_ok, Share.not_startsSecond_iff]
  refine and_congr_right' ?_
  cases share.ns with
  | error cause => simp
  | ok own =>
    dsimp only
    rw [guard_eq_ok, guard_eq_ok, not_not, Except.ok.injEq, Except.ok.injEq, eq_self, and_true,
      not_and, not_not, or_iff_not_imp_left]

/-- All shares pass when only the first one may start a sequence, all stand in the namespace, and
all that point somewhere point at content. -/
theorem forM_checkShare_eq_ok_iff :
    shares.zipIdx.forM (fun (share, position) => checkShare ns share position) = .ok () ↔
      (∀ share ∈ shares.tail, share.isSequenceStart = false) ∧
        ∀ share ∈ shares, share.ns = .ok ns ∧ share.PointsInside := by
  rw [forM_eq_ok, ← forall_mem_zipIdx_iff]
  exact forall₂_congr fun _ _ => checkShare_eq_ok_iff

/-- Units are read exactly from shares that have the frame of their sequence and point at content,
and they are those of the front of the contents. -/
theorem parse_eq_ok_iff {units : List Bytes} : parse shares = .ok units ↔
    ∃ ns length, Frame compactSharesNeeded ns length shares ∧
      (∀ share ∈ shares, share.PointsInside) ∧
      readUnits ((shares.flatMap Share.content).take length.toNat) = .ok units := by
  constructor
  · intro read
    unfold parse at read
    split at read
    · contradiction
    · split at read
      · contradiction
      · rename_i ns _
        split at read
        · contradiction
        · rename_i length declared
          obtain ⟨counted, read⟩ := guard_eq_ok.mp read
          split at read
          · contradiction
          · rename_i passed
            obtain ⟨continued, each⟩ := forM_checkShare_eq_ok_iff.mp passed
            exact ⟨ns, length, ⟨declared, continued, fun share member => (each share member).1,
              (not_not.mp counted).symm⟩, fun share member => (each share member).2, read⟩
  · rintro ⟨ns, length, frame, points, read⟩
    obtain ⟨first, rest, rfl, declared, stands⟩ := frame.exists_first
    have counted := frame.count
    have passed := forM_checkShare_eq_ok_iff.mpr
      ⟨frame.continued, fun share member => ⟨frame.space share member, points share member⟩⟩
    simp only [parse, stands, declared]
    rw [if_neg (not_not.mpr counted.symm), passed]
    exact read

/-- Every share but the first is marked as a later one. -/
theorem isSequenceStart_shareAt {length index : Nat} {starts : List Nat} {content : Bytes} :
    (shareAt ns length starts content index).isSequenceStart = decide (index = 0) := by
  rw [shareAt, Share.isSequenceStart_build]
  by_cases first : index = 0
  · rw [if_pos first, decide_eq_true first]
    rfl
  · rw [if_neg first, decide_eq_false first]
    rfl

/-- The shares of units have the frame of a sequence of the length of their stream. -/
theorem frame_sequenceOf {units : List Bytes} (nonempty : units ≠ [])
    (short : (stream units).length < UInt32.size) :
    Frame compactSharesNeeded ns (UInt32.ofNat (stream units).length)
      (sequenceOf ns units).shares where
  declared := by
    rw [shares_sequenceOf nonempty]
    exact sequenceLength_shareAt_zero
  continued := by
    rw [shares_sequenceOf nonempty]
    intro share member
    obtain ⟨entry, later, rfl⟩ := List.mem_map.mp member
    rw [isSequenceStart_shareAt]
    exact decide_eq_false (Nat.ne_of_gt (List.le_snd_of_mem_zipIdx later))
  space _ := ns_of_mem_sequenceOf
  count := by
    rw [UInt32.toNat_ofNat_of_lt' short]
    exact length_sequenceOf

end Compact

end DataSquare
