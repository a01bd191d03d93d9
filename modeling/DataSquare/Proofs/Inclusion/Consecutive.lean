import DataSquare.Proofs.Inclusion.ShareProof

/-!
# Consecutive shares

Neither the data quadrant nor the seams between rows are checked when a share proof is. So the data
of an accepted proof are consecutive shares when it names cells of the data quadrant only, as it
does in every namespace but that of parity, and proves each row but the last up to its end and each
but the first from its start. Other proofs are accepted as well: one that leaves out shares at the
end of a row, and one of parity cells.
-/
namespace DataSquare

open Merkle

namespace ShareProof

/-- The positions in the square that parts name, from a row on. -/
def positionsFrom (squareSize : Nat) : Nat → List RangeProof → List Nat
  | _, [] => []
  | row, part :: parts =>
    List.range' (row * squareSize + part.start.toNat) (part.stop.toNat - part.start.toNat) ++
      positionsFrom squareSize (row + 1) parts

/-- The positions in the square that a proof names. -/
def positions (proof : ShareProof) (squareSize : Nat) : List Nat :=
  positionsFrom squareSize proof.rowProof.startRow.toNat proof.shareProofs

/-- Whether a proof names cells of the data quadrant only. -/
def InQuadrant (proof : ShareProof) (squareSize : Nat) : Prop :=
  proof.rowProof.endRow.toNat < squareSize ∧
    ∀ part ∈ proof.shareProofs, part.stop.toNat ≤ squareSize

/-- Whether each row but the last is proven up to its end, and each but the first from its start. -/
def Seamless (proof : ShareProof) (squareSize : Nat) : Prop :=
  proof.shareProofs.IsChain fun upper lower =>
    upper.stop.toNat = squareSize ∧ lower.start.toNat = 0

/-- A share of a namespace stands at a position. -/
def StandsAt (shares : List Share) (ns : Namespace) (position : Nat) (bytes : Bytes) : Prop :=
  ∃ share, shares[position]? = some share ∧ share.bytes = bytes ∧ share.ns = .ok ns

/-- The data of a proof are the shares of a run, all in the namespace of the proof, and its rows
are those of the first and the last share. -/
structure ProvesRun (proof : ShareProof) (shares : List Share) (squareSize first last : Nat) :
    Prop where
  /-- There is a share in the run. -/
  nonempty : first < last
  /-- The run is in the square. -/
  inside : last ≤ squareSize * squareSize
  /-- The data are the bytes of the shares. -/
  data : proof.data = ((shares.drop first).take (last - first)).map Share.bytes
  /-- The shares are in the namespace of the proof. -/
  named : ∀ share ∈ (shares.drop first).take (last - first), share.ns = .ok proof.ns
  /-- The first row is that of the first share. -/
  startRow : first / squareSize = proof.rowProof.startRow.toNat
  /-- The last row is that of the last share. -/
  endRow : (last - 1) / squareSize = proof.rowProof.endRow.toNat

section Positions

variable {squareSize row : Nat}

variable (squareSize row) in
/-- The first position that parts name is the one at which the first of them starts. -/
theorem positionsFrom_head {part : RangeProof} (parts : List RangeProof)
    (nonempty : part.start.toNat < part.stop.toNat) :
    (positionsFrom squareSize row (part :: parts))[0]? =
      .some (row * squareSize + part.start.toNat) := by
  rw [positionsFrom, List.getElem?_append_left (by rw [List.length_range']; omega),
    List.getElem?_range' (by omega)]
  rfl

/-- Positions are consecutive when there are no seams between the rows. -/
theorem positionsFrom_of_seamless {part : RangeProof} {parts : List RangeProof}
    (inside : ∀ own ∈ part :: parts, own.start.toNat < own.stop.toNat ∧
      own.stop.toNat ≤ squareSize)
    (seamless : (part :: parts).IsChain fun upper lower =>
      upper.stop.toNat = squareSize ∧ lower.start.toNat = 0) :
    ∃ last, positionsFrom squareSize row (part :: parts) =
        List.range' (row * squareSize + part.start.toNat)
          (last - (row * squareSize + part.start.toNat)) ∧
      row * squareSize + part.start.toNat < last ∧
      (row + parts.length) * squareSize < last ∧
      last ≤ (row + parts.length + 1) * squareSize := by
  induction parts generalizing row part with
  | nil =>
    obtain ⟨ordered, bound⟩ := inside part List.mem_cons_self
    refine ⟨row * squareSize + part.stop.toNat, ?_, by omega, ?_, ?_⟩
    · rw [positionsFrom, positionsFrom, List.append_nil, Nat.add_sub_add_left]
    · rw [List.length_nil, Nat.add_zero]
      omega
    · rw [List.length_nil, Nat.add_zero, Nat.add_mul, Nat.one_mul]
      omega
  | cons next parts ih =>
    obtain ⟨ordered, bound⟩ := inside part List.mem_cons_self
    obtain ⟨⟨whole, fresh⟩, rest⟩ := List.isChain_cons_cons.mp seamless
    have later : ∀ own ∈ next :: parts, own.start.toNat < own.stop.toNat ∧
        own.stop.toNat ≤ squareSize := fun own member => inside own (List.mem_cons_of_mem _ member)
    obtain ⟨last, same, nonempty, above, below⟩ := @ih (row + 1) next later rest
    simp only [fresh, Nat.add_zero] at same nonempty
    have line : row * squareSize + part.start.toNat + (part.stop.toNat - part.start.toNat) =
        (row + 1) * squareSize := by
      rw [Nat.add_mul, Nat.one_mul]
      omega
    refine ⟨last, ?_, by omega, ?_, ?_⟩
    · rw [positionsFrom, same, ← line, List.range'_append_1]
      congr 1
      omega
    · rw [List.length_cons, ← Nat.add_assoc, Nat.add_right_comm]
      exact above
    · rw [List.length_cons, ← Nat.add_assoc, Nat.add_right_comm row]
      exact below

/-- Positions of the data quadrant are consecutive only when there are no seams between rows. -/
theorem seamless_of_positionsFrom {parts : List RangeProof} {first count : Nat}
    (inside : ∀ own ∈ parts, own.start.toNat < own.stop.toNat ∧ own.stop.toNat ≤ squareSize)
    (consecutive : positionsFrom squareSize row parts = List.range' first count) :
    parts.IsChain fun upper lower => upper.stop.toNat = squareSize ∧ lower.start.toNat = 0 := by
  induction parts generalizing row first count with
  | nil => exact List.isChain_nil
  | cons part parts ih =>
    cases parts with
    | nil => exact List.isChain_singleton _
    | cons next parts =>
      obtain ⟨ordered, bound⟩ := inside part List.mem_cons_self
      obtain ⟨nextOrdered, _⟩ := inside next (by simp)
      rw [positionsFrom] at consecutive
      have later : positionsFrom squareSize (row + 1) (next :: parts) =
          List.range' (first + (part.stop.toNat - part.start.toNat))
            (count - (part.stop.toNat - part.start.toNat)) := by
        have dropped := congrArg (List.drop (part.stop.toNat - part.start.toNat)) consecutive
        rwa [List.drop_left' List.length_range', List.drop_range', Nat.mul_one] at dropped
      refine List.isChain_cons_cons.mpr ⟨?_, ih
        (fun own member => inside own (List.mem_cons_of_mem _ member)) later⟩
      have own : row * squareSize + part.start.toNat = first := by
        have entry := positionsFrom_head squareSize row (next :: parts) ordered
        rw [positionsFrom, consecutive] at entry
        obtain ⟨_, same⟩ := List.getElem?_eq_some_iff.mp entry
        rw [List.getElem_range'] at same
        omega
      have after : (row + 1) * squareSize + next.start.toNat =
          first + (part.stop.toNat - part.start.toNat) := by
        have entry := positionsFrom_head squareSize (row + 1) parts nextOrdered
        rw [later] at entry
        obtain ⟨_, same⟩ := List.getElem?_eq_some_iff.mp entry
        rw [List.getElem_range'] at same
        omega
      rw [Nat.add_mul, Nat.one_mul] at after
      omega

end Positions

section Cells

variable {proof : ShareProof} {shares : List Share} {squareSize : Nat}

/-- Data in another namespace than that of parity are in the data quadrant. -/
theorem NamesCells.inQuadrant (cells : proof.NamesCells shares squareSize)
    (data : proof.ns ≠ Namespace.parity) : proof.InQuadrant squareSize := by
  obtain ⟨lengths, sized⟩ := List.forall₂_iff_get.mp cells.sized
  have ordered := cells.ordered
  have counted := cells.counted
  -- The last of the data of each row stand in the data quadrant.
  have each : ∀ (row : Nat) (part : RangeProof), proof.shareProofs[row]? = some part →
      proof.rowProof.startRow.toNat + row < squareSize ∧ part.stop.toNat ≤ squareSize := by
    intro row part named
    obtain ⟨bound, rfl⟩ := List.getElem?_eq_some_iff.mp named
    obtain ⟨nonempty, length⟩ := sized row bound (by omega)
    simp only [List.get_eq_getElem] at nonempty length
    have held := List.getElem?_eq_getElem (lengths ▸ bound)
    have last := List.getElem?_eq_getElem (show
      proof.shareProofs[row].stop.toNat - proof.shareProofs[row].start.toNat - 1 <
        (rowData proof.shareProofs proof.data)[row].length by omega)
    have stands := cells.stands row _ _ named held _ _ last
    have inside : proof.rowProof.startRow.toNat + row < squareSize ∧
        proof.shareProofs[row].start.toNat + (proof.shareProofs[row].stop.toNat -
          proof.shareProofs[row].start.toNat - 1) < squareSize := by
      by_contra outside
      exact data (stands.parity outside)
    omega
  constructor
  · have last := List.getElem?_eq_getElem
      (show proof.rowProof.endRow.toNat - proof.rowProof.startRow.toNat <
        proof.shareProofs.length by omega)
    have inside := (each _ _ last).1
    omega
  · intro part member
    obtain ⟨row, named⟩ := List.mem_iff_getElem?.mp member
    exact (each row part named).2

/-- Data that stand in cells of the data quadrant are the shares there. -/
theorem forall₂_standsAt {ns : Namespace} {row : Nat} {parts : List RangeProof}
    {chunks : List (List Bytes)}
    (sized : List.Forall₂ (fun part chunk => part.start.toNat < part.stop.toNat ∧
      chunk.length = part.stop.toNat - part.start.toNat) parts chunks)
    (rows : row + parts.length ≤ squareSize)
    (inside : ∀ part ∈ parts, part.stop.toNat ≤ squareSize)
    (stands : ∀ (index : Nat) (part : RangeProof) (chunk : List Bytes),
      parts[index]? = some part → chunks[index]? = some chunk →
        ∀ (offset : Nat) (cell : Bytes), chunk[offset]? = some cell →
          StandsInCell shares squareSize (row + index) (part.start.toNat + offset) ns cell) :
    List.Forall₂ (StandsAt shares ns) (positionsFrom squareSize row parts) chunks.flatten := by
  induction sized generalizing row with
  | nil => exact List.Forall₂.nil
  | @cons part chunk parts chunks head tail ih =>
    rw [List.length_cons] at rows
    rw [positionsFrom, List.flatten_cons]
    refine List.rel_append ?_ (ih (by omega)
      (fun own member => inside own (List.mem_cons_of_mem _ member)) ?_)
    · refine List.forall₂_iff_get.mpr ⟨?_, fun offset bound chunkBound => ?_⟩
      · rw [List.length_range', head.2]
      · have bounded := inside part List.mem_cons_self
        have own := stands 0 part chunk rfl rfl offset _ (List.getElem?_eq_getElem chunkBound)
        rw [List.length_range'] at bound
        obtain ⟨share, entry, bytes, named⟩ := own.data (by omega) (by omega)
        refine ⟨share, ?_, bytes, named⟩
        rw [List.get_eq_getElem, List.getElem_range', Nat.one_mul, Nat.add_assoc]
        exact entry
    · intro index own data named held offset cell found
      have later := stands (index + 1) own data named held offset cell found
      rwa [← Nat.add_assoc, Nat.add_right_comm] at later

/-- Data in the data quadrant are the shares at the positions that the proof names. -/
theorem NamesCells.standsAt (cells : proof.NamesCells shares squareSize)
    (quadrant : proof.InQuadrant squareSize) :
    List.Forall₂ (StandsAt shares proof.ns) (proof.positions squareSize) proof.data := by
  have rows : proof.rowProof.startRow.toNat + proof.shareProofs.length ≤ squareSize := by
    have counted := cells.counted
    have ordered := cells.ordered
    have last := quadrant.1
    omega
  rw [cells.cut]
  exact forall₂_standsAt cells.sized rows quadrant.2 cells.stands

/-- Data that stand at consecutive positions are the bytes of these shares. -/
theorem eq_of_standsAt {ns : Namespace} {first count : Nat} {data : List Bytes}
    (stands : List.Forall₂ (StandsAt shares ns) (List.range' first count) data) :
    data = ((shares.drop first).take count).map Share.bytes ∧
      ∀ share ∈ (shares.drop first).take count, share.ns = .ok ns := by
  obtain ⟨lengths, each⟩ := List.forall₂_iff_get.mp stands
  rw [List.length_range'] at lengths
  have entry : ∀ offset (inside : offset < count), ∃ share,
      ((shares.drop first).take count)[offset]? = some share ∧
        data[offset]? = some share.bytes ∧ share.ns = .ok ns := by
    intro offset inside
    obtain ⟨share, found, bytes, named⟩ :=
      each offset (by rw [List.length_range']; exact inside) (by omega)
    rw [List.get_eq_getElem, List.getElem_range', Nat.one_mul] at found
    refine ⟨share, ?_, ?_, named⟩
    · rw [List.getElem?_take_of_lt inside, List.getElem?_drop, found]
    · rw [bytes]
      exact List.getElem?_eq_getElem (by omega)
  constructor
  · apply List.ext_getElem?
    intro offset
    rcases Nat.lt_or_ge offset count with inside | outside
    · obtain ⟨share, found, bytes, _⟩ := entry offset inside
      rw [bytes, List.getElem?_map, found]
      rfl
    · rw [List.getElem?_eq_none (by omega), List.getElem?_map,
        List.getElem?_take_eq_none outside]
      rfl
  · intro share member
    obtain ⟨offset, found⟩ := List.mem_iff_getElem?.mp member
    have inside : offset < count := by
      obtain ⟨bound, _⟩ := List.getElem?_eq_some_iff.mp found
      rw [List.length_take] at bound
      omega
    obtain ⟨own, listed, _, named⟩ := entry offset inside
    obtain rfl : share = own := Option.some.inj (found.symm.trans listed)
    exact named

/-- Each part of a proof is for at least one cell, in the data quadrant when the proof is. -/
theorem NamesCells.part_inside (cells : proof.NamesCells shares squareSize)
    (quadrant : proof.InQuadrant squareSize) {part : RangeProof}
    (member : part ∈ proof.shareProofs) :
    part.start.toNat < part.stop.toNat ∧ part.stop.toNat ≤ squareSize := by
  obtain ⟨lengths, sized⟩ := List.forall₂_iff_get.mp cells.sized
  obtain ⟨row, bound, rfl⟩ := List.mem_iff_getElem.mp member
  exact ⟨(sized row bound (by omega)).1, quadrant.2 _ member⟩

/-- Data in the data quadrant without seams are a run of shares. -/
theorem NamesCells.exists_provesRun (cells : proof.NamesCells shares squareSize)
    (quadrant : proof.InQuadrant squareSize) (seamless : proof.Seamless squareSize) :
    ∃ first last, proof.positions squareSize = List.range' first (last - first) ∧
      proof.ProvesRun shares squareSize first last := by
  have stands := cells.standsAt quadrant
  have inside : ∀ part ∈ proof.shareProofs, part.start.toNat < part.stop.toNat ∧
      part.stop.toNat ≤ squareSize := fun _ member => cells.part_inside quadrant member
  have ordered := cells.ordered
  have counted := cells.counted
  have bound := quadrant.1
  rw [positions] at stands ⊢
  rw [Seamless] at seamless
  obtain ⟨part, parts, same⟩ := List.exists_cons_of_length_pos
    (show 0 < proof.shareProofs.length by omega)
  rw [same] at stands seamless inside counted ⊢
  rw [List.length_cons] at counted
  have rows : proof.rowProof.startRow.toNat + parts.length = proof.rowProof.endRow.toNat := by
    omega
  obtain ⟨last, consecutive, nonempty, above, below⟩ := positionsFrom_of_seamless inside seamless
  rw [rows] at above below
  rw [consecutive] at stands
  obtain ⟨data, named⟩ := eq_of_standsAt stands
  obtain ⟨startInside, stopInside⟩ := inside part List.mem_cons_self
  refine ⟨_, last, consecutive, nonempty, ?inside, data, named, ?startRow, ?endRow⟩
  case inside =>
    exact Nat.le_trans below (Nat.mul_le_mul_right squareSize bound)
  case startRow =>
    refine Nat.div_eq_of_lt_le (Nat.le_add_right _ _) ?_
    rw [Nat.add_mul, Nat.one_mul]
    omega
  case endRow =>
    refine Nat.div_eq_of_lt_le ?_ ?_
    · omega
    · omega

/-- Data in the data quadrant are named at consecutive positions exactly when there are no seams. -/
theorem NamesCells.seamless_iff (cells : proof.NamesCells shares squareSize)
    (quadrant : proof.InQuadrant squareSize) : proof.Seamless squareSize ↔
      ∃ first last, proof.positions squareSize = List.range' first (last - first) := by
  constructor
  · intro seamless
    obtain ⟨first, last, consecutive, _⟩ := cells.exists_provesRun quadrant seamless
    exact ⟨first, last, consecutive⟩
  · rintro ⟨first, last, consecutive⟩
    exact seamless_of_positionsFrom (fun _ member => cells.part_inside quadrant member) consecutive

end Cells

/-- An accepted proof in another namespace than that of parity names cells of the data quadrant
only. A proof that does so is for the shares at the positions that it names, and proves a run of
shares when it has no seams, which is when the positions are consecutive. All this holds unless two
different messages that are hashed for the header and the proof have one digest. -/
theorem provesRun_of_verify {shares : List Share} {header : AvailabilityHeader} {trees : RowTrees}
    {squareSize : Nat} {proof : ShareProof}
    (built : AvailabilityHeader.ofShares shares = .ok (header, trees))
    (power : isPowerOfTwo squareSize = true) (full : shares.length = squareSize * squareSize)
    (verified : proof.verify header.hash = .ok ()) :
    ((proof.ns ≠ Namespace.parity → proof.InQuadrant squareSize) ∧
      (proof.InQuadrant squareSize →
        List.Forall₂ (StandsAt shares proof.ns) (proof.positions squareSize) proof.data ∧
        (proof.Seamless squareSize ↔
          ∃ first last, proof.positions squareSize = List.range' first (last - first)) ∧
        (proof.Seamless squareSize →
          ∃ first last, proof.ProvesRun shares squareSize first last))) ∨
    Sha256.Collision (Square.cellMessages shares ++
      (Square.headerMessages shares ++ proof.messages)) := by
  obtain rfl := AvailabilityHeader.squareSize_of_ofShares built full
  rcases Sha256.collisionFree_or_collision (Square.cellMessages shares ++
    (Square.headerMessages shares ++ proof.messages)) with free | collision
  · left
    have cells := namesCells_of_verify built power free verified
    refine ⟨cells.inQuadrant, fun quadrant => ⟨cells.standsAt quadrant,
      cells.seamless_iff quadrant, fun seamless => ?_⟩⟩
    obtain ⟨first, last, _, run⟩ := cells.exists_provesRun quadrant seamless
    exact ⟨first, last, run⟩
  · exact .inr collision

/-- The first shares of both rows of a square of four shares are proven together, though the second
share is left out between them. -/
theorem provesRun_of_first_shares :
    let shares := Sparse.sharesOf Namespace.lowestUser 0 (List.replicate 1900 7)
    ∃ (header : AvailabilityHeader) (trees : RowTrees) (proof : ShareProof),
      AvailabilityHeader.ofShares shares = .ok (header, trees) ∧
        proof.verify header.hash = .ok () ∧ proof.positions 2 = [0, 2] ∧ ¬ proof.Seamless 2 ∧
        (proof.InQuadrant 2 ∧ List.Forall₂ (StandsAt shares proof.ns) [0, 2] proof.data ∨
          Sha256.Collision (Square.cellMessages shares ++
            (Square.headerMessages shares ++ proof.messages))) := by
  intro shares
  have named : ∀ share ∈ shares, share.ns = .ok Namespace.lowestUser :=
    fun _ member => Sparse.ns_of_mem_sharesOf member
  have full : shares.length = 2 * 2 := by
    have size : (List.replicate 1900 (7 : UInt8)).length = 1900 := List.length_replicate
    have nonempty : List.replicate 1900 (7 : UInt8) ≠ [] := List.cons_ne_nil _ _
    change (Sparse.sharesOf Namespace.lowestUser 0 (List.replicate 1900 7)).length = 2 * 2
    rw [Sparse.length_sharesOf nonempty, size]
    rfl
  obtain ⟨header, trees, built⟩ :=
    (Ordered.of_ns named).exists_ofShares (by decide) (by decide) full
  have width : header.squareSize = 2 := AvailabilityHeader.squareSize_of_ofShares built full
  have power : isPowerOfTwo header.squareSize = true := by
    rw [width]
    decide
  have ranges : ∀ (offset : Nat) (range : Nat × Nat), [(0, 1), (0, 1)][offset]? = some range →
      range.1 < range.2 ∧ range.2 ≤ header.squareSize ∧
        ∀ (position : Nat) (share : Share), range.1 ≤ position → position < range.2 →
          shares[(0 + offset) * header.squareSize + position]? = some share →
            share.ns = .ok Namespace.lowestUser := by
    intro offset range found
    have member := List.mem_of_getElem? found
    simp only [List.mem_cons, List.not_mem_nil, or_false, or_self] at member
    subst member
    exact ⟨Nat.zero_lt_one, by omega, fun _ _ _ _ entry => named _ (List.mem_of_getElem? entry)⟩
  obtain ⟨proof, verified, space, startRow, parts⟩ := exists_verify_of_ranges built power
    (List.cons_ne_nil _ _) (show 0 + [(0, 1), (0, 1)].length ≤ header.squareSize by rw [width]; rfl)
    ranges
  obtain ⟨upper, rest, ⟨upperStart, upperStop⟩, others, parted⟩ :=
    List.forall₂_cons_right_iff.mp parts
  obtain ⟨lower, nothing, ⟨lowerStart, lowerStop⟩, last, rfl⟩ :=
    List.forall₂_cons_right_iff.mp others
  obtain rfl := List.forall₂_nil_right_iff.mp last
  have seams : ¬ proof.Seamless 2 := by
    rw [Seamless, parted]
    intro chain
    have seam := (List.isChain_cons_cons.mp chain).1
    omega
  have places : proof.positions 2 = [0, 2] := by
    simp only [positions, parted, startRow, positionsFrom, upperStart, upperStop, lowerStart,
      lowerStop]
    rfl
  refine ⟨header, trees, proof, built, verified, places, seams, ?_⟩
  rcases provesRun_of_verify built (by decide) full verified with ⟨data, run⟩ | collision
  · left
    have quadrant := data (by rw [space]; decide)
    exact ⟨quadrant, places ▸ (run quadrant).1⟩
  · exact .inr collision

end ShareProof

end DataSquare
