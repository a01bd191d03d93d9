import DataSquare.Proofs.Share.UnitRange

/-!
# Where units start

A reader who enters a compact sequence in the middle goes by the reserved bytes of a share: they
point at the first unit whose length starts there, and from that place on exactly the units from
this one to the last one are read. A share in which no unit starts points nowhere. The range of a
unit holds the shares that carry a byte of it, and no others.
-/
namespace DataSquare.Compact

/-- The position in the stream of units at which the length in front of one of them starts. -/
def unitStart (units : List Bytes) (unit : Nat) : Nat := (stream (units.take unit)).length

/-- The number of bytes of content in front of a share. -/
def contentBefore (shares : List Share) (index : Nat) : Nat :=
  ((shares.take index).flatMap Share.content).length

/-- Whether a share carries the byte of a stream at a position, in the place that the contents
before it leave for it. -/
def Carries (shares : List Share) (whole : Bytes) (index position : Nat) : Prop :=
  ∃ share place byte, shares[index]? = some share ∧ contentBefore shares index + place = position ∧
    share.content[place]? = some byte ∧ whole[position]? = some byte

/-- What a reader finds who starts at a place in a share and stops where the sequence ends, by the
length that its first share tells. -/
def remainder (shares : List Share) (index place : Nat) : Bytes :=
  match shares.head?.bind Share.sequenceLength, shares[index]? with
  | some length, some share =>
    (share.bytes.drop place ++ (shares.drop (index + 1)).flatMap Share.content).take
      (length.toNat - (contentBefore shares index + (place - share.headerLength)))
  | _, _ => []

/-- The reserved bytes of a share point at a unit: it is the first one whose length starts in the
share, they are the place where it does, and from there on it is read with all units after it. -/
structure PointsAt (shares : List Share) (units : List Bytes) (index : Nat) (share : Share)
    (unit : Nat) (reserved : UInt32) : Prop where
  /-- There is such a unit. -/
  listed : unit < units.length
  /-- Its length starts in the share. -/
  starts : Carries shares (stream units) index (unitStart units unit)
  /-- That of no earlier unit does. -/
  first : ∀ earlier < unit, ¬ Carries shares (stream units) index (unitStart units earlier)
  /-- The share has these reserved bytes. -/
  points : share.reservedBytes = some reserved
  /-- They are behind the header and the content that belongs to earlier units. -/
  place : reserved.toNat =
    share.headerLength + (unitStart units unit - contentBefore shares index)
  /-- The unit and those after it are read from there. -/
  rest : readUnits (remainder shares index reserved.toNat) = .ok (units.drop unit)

/-- A position of the stream lies in the window of no other share. -/
theorem shareOfPosition_eq_iff {position index : Nat} : shareOfPosition position = index ↔
    contentStart index ≤ position ∧ position < contentStart index + contentSize index := by
  rw [← contentStart_succ]
  unfold shareOfPosition contentStart
  simp only [firstCompactContent, laterCompactContent, Nat.add_sub_cancel,
    if_neg (Nat.succ_ne_zero index)]
  split <;> split <;> omega

/-- The windows of later shares start later. -/
theorem contentStart_mono {low high : Nat} (ordered : low ≤ high) :
    contentStart low ≤ contentStart high := by
  induction ordered with
  | refl => exact Nat.le_refl _
  | step _ ih =>
    rw [Nat.succ_eq_add_one, contentStart_succ]
    omega

/-- A range of positions touches the shares that one of its positions lies in. -/
theorem mem_rangeOf_iff {start stop index : Nat} (nonempty : start < stop) :
    (rangeOf start stop).start ≤ index ∧ index < (rangeOf start stop).stop ↔
      ∃ position, start ≤ position ∧ position < stop ∧ shareOfPosition position = index := by
  change shareOfPosition start ≤ index ∧ index < shareOfPosition (stop - 1) + 1 ↔ _
  constructor
  · rintro ⟨first, last⟩
    -- Either the range starts in the share or it holds the start of its window.
    refine ⟨max start (contentStart index), Nat.le_max_left _ _, ?_, ?_⟩
    · have low := contentStart_mono (Nat.le_of_lt_succ last)
      have high := (contentStart_shareOfPosition (stop - 1)).1
      omega
    · have ends := (contentStart_shareOfPosition start).2
      have later := contentStart_mono (Nat.add_le_add_right first 1)
      have wide : 0 < contentSize index := by
        unfold contentSize
        split <;> decide
      rw [contentStart_succ index] at later
      exact shareOfPosition_eq_iff.mpr ⟨Nat.le_max_right _ _, by omega⟩
  · rintro ⟨position, low, high, rfl⟩
    exact ⟨shareOfPosition_mono low, Nat.lt_succ_of_le (shareOfPosition_mono (by omega))⟩

section Starts

variable {units : List Bytes}

/-- What comes behind the start of a unit is the stream of the units from there on. -/
theorem drop_unitStart (units : List Bytes) (unit : Nat) :
    (stream units).drop (unitStart units unit) = stream (units.drop unit) := by
  conv_lhs => rw [← List.take_append_drop unit units, stream_append]
  rw [List.take_append_drop]
  exact List.drop_left

/-- The units from one of them on are read from its start on. -/
theorem readUnits_drop_unitStart (short : (stream units).length < UInt32.size) (unit : Nat) :
    readUnits ((stream units).drop (unitStart units unit)) = .ok (units.drop unit) := by
  have rest := congrArg List.length (drop_unitStart units unit)
  have words : UInt32.size < UInt64.size := by decide
  rw [List.length_drop] at rest
  rw [drop_unitStart]
  exact readUnits_stream (by omega)

/-- A unit starts inside the stream. -/
theorem unitStart_lt {unit : Nat} (listed : unit < units.length) :
    unitStart units unit < (stream units).length := by
  have rest := congrArg List.length (drop_unitStart units unit)
  have positive : 0 < (stream (units.drop unit)).length := by
    rw [List.drop_eq_getElem_cons listed, stream_cons, List.length_append]
    exact Nat.add_pos_left (List.length_pos_iff.mpr (delimited_ne_nil _)) _
  rw [List.length_drop] at rest
  omega

/-- The next unit starts where a unit ends. -/
theorem unitStart_succ {unit : Nat} (listed : unit < units.length) :
    unitStart units (unit + 1) = unitStart units unit + (delimited units[unit]).length := by
  rw [unitStart, unitStart, List.take_add_one, List.getElem?_eq_getElem listed, stream_append,
    List.length_append]
  rw [Option.toList_some, stream_cons, List.length_append]
  rfl

/-- The starts that shares are made with are those of the units. -/
theorem starts_eq_map_unitStart (units : List Bytes) :
    (boundaries 0 units).take units.length = (List.range units.length).map (unitStart units) := by
  refine List.ext_getElem? fun unit => ?_
  by_cases listed : unit < units.length
  · rw [List.getElem?_take_of_lt listed, getElem?_boundaries 0 units (Nat.le_of_lt listed),
      Nat.zero_add, List.getElem?_map, List.getElem?_range listed]
    rfl
  · rw [List.getElem?_eq_none (by rw [List.length_take]; omega),
      List.getElem?_eq_none (by rw [List.length_map, List.length_range]; omega)]

/-- The reserved bytes of a share are the place of the first unit that starts in its window, and
zero without one. -/
theorem reservedFor_starts (units : List Bytes) (share : Nat) :
    (∃ unit < units.length, shareOfPosition (unitStart units unit) = share ∧
      (∀ earlier < unit, shareOfPosition (unitStart units earlier) ≠ share) ∧
      reservedFor ((boundaries 0 units).take units.length) share =
        shareSize - contentSize share + (unitStart units unit - contentStart share)) ∨
    (∀ unit < units.length, shareOfPosition (unitStart units unit) ≠ share) ∧
      reservedFor ((boundaries 0 units).take units.length) share = 0 := by
  have window : ∀ start, (decide (contentStart share ≤ start) &&
      decide (start < contentStart share + contentSize share)) =
        decide (shareOfPosition start = share) := by
    intro start
    rw [← Bool.decide_and, decide_eq_decide]
    exact shareOfPosition_eq_iff.symm
  unfold reservedFor
  simp only [window, starts_eq_map_unitStart, List.find?_map]
  cases found : (List.range units.length).find?
      ((fun start => decide (shareOfPosition start = share)) ∘ unitStart units) with
  | none =>
    rw [List.find?_range_eq_none] at found
    exact .inr ⟨fun unit listed => by simpa using found unit listed, rfl⟩
  | some unit =>
    obtain ⟨starts, listed, first⟩ := List.find?_range_eq_some.mp found
    exact .inl ⟨unit, List.mem_range.mp listed, of_decide_eq_true starts,
      fun earlier before => by simpa using first earlier before, rfl⟩

end Starts

section Contents

variable {shares : List Share} {index : Nat} {share : Share}

/-- The contents of shares are those before a share, its own and those behind it. -/
theorem flatMap_content_eq_append (entry : shares[index]? = some share) :
    shares.flatMap Share.content = (shares.take index).flatMap Share.content ++
      (share.content ++ (shares.drop (index + 1)).flatMap Share.content) := by
  obtain ⟨inside, rfl⟩ := List.getElem?_eq_some_iff.mp entry
  rw [← List.flatMap_cons, ← List.drop_eq_getElem_cons inside, ← List.flatMap_append,
    List.take_append_drop]

/-- The content of a share stands behind the contents before it. -/
theorem getElem?_flatMap_content {place : Nat} (entry : shares[index]? = some share)
    (inside : place < share.content.length) :
    (shares.flatMap Share.content)[contentBefore shares index + place]? =
      share.content[place]? := by
  rw [flatMap_content_eq_append entry, contentBefore,
    List.getElem?_append_right (Nat.le_add_right _ _), Nat.add_sub_cancel_left,
    List.getElem?_append_left inside]

/-- What is found from a place in the content of a share on is what the contents hold from there up
to the end of the sequence. -/
theorem remainder_eq_drop {length : UInt32} {offset : Nat}
    (declared : shares.head?.bind Share.sequenceLength = some length)
    (entry : shares[index]? = some share) (inside : offset ≤ share.content.length) :
    remainder shares index (share.headerLength + offset) =
      ((shares.flatMap Share.content).take length.toNat).drop
        (contentBefore shares index + offset) := by
  have own : share.bytes.drop (share.headerLength + offset) = share.content.drop offset := by
    rw [Share.content, List.drop_drop]
  unfold remainder
  rw [declared, entry]
  dsimp only
  rw [own, Nat.add_sub_cancel_left, List.drop_take, flatMap_content_eq_append entry, contentBefore,
    List.drop_length_add_append, List.drop_append_of_le_length inside]

end Contents

section Written

variable {ns : Namespace} {units : List Bytes}
  (compact : (ns == Namespace.transaction || ns == Namespace.payForBlob) = true)
include compact

/-- The contents in front of a share end where its window starts. -/
theorem contentBefore_of_getElem? {index : Nat} {share : Share}
    (entry : (sequenceOf ns units).shares[index]? = some share) :
    contentBefore (sequenceOf ns units).shares index = contentStart index :=
  length_content_take compact (Nat.le_of_lt (List.getElem?_eq_some_iff.mp entry).1)

/-- The share of a position of the stream carries its byte, and no other share does. -/
theorem carries_sequenceOf_iff {index position : Nat} :
    Carries (sequenceOf ns units).shares (stream units) index position ↔
      position < (stream units).length ∧ shareOfPosition position = index := by
  constructor
  · rintro ⟨share, place, byte, entry, rfl, held, listed⟩
    obtain ⟨short, _⟩ := List.getElem?_eq_some_iff.mp held
    rw [length_content_sequenceOf compact entry] at short
    refine ⟨(List.getElem?_eq_some_iff.mp listed).1, shareOfPosition_eq_iff.mpr ?_⟩
    rw [contentBefore_of_getElem? compact entry]
    omega
  · rintro ⟨listed, rfl⟩
    have inside : shareOfPosition position < (sequenceOf ns units).shares.length := by
      have ordered := shareOfPosition_mono (show position ≤ (stream units).length - 1 by omega)
      rw [length_sequenceOf, compactSharesNeeded_eq (by omega)]
      omega
    have nonempty : units ≠ [] := by
      rintro rfl
      exact absurd listed (Nat.not_lt_zero _)
    have entry := List.getElem?_eq_getElem inside
    have window := shareOfPosition_eq_iff.mp (Eq.refl (shareOfPosition position))
    have place : contentBefore (sequenceOf ns units).shares (shareOfPosition position) +
        (position - contentStart (shareOfPosition position)) = position := by
      rw [contentBefore_of_getElem? compact entry]
      omega
    have held := getElem?_flatMap_content entry
      (show position - contentStart (shareOfPosition position) < _ by
        rw [length_content_sequenceOf compact entry]
        omega)
    have byte := List.getElem?_eq_getElem listed
    rw [place, ← List.getElem?_take_of_lt listed, take_content_sequenceOf compact nonempty, byte] at held
    exact ⟨_, _, _, entry, place, held.symm, byte⟩

/-- The range of a unit holds the shares that carry a byte of it. -/
theorem exists_range_iff_carries {unit : Nat} (listed : unit < units.length) :
    ∃ range, (sequenceOf ns units).unitRanges[unit]? = some range ∧
      ∀ index, (range.start ≤ index ∧ index < range.stop) ↔
        ∃ position, unitStart units unit ≤ position ∧ position < unitStart units (unit + 1) ∧
          Carries (sequenceOf ns units).shares (stream units) index position := by
  have parts : units.take unit ++ units[unit] :: units.drop (unit + 1) = units := by
    rw [← List.drop_eq_getElem_cons listed, List.take_append_drop]
  have range := @getElem?_unitRanges ns (units.take unit) (units.drop (unit + 1)) units[unit]
  rw [parts, List.length_take_of_le (Nat.le_of_lt listed)] at range
  have next := unitStart_succ listed
  have positive : 0 < (delimited units[unit]).length := List.length_pos_iff.mpr (delimited_ne_nil _)
  have bound : unitStart units (unit + 1) ≤ (stream units).length := by
    conv_rhs => rw [← List.take_append_drop (unit + 1) units, stream_append, List.length_append]
    exact Nat.le_add_right _ _
  rw [← unitStart, ← next] at range
  refine ⟨_, range, fun index => ?_⟩
  rw [mem_rangeOf_iff (by omega)]
  refine exists_congr fun position => and_congr_right fun _ => and_congr_right fun high => ?_
  rw [carries_sequenceOf_iff compact]
  exact (and_iff_right (Nat.lt_of_lt_of_le high bound)).symm

/-- From the start of a unit in the content of a share on it is read with all units after it. -/
theorem readUnits_remainder (short : (stream units).length < UInt32.size) {index unit : Nat}
    {share : Share} (entry : (sequenceOf ns units).shares[index]? = some share)
    (starts : shareOfPosition (unitStart units unit) = index) :
    readUnits (remainder (sequenceOf ns units).shares index
      (share.headerLength + (unitStart units unit - contentStart index))) =
        .ok (units.drop unit) := by
  have nonempty : units ≠ [] := by
    rintro rfl
    contradiction
  have width := length_content_sequenceOf compact entry
  have window := shareOfPosition_eq_iff.mp starts
  have frame := @frame_sequenceOf ns units nonempty short
  rw [remainder_eq_drop frame.declared entry (by omega), contentBefore_of_getElem? compact entry,
    Nat.add_sub_cancel' window.1, UInt32.toNat_ofNat_of_lt' short,
    take_content_sequenceOf compact nonempty]
  exact readUnits_drop_unitStart short unit

/-- A share in which a unit starts points at the first one that does, and another share points
nowhere. -/
theorem pointsAt_of_getElem? (short : (stream units).length < UInt32.size) {index : Nat}
    {share : Share} (entry : (sequenceOf ns units).shares[index]? = some share) :
    (∃ unit reserved,
      PointsAt (sequenceOf ns units).shares units index share unit reserved) ∨
    (∀ unit < units.length,
      ¬ Carries (sequenceOf ns units).shares (stream units) index (unitStart units unit)) ∧
      share.reservedBytes = some 0 := by
  have carries := fun position => @carries_sequenceOf_iff ns units compact index position
  have before := contentBefore_of_getElem? compact entry
  have value := toNat_reservedFor ((boundaries 0 units).take units.length) index
  have header : share.headerLength = shareSize - contentSize index := by
    obtain ⟨content, rfl⟩ := exists_shareAt_of_getElem? entry
    exact headerLength_shareAt compact
  have points : share.reservedBytes = some (UInt32.ofNat
      (reservedFor ((boundaries 0 units).take units.length) index)) := by
    obtain ⟨content, rfl⟩ := exists_shareAt_of_getElem? entry
    exact reservedBytes_shareAt compact
  rcases reservedFor_starts units index with ⟨unit, listed, starts, first, place⟩ | ⟨none, place⟩
  · left
    refine ⟨unit, _, listed, (carries _).mpr ⟨unitStart_lt listed, starts⟩,
      fun earlier less => mt (fun found => ((carries _).mp found).2) (first earlier less),
      points, ?_, ?_⟩
    · rw [value, place, header, before]
    · rw [value, place, ← header]
      exact readUnits_remainder compact short entry starts
  · right
    refine ⟨fun unit listed found => none unit listed ((carries _).mp found).2, ?_⟩
    rw [points, place]
    rfl

end Written

/-- In a sequence of units every share in which the length of a unit starts points at the first
such unit, from which it is read with all later ones, and every other share points nowhere. The
range of each unit holds the shares that carry a byte of it, and no others. -/
theorem pointers_of_split {ns : Namespace} {units : List Bytes} {sequence : Sequence}
    (compact : ns = Namespace.transaction ∨ ns = Namespace.payForBlob)
    (written : split ns units = .ok sequence) :
    (∀ (index : Nat) (share : Share), sequence.shares[index]? = some share →
      (∃ unit reserved, PointsAt sequence.shares units index share unit reserved) ∨
      (∀ unit < units.length,
        ¬ Carries sequence.shares (stream units) index (unitStart units unit)) ∧
        share.reservedBytes = some 0) ∧
    sequence.unitRanges.length = units.length ∧
    ∀ unit < units.length, ∃ range, sequence.unitRanges[unit]? = some range ∧
      ∀ index, (range.start ≤ index ∧ index < range.stop) ↔
        ∃ position, unitStart units unit ≤ position ∧ position < unitStart units (unit + 1) ∧
          Carries sequence.shares (stream units) index position := by
  obtain ⟨short, rfl⟩ := split_eq_ok.mp written
  have named := Namespace.isCompact_iff.mpr compact
  exact ⟨fun index share entry => pointsAt_of_getElem? named short entry, length_unitRanges,
    fun unit listed => exists_range_iff_carries named listed⟩

/-- A unit of 500 bytes goes on into the second share, which points at the unit behind it. -/
theorem pointers_of_two_units :
    let units : List Bytes := [List.replicate 500 1, List.replicate 10 2]
    ∃ sequence share reserved, split Namespace.payForBlob units = .ok sequence ∧
      sequence.shares[1]? = some share ∧
      PointsAt sequence.shares units 1 share 1 reserved ∧ sequence.unitRanges.length = 2 := by
  intro units
  have first : unitStart units 1 = 502 := by
    change (stream [List.replicate 500 1]).length = 502
    rw [length_stream_singleton, List.length_replicate]
    simp [Varint.size]
  have size : (stream units).length = 513 := by
    change (stream [List.replicate 500 1, List.replicate 10 2]).length = 513
    rw [stream_cons, List.length_append, length_delimited, length_stream_singleton,
      List.length_replicate, List.length_replicate]
    simp [Varint.size]
  have written : split Namespace.payForBlob units = .ok (sequenceOf Namespace.payForBlob units) :=
    split_eq_ok.mpr ⟨by rw [size]; decide, rfl⟩
  obtain ⟨pointers, count, _⟩ := pointers_of_split (.inr rfl) written
  have inside : 1 < (sequenceOf Namespace.payForBlob units).shares.length := by
    rw [length_sequenceOf, size]
    decide
  have carries := fun position => @carries_sequenceOf_iff Namespace.payForBlob units (by decide)
    1 position
  rcases pointers 1 _ (List.getElem?_eq_getElem inside) with
    ⟨unit, reserved, points⟩ | ⟨absent, _⟩
  · have later : unit ≠ 0 := by
      rintro rfl
      exact absurd ((carries _).mp points.starts).2 (by decide)
    obtain rfl : unit = 1 := by
      have listed : unit < 2 := points.listed
      omega
    exact ⟨_, _, reserved, written, List.getElem?_eq_getElem inside, points, count⟩
  · refine absurd ((carries _).mpr ⟨?_, ?_⟩) (absent 1 (by decide))
    · rw [first, size]
      decide
    · rw [first]
      rfl

end DataSquare.Compact
