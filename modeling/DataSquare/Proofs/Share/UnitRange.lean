import DataSquare.Proofs.Share.ReadBack

/-!
# The shares of a unit

The contents of the shares of a compact sequence are windows of its stream, one after the other:
the first one is shorter than the others by the length field. A position of the stream lies in the
window of its share, so the shares from that of the first byte of a unit to that of its last byte
hold the unit as a whole. In front of it they hold what is left of earlier units.
-/
namespace DataSquare.Compact

/-- The window of a share starts where that of the share before it ends. -/
theorem contentStart_succ (share : Nat) :
    contentStart (share + 1) = contentStart share + contentSize share := by
  unfold contentStart contentSize
  by_cases first : share = 0
  · subst first
    rfl
  · rw [if_neg first, if_neg first, if_neg (Nat.succ_ne_zero share)]
    have later : share + 1 - 1 = share - 1 + 1 := by omega
    rw [later, Nat.add_mul, Nat.one_mul, Nat.add_assoc]

/-- A position of the stream lies in the window of its share. -/
theorem contentStart_shareOfPosition (position : Nat) :
    contentStart (shareOfPosition position) ≤ position ∧
      position < contentStart (shareOfPosition position + 1) := by
  unfold shareOfPosition contentStart
  simp only [firstCompactContent, laterCompactContent]
  by_cases front : position < 474
  · rw [if_pos front, if_pos rfl, if_neg (Nat.succ_ne_zero 0)]
    omega
  · have later : 1 + (position - 474) / 478 ≠ 0 := by omega
    rw [if_neg front, if_neg later, if_neg (Nat.succ_ne_zero _)]
    omega

/-- Later positions of the stream lie in no earlier share. -/
theorem shareOfPosition_mono {low high : Nat} (ordered : low ≤ high) :
    shareOfPosition low ≤ shareOfPosition high := by
  unfold shareOfPosition
  simp only [firstCompactContent, laterCompactContent]
  by_cases front : low < 474
  · rw [if_pos front]
    exact Nat.zero_le _
  · rw [if_neg front, if_neg (by omega)]
    omega

/-- A stream takes the shares up to that of its last byte. -/
theorem compactSharesNeeded_eq {length : Nat} (positive : 0 < length) :
    compactSharesNeeded length = shareOfPosition (length - 1) + 1 := by
  rw [compactSharesNeeded, sharesNeeded, if_neg (Nat.ne_of_gt positive), shareOfPosition]
  simp only [firstCompactContent, laterCompactContent]
  by_cases alone : length ≤ 474
  · rw [if_pos alone, if_pos (by omega)]
  · have quotient : ceilDiv (length - 474) 478 = (length - 1 - 474) / 478 + 1 := by
      unfold ceilDiv
      split <;> omega
    rw [if_neg alone, if_neg (by omega), quotient, Nat.add_assoc]

/-- The shares of a range of positions that is not empty have room for it. -/
theorem rangeOf_bounds (start : Nat) {count : Nat} (positive : 0 < count) :
    contentStart (rangeOf start (start + count)).start ≤ start ∧
      start + count ≤ contentStart (rangeOf start (start + count)).stop ∧
      (rangeOf start (start + count)).start < (rangeOf start (start + count)).stop := by
  have first := (contentStart_shareOfPosition start).1
  have last := (contentStart_shareOfPosition (start + count - 1)).2
  have ordered := shareOfPosition_mono (show start ≤ start + count - 1 by omega)
  refine ⟨first, ?_, Nat.lt_succ_of_le ordered⟩
  change start + count ≤ contentStart (shareOfPosition (start + count - 1) + 1)
  omega

/-- The shares of a range of positions of a stream are among those that the stream takes. -/
theorem rangeOf_stop_le {start stop length : Nat} (positive : 0 < stop) (inside : stop ≤ length) :
    (rangeOf start stop).stop ≤ compactSharesNeeded length := by
  rw [compactSharesNeeded_eq (Nat.lt_of_lt_of_le positive inside)]
  exact Nat.succ_le_succ (shareOfPosition_mono (by omega))

/-- The units start where the streams of those before them end. -/
theorem getElem?_boundaries (start : Nat) (units : List Bytes) {index : Nat}
    (inside : index ≤ units.length) : (boundaries start units)[index]? =
      some (start + (stream (units.take index)).length) := by
  induction units generalizing start index with
  | nil =>
    obtain rfl : index = 0 := Nat.le_zero.mp inside
    rfl
  | cons unit units ih =>
    cases index with
    | zero => rfl
    | succ index =>
      rw [boundaries, List.getElem?_cons_succ, ih _ (Nat.le_of_succ_le_succ inside),
        List.take_succ_cons, stream_cons, List.length_append, Nat.add_assoc]

/-- Streams follow each other when their units do. -/
theorem stream_append (left right : List Bytes) :
    stream (left ++ right) = stream left ++ stream right := List.flatMap_append

section Windows

variable {ns : Namespace} {units : List Bytes}

/-- Every unit has a range. -/
theorem length_unitRanges : (sequenceOf ns units).unitRanges.length = units.length := by
  have marks : ∀ start, (boundaries start units).length = units.length + 1 := by
    intro start
    induction units generalizing start with
    | nil => rfl
    | cons unit units ih => rw [boundaries, List.length_cons, ih, List.length_cons]
  unfold sequenceOf
  split
  · rename_i none
    rw [List.isEmpty_iff.mp none]
    rfl
  · rw [List.length_zipWith, List.length_drop, marks, Nat.add_sub_cancel]
    exact Nat.min_eq_right (Nat.le_succ _)

/-- The range of a unit is that of the positions from the end of the units before it. -/
theorem getElem?_unitRanges {earlier later : List Bytes} {unit : Bytes} :
    (sequenceOf ns (earlier ++ unit :: later)).unitRanges[earlier.length]? =
      some (rangeOf (stream earlier).length
        ((stream earlier).length + (delimited unit).length)) := by
  have inside : earlier.length < (earlier ++ unit :: later).length := by
    rw [List.length_append, List.length_cons]
    omega
  have start := getElem?_boundaries 0 (earlier ++ unit :: later) (Nat.le_of_lt inside)
  have stop := getElem?_boundaries 0 (earlier ++ unit :: later) inside
  have before : (earlier ++ unit :: later).take earlier.length = earlier := List.take_left
  have untilEnd : (earlier ++ unit :: later).take (earlier.length + 1) = earlier ++ [unit] := by
    rw [List.take_length_add_append]
    rfl
  have whole : (stream (earlier ++ [unit])).length =
      (stream earlier).length + (delimited unit).length := by
    rw [stream_append, List.length_append, stream_cons, List.length_append]
    rfl
  rw [before, Nat.zero_add] at start
  rw [untilEnd, whole, Nat.zero_add] at stop
  have nonempty : ¬ (earlier ++ unit :: later).isEmpty = true := by simp
  rw [sequenceOf, if_neg nonempty, List.getElem?_zipWith, start, List.getElem?_drop,
    Nat.add_comm 1, stop]

variable (compact : (ns == Namespace.transaction || ns == Namespace.payForBlob) = true)
include compact

/-- The content of a share fills its window. -/
theorem length_content_sequenceOf {share : Share} {index : Nat}
    (entry : (sequenceOf ns units).shares[index]? = some share) :
    share.content.length = contentSize index := by
  obtain ⟨content, rfl⟩ := exists_shareAt_of_getElem? entry
  have width := contentSize_le index
  rw [Share.content, List.length_drop, Share.length_eq, headerLength_shareAt compact]
  omega

/-- The contents of the first shares end where the window of the next one starts. -/
theorem length_content_take {count : Nat} (inside : count ≤ (sequenceOf ns units).shares.length) :
    (((sequenceOf ns units).shares.take count).flatMap Share.content).length =
      contentStart count := by
  induction count with
  | zero => rfl
  | succ count ih =>
    have entry := List.getElem?_eq_getElem
      (show count < (sequenceOf ns units).shares.length by omega)
    rw [List.take_add_one, entry, List.flatMap_append, List.length_append, ih (by omega),
      contentStart_succ]
    have size := length_content_sequenceOf compact entry
    rw [Option.toList_some, List.flatMap_singleton, size]

end Windows

/-- What starts not after the end of `before` and ends not before that of `item` holds `item`, and in
front of it what is left of `before`. -/
theorem exists_parts_of_prefix {before item start held whole : Bytes}
    (items : before ++ item <+: whole) (windows : start ++ held <+: whole)
    (first : start.length ≤ before.length)
    (last : (before ++ item).length ≤ (start ++ held).length) :
    ∃ front back, start ++ front = before ∧ held = front ++ item ++ back := by
  have startFront : start <+: whole := (List.prefix_append start held).trans windows
  have beforeFront : before <+: whole := (List.prefix_append before item).trans items
  obtain ⟨front, rfl⟩ := List.prefix_of_prefix_length_le startFront beforeFront first
  obtain ⟨back, parts⟩ := List.prefix_of_prefix_length_le items windows last
  rw [List.append_assoc, List.append_assoc] at parts
  have rest := List.append_cancel_left parts
  exact ⟨front, back, rfl, by rw [← rest, List.append_assoc]⟩

/-- The shares of a unit hold it with its length in front. They are shares of the sequence, and the
contents of those before them go on into theirs with what is left of earlier units. -/
theorem exists_range_of_unit (ns : Namespace)
    (compact : (ns == Namespace.transaction || ns == Namespace.payForBlob) = true)
    (earlier : List Bytes) (unit : Bytes) (later : List Bytes) :
    ∃ (range : ShareRange) (front back : Bytes),
      (sequenceOf ns (earlier ++ unit :: later)).unitRanges[earlier.length]? = some range ∧
      range.start < range.stop ∧
      range.stop ≤ (sequenceOf ns (earlier ++ unit :: later)).shares.length ∧
      ((sequenceOf ns (earlier ++ unit :: later)).shares.take range.start).flatMap
        Share.content ++ front = stream earlier ∧
      (((sequenceOf ns (earlier ++ unit :: later)).shares.drop range.start).take
        (range.stop - range.start)).flatMap Share.content = front ++ delimited unit ++ back := by
  have positive : 0 < (delimited unit).length := List.length_pos_iff.mpr (delimited_ne_nil unit)
  have whole : stream (earlier ++ unit :: later) =
      stream earlier ++ delimited unit ++ stream later := by
    rw [stream_append, stream_cons, List.append_assoc]
  have size := congrArg List.length whole
  rw [List.length_append, List.length_append] at size
  have range := @getElem?_unitRanges ns earlier later unit
  obtain ⟨start, stop, ordered⟩ := rangeOf_bounds (stream earlier).length positive
  have inside : (rangeOf (stream earlier).length
      ((stream earlier).length + (delimited unit).length)).stop ≤
        (sequenceOf ns (earlier ++ unit :: later)).shares.length := by
    rw [length_sequenceOf]
    exact rangeOf_stop_le (by omega) (by omega)
  generalize rangeOf (stream earlier).length
    ((stream earlier).length + (delimited unit).length) = place at *
  have startLength := length_content_take compact
    (show place.start ≤ (sequenceOf ns (earlier ++ unit :: later)).shares.length by omega)
  have stopLength := length_content_take compact inside
  have contents := take_content_sequenceOf compact
    (show earlier ++ unit :: later ≠ [] by simp)
  generalize (sequenceOf ns (earlier ++ unit :: later)).shares = shares at *
  have cut : shares.take place.stop =
      shares.take place.start ++ (shares.drop place.start).take (place.stop - place.start) := by
    rw [← List.take_add, Nat.add_sub_cancel' (Nat.le_of_lt ordered)]
  have items : stream earlier ++ delimited unit <+: shares.flatMap Share.content := by
    refine List.IsPrefix.trans ?_ (List.prefix_iff_eq_take.mpr contents.symm)
    rw [whole]
    exact List.prefix_append _ _
  have windows : (shares.take place.stop).flatMap Share.content <+:
      shares.flatMap Share.content := (List.take_prefix place.stop shares).flatMap _
  rw [cut, List.flatMap_append] at windows stopLength
  obtain ⟨front, back, left, held⟩ := exists_parts_of_prefix items windows
    (by rw [startLength]; exact start) (by rw [stopLength, List.length_append]; exact stop)
  exact ⟨place, front, back, range, ordered, inside, left, held⟩

end DataSquare.Compact
