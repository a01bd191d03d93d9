import DataSquare.Proofs.Share.ReadBack

/-!
# Damaged sequences

What is written as a sequence is read back, and once a share of it is gone, stands in it twice or
has the mark of a first share turned over, nothing is read at all. The first share tells how many
shares there are and no other share can take its place, so damaged shares have no frame of a
sequence, and only shares with a frame are read.
-/
namespace DataSquare

namespace Share

/-- The share with its mark of a first share turned over. -/
def flipStart (share : Share) : Share :=
  ⟨share.bytes.modify 29 (· ^^^ 1), by rw [List.length_modify, share.length_eq]⟩

/-- Turning the mark over makes a first share a later one and a later share a first one. -/
theorem isSequenceStart_flipStart (share : Share) :
    share.flipStart.isSequenceStart = !share.isSequenceStart := by
  have inside : 29 < share.bytes.length := by rw [share.length_eq]; decide
  have own : share.info = ⟨share.bytes[29]⟩ := by
    rw [info, List.headD_eq_head?_getD, List.head?_drop, List.getElem?_eq_getElem inside]
    rfl
  have flipped : share.flipStart.info = ⟨share.bytes[29] ^^^ 1⟩ := by
    rw [info, List.headD_eq_head?_getD, List.head?_drop, flipStart, List.getElem?_modify_eq,
      List.getElem?_eq_getElem inside]
    rfl
  rw [isSequenceStart, isSequenceStart, flipped, own, InfoByte.isSequenceStart_flip]

/-- What can happen to one share of a sequence. -/
inductive Damaged : List Share → List Share → Prop where
  /-- A share is gone. -/
  | dropped (before : List Share) (share : Share) (after : List Share) :
    Damaged (before ++ share :: after) (before ++ after)
  /-- A share stands somewhere a second time. -/
  | repeated (before : List Share) (share : Share) (after : List Share)
    (known : share ∈ before ++ after) : Damaged (before ++ after) (before ++ share :: after)
  /-- The mark of a share is turned over. -/
  | flipped (before : List Share) (share : Share) (after : List Share) :
    Damaged (before ++ share :: after) (before ++ share.flipStart :: after)

section Frames

variable {needed : Nat → Nat} {ns other : Namespace} {length told : UInt32}
  {first second : Share} {rest more shares damaged : List Share}

/-- A share behind the first one is not the first one of another sequence. -/
theorem Frame.not_behind (frame : Frame needed ns length (first :: rest))
    (front : Frame needed other told (second :: more)) : second ∉ rest := by
  intro behind
  have start := isSequenceStart_of_sequenceLength (front.declared : second.sequenceLength = _)
  rw [frame.continued second behind] at start
  contradiction

/-- Sequences with one first share have one number of shares. -/
theorem Frame.length_eq (frame : Frame needed ns length (first :: rest))
    (same : Frame needed other told (first :: more)) : rest.length = more.length := by
  obtain rfl : length = told := Option.some.inj
    ((frame.declared : first.sequenceLength = some length).symm.trans same.declared)
  exact Nat.succ.inj (frame.count.trans same.count.symm)

/-- A damaged sequence has no frame. -/
theorem Frame.not_of_damaged (frame : Frame needed ns length shares)
    (damage : Damaged shares damaged) : ¬ Frame needed other told damaged := by
  intro left
  -- Damage behind the first share leaves the length told, damage to it takes the mark away.
  cases damage with
  | dropped before share after =>
    cases before with
    | nil =>
      cases after with
      | nil => exact absurd left Share.not_frame_nil
      | cons second after => exact frame.not_behind left List.mem_cons_self
    | cons first before =>
      have count := frame.length_eq left
      simp only [List.append_eq, List.length_append, List.length_cons] at count
      omega
  | repeated before share after known =>
    cases before with
    | nil =>
      cases after with
      | nil => exact absurd frame Share.not_frame_nil
      | cons first after => exact left.not_behind frame List.mem_cons_self
    | cons first before =>
      have count := frame.length_eq left
      simp only [List.append_eq, List.length_append, List.length_cons] at count
      omega
  | flipped before share after =>
    cases before with
    | nil =>
      have start := isSequenceStart_of_sequenceLength
        (frame.declared : share.sequenceLength = some length)
      have marked := isSequenceStart_of_sequenceLength
        (left.declared : share.flipStart.sequenceLength = some told)
      rw [isSequenceStart_flipStart, start] at marked
      contradiction
    | cons first before =>
      have later := frame.continued share (List.mem_append_right before List.mem_cons_self)
      have marked := left.continued share.flipStart
        (List.mem_append_right before List.mem_cons_self)
      rw [isSequenceStart_flipStart, later] at marked
      contradiction

end Frames

end Share

/-- Units whose stream fits its length field are written to as many shares as the stream needs and
read back from them, and from damaged shares nothing is read. -/
theorem Compact.exists_split_refusing_damage {ns : Namespace} {units : List Bytes}
    (compact : ns = Namespace.transaction ∨ ns = Namespace.payForBlob) (nonempty : units ≠ [])
    (short : (stream units).length < UInt32.size) :
    ∃ sequence, split ns units = .ok sequence ∧
      sequence.shares.length = compactSharesNeeded (stream units).length ∧
      parse sequence.shares = .ok units ∧
      ∀ damaged, Share.Damaged sequence.shares damaged →
        ∃ cause, parse damaged = .error cause := by
  refine ⟨sequenceOf ns units, split_eq_ok.mpr ⟨short, rfl⟩, length_sequenceOf,
    parse_sequenceOf (Namespace.isCompact_iff.mpr compact) nonempty short,
    fun damaged damage => exists_error_of_ne_ok ?_⟩
  intro others read
  obtain ⟨_, _, frame, _⟩ := parse_eq_ok_iff.mp read
  exact (frame_sequenceOf nonempty short).not_of_damaged damage frame

/-- A unit of 600 bytes and an empty one take two shares. -/
theorem Compact.exists_split_refusing_damage_of_two_units :
    ∃ sequence, split Namespace.payForBlob [List.replicate 600 7, []] = .ok sequence ∧
      sequence.shares.length = 2 ∧ parse sequence.shares = .ok [List.replicate 600 7, []] ∧
      ∀ damaged, Share.Damaged sequence.shares damaged →
        ∃ cause, parse damaged = .error cause := by
  have size : (stream [List.replicate 600 7, []]).length = 603 := by
    rw [stream_cons, List.length_append, length_delimited, length_stream_singleton,
      List.length_replicate]
    simp [Varint.size]
  obtain ⟨sequence, written, count, read, refused⟩ := @exists_split_refusing_damage
    Namespace.payForBlob _ (.inr rfl) (List.cons_ne_nil _ _)
    (show (stream [List.replicate 600 7, []]).length < UInt32.size by rw [size]; decide)
  exact ⟨sequence, written, by rw [count, size]; rfl, read, refused⟩

/-- Data that fits its length field is written to as many shares as it needs, at least one, and read
back from them, and from damaged shares nothing is read. -/
theorem Sparse.exists_encode_refusing_damage {ns : Namespace} {data : Bytes}
    (sparse : ns ≠ Namespace.transaction ∧ ns ≠ Namespace.payForBlob)
    (short : data.length < UInt32.size) :
    ∃ shares, encode data ns = .ok shares ∧
      shares.length = max 1 (sparseSharesNeeded data.length) ∧
      (∀ share ∈ shares, share.bytes.length = shareSize) ∧
      decode shares = .ok data ∧
      ∀ damaged, Share.Damaged shares damaged → ∃ cause, decode damaged = .error cause := by
  refine ⟨sharesOf ns 0 data, write_eq_ok.mpr ⟨short, by decide, rfl⟩, length_sharesOf_eq_max,
    fun share _ => share.length_eq, ?_, fun damaged damage => exists_error_of_ne_ok ?_⟩
  · rw [decode, readSequence_sharesOf 0 short (Namespace.isSparse_iff.mpr sparse)]
    rfl
  · intro other read
    obtain ⟨_, sequence, _⟩ := map_eq_ok.mp read
    obtain ⟨_, frame, _⟩ := readSequence_eq_ok_iff.mp sequence
    exact (frame_sharesOf short).not_of_damaged damage frame

/-- A thousand bytes take three shares. -/
theorem Sparse.exists_encode_refusing_damage_of_thousand_bytes :
    ∃ shares, encode (List.replicate 1000 7) Namespace.lowestUser = .ok shares ∧
      shares.length = 3 ∧ decode shares = .ok (List.replicate 1000 7) ∧
      ∀ damaged, Share.Damaged shares damaged → ∃ cause, decode damaged = .error cause := by
  have size : (List.replicate 1000 (7 : UInt8)).length = 1000 := List.length_replicate
  obtain ⟨shares, written, count, _, read, refused⟩ := @exists_encode_refusing_damage
    Namespace.lowestUser _ (by decide)
    (show (List.replicate 1000 (7 : UInt8)).length < UInt32.size by rw [size]; decide)
  exact ⟨shares, written, by rw [count, size]; rfl, read, refused⟩

end DataSquare
