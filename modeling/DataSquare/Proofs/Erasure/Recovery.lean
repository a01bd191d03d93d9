import DataSquare.Proofs.Erasure.Codeword

/-!
# Recovery of missing chunks

Whichever chunks of a codeword are missing, as many as there are data chunks restore all others, and
with fewer nothing changes. The chunks that are present are a part of the numbered line, so their
field points are distinct, and the weights of the first of them are the rows of the code for the
missing ones times the inverse of the rows for those present.
-/
namespace DataSquare.Erasure

open Matrix

/-- The chunks of a line, each of them missing or there. -/
def Blanked (line : List Bytes) (shards : List (Option Bytes)) : Prop :=
  List.Forall₂ (fun chunk shard => shard = none ∨ shard = some chunk) line shards

/-- Present chunks of one positive size pass the check, after others of the size. -/
theorem checkPresent_of_blanked {size : Nat} (positive : 0 < size) {line : List Bytes}
    {shards : List (Option Bytes)} (blanked : Blanked line shards)
    (even : ∀ chunk ∈ line, chunk.length = size) {before : Option Nat}
    (same : before = none ∨ before = some size) : checkPresent before shards = .ok () := by
  induction blanked generalizing before with
  | nil => rfl
  | @cons chunk shard line shards here rest ih =>
    have tail := fun other member => even other (List.mem_cons_of_mem chunk member)
    have head := even chunk List.mem_cons_self
    cases here with
    | inl missing =>
      rw [missing, checkPresent]
      exact ih tail same
    | inr there =>
      have filled : chunk.isEmpty = false := by
        rw [List.isEmpty_eq_false_iff, ← List.length_pos_iff, head]
        exact positive
      have equal : before.any (· != chunk.length) = false := by
        rcases same with rfl | rfl <;> simp [head]
      rw [there, checkPresent, if_neg (by simp [filled]), if_neg (by simp [equal]), head]
      exact ih tail (.inr rfl)

/-- Chunks that are present are a part of the numbered line. -/
theorem exists_present_from {line : List Bytes} {shards : List (Option Bytes)}
    (blanked : Blanked line shards) (start : Nat) :
    ∃ entries : List (Bytes × Nat), entries.Sublist (line.zipIdx start) ∧
      entries.length = shards.countP Option.isSome ∧
      ((shards.zipIdx start).filterMap fun (chunk, position) => chunk.map (point position, ·)) =
        entries.map fun (chunk, position) => (point position, chunk) := by
  induction blanked generalizing start with
  | nil => exact ⟨[], List.Sublist.refl _, rfl, rfl⟩
  | @cons chunk shard line shards here rest ih =>
    obtain ⟨entries, part, count, same⟩ := ih (start + 1)
    cases here with
    | inl missing =>
      refine ⟨entries, part.cons _, ?_, ?_⟩
      · simpa [missing] using count
      · simpa [missing] using same
    | inr there =>
      refine ⟨(chunk, start) :: entries, part.cons_cons _, ?_, ?_⟩
      · simpa [there] using count
      · simpa [there] using same

/-- Chunks that are all present are the line. -/
theorem Blanked.eq_map_some {line : List Bytes} {shards : List (Option Bytes)}
    (blanked : Blanked line shards) (all : line.length ≤ shards.countP Option.isSome) :
    shards = line.map some := by
  induction blanked with
  | nil => rfl
  | @cons chunk shard line shards here rest ih =>
    have few := List.countP_le_length (p := Option.isSome) (l := shards)
    have length := rest.length_eq
    cases here with
    | inl missing =>
      rw [missing, List.countP_cons, List.length_cons] at all
      simp at all
      omega
    | inr there =>
      rw [there, List.countP_cons, List.length_cons] at all
      rw [there, List.map_cons, ih (by simpa using all)]

/-- Checked chunks of a line are all there, too few, or the others are interpolated. -/
theorem run_restore {shards : List (Option Bytes)} {count : Nat} (filled : 0 < count)
    (narrow : 2 * count ≤ maxChunks) (length : shards.length = 2 * count)
    (checked : checkPresent none shards = .ok ()) : restore.run.run shards =
      if (present shards).length < 2 * count then
        if (present shards).length < count then (.error .tooFewPresent, shards)
        else (.ok (), (interpolate ((present shards).take count) shards).map some)
      else (.ok (), shards) := by
  have half : shards.length / 2 = count := by omega
  have data : count ≠ 0 := by omega
  have taken : ¬ maxChunks < 2 * count := by omega
  change ExceptT.run (m := StateM (List (Option Bytes))) (if shards.length / 2 = 0 then _ else
    if maxChunks < shards.length then _ else _) shards = _
  rw [half, if_neg data, length, if_neg taken, checked]
  by_cases missing : (present shards).length < 2 * count
  · by_cases few : (present shards).length < count
    · simp only [if_pos missing, if_pos few]
      rfl
    · simp only [if_pos missing, if_neg few]
      rfl
  · simp only [if_neg missing]
    rfl

/-- The first entries of a part of a numbered line have places of their own on it. -/
theorem exists_places {chunks : List Bytes} {count : Nat} (length : chunks.length = 2 * count)
    {entries : List (Bytes × Nat)} (part : entries.Sublist chunks.zipIdx)
    (many : count ≤ entries.length) : ∃ places : Fin count → Fin (2 * count),
      places.Injective ∧ entries.take count =
        List.ofFn fun index => (chunks.getD (places index) [], (places index : Nat)) := by
  generalize first : entries.take count = known
  have sublist : known.Sublist chunks.zipIdx :=
    first ▸ (List.take_sublist count entries).trans part
  have size : known.length = count := by
    rw [← first, List.length_take]
    omega
  have nodup : (known.map Prod.snd).Nodup := by
    apply (sublist.map Prod.snd).nodup
    rw [List.zipIdx_map_snd]
    exact List.nodup_range'
  rw [← List.ofFn_get known, List.map_ofFn, List.nodup_ofFn] at nodup
  have stored (index : Fin known.length) : chunks[(known.get index).2]? = some (known.get index).1 :=
    List.mem_zipIdx_iff_getElem?.mp (sublist.subset (List.get_mem known index))
  have bound (index : Fin known.length) : (known.get index).2 < 2 * count := by
    rw [← length]
    exact (List.getElem?_eq_some_iff.mp (stored index)).1
  subst size
  refine ⟨fun index => ⟨(known.get index).2, bound index⟩, ?_, ?_⟩
  · intro left right same
    exact nodup (congrArg Fin.val same)
  · conv_lhs => rw [← List.ofFn_get known]
    congr 1
    funext index
    rw [List.getD_eq_getElem?_getD, stored index]
    rfl

section Codeword

variable {count size : Nat} {chunks : List Bytes} (narrow : 2 * count ≤ maxChunks)
  (codeword : Codeword count size chunks)
include narrow codeword

/-- Every chunk of a codeword is a combination of any others, as many as there are data. -/
theorem combine_of_codeword {places : Fin count → Fin (2 * count)} (distinct : places.Injective)
    {index : Nat} (inside : index < 2 * count) :
    combine ((List.ofFn (pointsAt places)).map
      (weight (List.ofFn (pointsAt places)) (point index))) size
      (List.ofFn fun row => chunks.getD (places row) []) = chunks.getD index [] := by
  have even : ∀ chunk ∈ List.ofFn fun row => chunks.getD (places row) [],
      chunk.length = size := by
    intro chunk member
    obtain ⟨row, rfl⟩ := List.mem_ofFn.mp member
    exact codeword.length_getD (places row).isLt
  apply eq_of_symbolAt (length_combine even _) (codeword.length_getD inside)
  intro position within
  have weighted := congrFun (weightMatrix_mulVec narrow distinct id
    (symbols count position chunks)) ⟨index, inside⟩
  rw [← codeword.symbols_eq position within, ← weightedSum_weights] at weighted
  rw [symbolAt_combine even _ within, List.map_ofFn (g := symbolAt position)]
  exact weighted

variable (filled : 0 < count) {shards : List (Option Bytes)} (blanked : Blanked chunks shards)
include filled blanked

/-- Missing chunks of a codeword are interpolated from as many present ones as there are data. -/
theorem interpolate_of_codeword {places : Fin count → Fin (2 * count)}
    (distinct : places.Injective) :
    interpolate (List.ofFn fun row => (point (places row), chunks.getD (places row) [])) shards =
      chunks := by
  have nodes : (List.ofFn fun row => (point (places row), chunks.getD (places row) [])).map
      Prod.fst = List.ofFn (pointsAt places) := by
    rw [List.map_ofFn]
    rfl
  have known : (List.ofFn fun row => (point (places row), chunks.getD (places row) [])).map
      Prod.snd = List.ofFn fun row => chunks.getD (places row) [] := by
    rw [List.map_ofFn]
    rfl
  have head : ((List.ofFn fun row => chunks.getD (places row) []).headD []).length = size := by
    cases count with
    | zero => exact absurd filled (Nat.lt_irrefl 0)
    | succ count =>
      rw [List.ofFn_succ, List.headD_cons]
      exact codeword.length_getD (places 0).isLt
  have sameLength := blanked.length_eq
  apply List.ext_getElem (by simp [interpolate, sameLength])
  intro index _ bound
  have place : index < shards.length := sameLength ▸ bound
  have shard := blanked.get bound place
  simp only [List.get_eq_getElem] at shard
  simp only [interpolate, nodes, known, head]
  rw [List.getElem_map, List.getElem_zipIdx, Nat.zero_add]
  cases shard with
  | inl gone =>
    rw [gone]
    have value := combine_of_codeword narrow codeword distinct (codeword.length ▸ bound)
    rw [List.getD_eq_getElem _ _ bound] at value
    exact value
  | inr there => rw [there]

/-- A codeword is restored from as many chunks as there are data, and left alone with fewer. -/
theorem run_restore_of_codeword (positive : 0 < size) : restore.run.run shards =
    if shards.countP Option.isSome < count then (.error .tooFewPresent, shards)
    else (.ok (), chunks.map some) := by
  have length : shards.length = 2 * count := blanked.length_eq ▸ codeword.length
  have checked := checkPresent_of_blanked positive blanked codeword.even (.inl rfl)
  obtain ⟨entries, part, presentLength, same⟩ := exists_present_from blanked 0
  change present shards = _ at same
  rw [run_restore filled narrow length checked, same, List.length_map, presentLength]
  by_cases few : shards.countP Option.isSome < count
  · have gaps : shards.countP Option.isSome < 2 * count := by omega
    rw [if_pos gaps, if_pos few, if_pos few]
  rw [if_neg few, if_neg few]
  -- The first chunks that are present are interpolated. When all are, nothing is computed.
  by_cases gaps : shards.countP Option.isSome < 2 * count
  · obtain ⟨places, distinct, known⟩ := exists_places codeword.length part (by omega)
    rw [if_pos gaps, ← List.map_take, known, List.map_ofFn]
    have restored := interpolate_of_codeword narrow codeword filled blanked distinct
    exact congrArg (fun filled => (Except.ok (), filled.map some)) restored
  · have all := blanked.eq_map_some (by rw [codeword.length]; omega)
    rw [if_neg gaps, all]

end Codeword

/-- Data of one positive size, not too many of them, get as many parity chunks, and whatever chunks
of both are missing, as many as there are data restore all to what they were. With fewer, chunks
stay as they are, and the cause is that too few are present. -/
theorem restore_of_encode {data : List Bytes} {size : Nat} (filled : 0 < data.length)
    (narrow : data.length ≤ 128) (positive : 0 < size)
    (even : ∀ chunk ∈ data, chunk.length = size) : ∃ parity : List Bytes,
      encode data = .ok parity ∧ parity.length = data.length ∧
      ∀ shards, Blanked (data ++ parity) shards →
        (data.length ≤ shards.countP Option.isSome →
          restore.run.run shards = (.ok (), (data ++ parity).map some) ∧
          decode shards = .ok (data ++ parity)) ∧
        (shards.countP Option.isSome < data.length →
          restore.run.run shards = (.error .tooFewPresent, shards) ∧
          decode shards = .error .tooFewPresent) := by
  have taken : 2 * data.length ≤ maxChunks := by
    rw [maxChunks]
    omega
  have codeword := codeword_append taken rfl even
  refine ⟨applyWeights (parityWeights data.length) size data, ?_, ?_, ?_⟩
  · exact encode_eq_ok.mpr ⟨⟨filled, taken⟩, size, positive, codeword⟩
  · rw [length_applyWeights, length_parityWeights]
  intro shards blanked
  have outcome := run_restore_of_codeword taken codeword filled blanked positive
  constructor
  · intro enough
    rw [if_neg (Nat.not_lt.mpr enough)] at outcome
    refine ⟨outcome, ?_⟩
    rw [decode, outcome]
    simp [Except.map, List.reduceOption, List.filterMap_map]
  · intro few
    rw [if_pos few] at outcome
    refine ⟨outcome, ?_⟩
    rw [decode, outcome]
    rfl

/-- Two chunks are restored from their parity alone, and nothing is restored from the first. -/
theorem restore_two_chunks_of_parity :
    ∃ parity : List Bytes, encode [[1, 2], [3, 4]] = .ok parity ∧
      restore.run.run ([none, none] ++ parity.map some) =
        (.ok (), [some [1, 2], some [3, 4]] ++ parity.map some) ∧
      restore.run.run [some [1, 2], none, none, none] =
        (.error .tooFewPresent, [some [1, 2], none, none, none]) := by
  obtain ⟨parity, encoded, length, each⟩ :=
    @restore_of_encode [[1, 2], [3, 4]] 2 (by decide) (by decide) (by decide) (by decide)
  refine ⟨parity, encoded, ?_, ?_⟩
  · have there : List.Forall₂ (fun chunk shard => shard = none ∨ shard = some chunk) parity
        (parity.map some) := by
      rw [List.forall₂_map_right_iff, List.forall₂_same]
      exact fun chunk _ => .inr rfl
    have enough : (parity.map some).countP Option.isSome = parity.length := by
      rw [List.countP_map]
      exact List.countP_eq_length.mpr fun _ _ => rfl
    have blanked : Blanked ([[1, 2], [3, 4]] ++ parity) ([none, none] ++ parity.map some) :=
      List.rel_append (.cons (.inl rfl) (.cons (.inl rfl) .nil)) there
    have all := (each ([none, none] ++ parity.map some) blanked).1
    exact (all (by simp [enough, length])).1
  · match parity, length with
    | [third, fourth], _ =>
      have few := (each [some [1, 2], none, none, none] (.cons (.inr rfl) (.cons (.inl rfl)
        (.cons (.inl rfl) (.cons (.inl rfl) .nil))))).2
      exact (few (by decide)).1

end DataSquare.Erasure
