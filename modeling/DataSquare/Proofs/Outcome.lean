import Mathlib

/-!
# Chains of checks

Every rule of the library that can refuse its input gives an `Except`. A chain of such rules is
taken apart here once: it succeeds exactly when each of its steps does. Later arguments speak of
the steps and never open a chain again.
-/
namespace DataSquare

variable {ε α β γ : Type}

/-- Two steps succeed exactly when the first one does and the second one after it. -/
theorem bind_eq_ok {step : Except ε α} {next : α → Except ε β} {result : β} :
    step >>= next = .ok result ↔ ∃ value, step = .ok value ∧ next value = .ok result := by
  cases step with
  | error cause => simp [bind, Except.bind]
  | ok value => simp [bind, Except.bind]

/-- A check and a step after it succeed exactly when both do. -/
theorem check_bind_eq_ok {check : Except ε Unit} {next : Unit → Except ε β} {result : β} :
    check >>= next = .ok result ↔ check = .ok () ∧ next () = .ok result := by
  rw [bind_eq_ok]
  exact ⟨fun ⟨_, passed, rest⟩ => ⟨passed, rest⟩, fun ⟨passed, rest⟩ => ⟨(), passed, rest⟩⟩

/-- A result that is converted was there before. -/
theorem map_eq_ok {step : Except ε α} {convert : α → β} {result : β} :
    step.map convert = .ok result ↔ ∃ value, step = .ok value ∧ convert value = result := by
  cases step with
  | error cause => simp [Except.map]
  | ok value => simp [Except.map]

/-- What does not succeed fails with some cause. -/
theorem exists_error_of_ne_ok {step : Except ε α} (failed : ∀ value, step ≠ .ok value) :
    ∃ cause, step = .error cause := by
  cases step with
  | error cause => exact ⟨cause, rfl⟩
  | ok value => exact absurd rfl (failed value)

/-- Converting the cause of a failure does not change what succeeds. -/
theorem mapError_eq_ok {step : Except ε α} {convert : ε → γ} {result : α} :
    step.mapError convert = .ok result ↔ step = .ok result := by
  cases step with
  | error cause => simp [Except.mapError]
  | ok value => simp [Except.mapError]

/-- A step on every entry of a list succeeds exactly when it does on each, and then gives the
results in order. -/
theorem mapM_eq_ok {step : α → Except ε β} {items : List α} {results : List β} :
    items.mapM step = .ok results ↔
      List.Forall₂ (fun item result => step item = .ok result) items results := by
  induction items generalizing results with
  | nil => simp [pure, Except.pure, eq_comm]
  | cons item items ih =>
    rw [List.mapM_cons, bind_eq_ok, List.forall₂_cons_left_iff]
    constructor
    · rintro ⟨first, head, tail⟩
      obtain ⟨rest, found, same⟩ := bind_eq_ok.mp tail
      exact ⟨first, rest, head, ih.mp found, (Except.ok.inj same).symm⟩
    · rintro ⟨first, rest, head, found, rfl⟩
      exact ⟨first, head, bind_eq_ok.mpr ⟨rest, ih.mpr found, rfl⟩⟩

/-- A step on every entry of a list succeeds when it does on each. -/
theorem exists_mapM_eq_ok {step : α → Except ε β} {items : List α}
    (each : ∀ item ∈ items, ∃ result, step item = .ok result) :
    ∃ results, items.mapM step = .ok results := by
  induction items with
  | nil => exact ⟨[], rfl⟩
  | cons item items ih =>
    obtain ⟨result, first⟩ := each item List.mem_cons_self
    obtain ⟨results, rest⟩ := ih fun other member => each other (List.mem_cons_of_mem _ member)
    exact ⟨result :: results,
      mapM_eq_ok.mpr (List.Forall₂.cons first (mapM_eq_ok.mp rest))⟩

/-- A check of every entry of a list passes exactly when it does on each. -/
theorem forM_eq_ok {check : α → Except ε Unit} {items : List α} :
    items.forM check = .ok () ↔ ∀ item ∈ items, check item = .ok () := by
  induction items with
  | nil => simp [pure, Except.pure]
  | cons item items ih =>
    have split : (item :: items).forM check = (check item >>= fun _ => items.forM check) := rfl
    rw [split, bind_eq_ok, List.forall_mem_cons]
    constructor
    · rintro ⟨_, head, tail⟩
      exact ⟨head, ih.mp tail⟩
    · rintro ⟨head, tail⟩
      exact ⟨(), head, ih.mpr tail⟩

/-- A guard in front of a result passes exactly when its condition does not hold. -/
theorem guard_eq_ok {condition : Prop} [Decidable condition] {cause : ε} {rest : Except ε α}
    {result : α} : (if condition then .error cause else rest) = .ok result ↔
      ¬ condition ∧ rest = .ok result := by
  by_cases refused : condition <;> simp [refused]

/-- Steps on the entries of a list with their positions are steps on the entries at each
position. -/
theorem mapM_zipIdx_eq_ok {step : α × Nat → Except ε β} {items : List α} {results : List β} :
    items.zipIdx.mapM step = .ok results ↔ results.length = items.length ∧
      ∀ position item, items[position]? = some item →
        ∃ result, results[position]? = some result ∧ step (item, position) = .ok result := by
  rw [mapM_eq_ok, List.forall₂_iff_get]
  constructor
  · rintro ⟨length, each⟩
    rw [List.length_zipIdx] at length
    refine ⟨length.symm, fun position item found => ?_⟩
    obtain ⟨inside, rfl⟩ := List.getElem?_eq_some_iff.mp found
    have stepped := each position (by simpa using inside) (by omega)
    simp only [List.get_eq_getElem, List.getElem_zipIdx, Nat.zero_add] at stepped
    exact ⟨_, List.getElem?_eq_getElem (by omega), stepped⟩
  · rintro ⟨length, each⟩
    refine ⟨by simp [length], fun position inside bound => ?_⟩
    rw [List.length_zipIdx] at inside
    obtain ⟨result, found, stepped⟩ := each position _ (List.getElem?_eq_getElem inside)
    obtain ⟨_, rfl⟩ := List.getElem?_eq_some_iff.mp found
    simpa using stepped

/-- The causes for which a step fails are among some. -/
def FailsOnly (allowed : ε → Prop) (step : Except ε α) : Prop :=
  ∀ cause, step = .error cause → allowed cause

namespace FailsOnly

variable {allowed : ε → Prop}

/-- What succeeds does not fail. -/
theorem ok (value : α) : FailsOnly allowed (.ok value : Except ε α) :=
  fun _ failed => nomatch failed

/-- A failure has its cause. -/
theorem error {cause : ε} (known : allowed cause) :
    FailsOnly allowed (.error cause : Except ε α) := by
  intro other failed
  cases failed
  exact known

/-- Two steps fail for the causes of the first one, or of the second after what the first gives. -/
theorem bind {step : Except ε α} {next : α → Except ε β} (first : FailsOnly allowed step)
    (second : ∀ value, step = .ok value → FailsOnly allowed (next value)) :
    FailsOnly allowed (step >>= next) := by
  cases stepped : step with
  | error cause => exact error (first cause stepped)
  | ok value => exact second value stepped

/-- Converting what a step gives does not change its failures. -/
theorem map {step : Except ε α} {convert : α → β} (causes : FailsOnly allowed step) :
    FailsOnly allowed (step.map convert) := by
  cases stepped : step with
  | error cause => exact error (causes cause stepped)
  | ok value => exact ok (convert value)

/-- Converting the causes of failures converts those that there may be. -/
theorem mapError {allowed : γ → Prop} {step : Except ε α} {convert : ε → γ}
    (causes : FailsOnly (fun cause => allowed (convert cause)) step) :
    FailsOnly allowed (step.mapError convert) := by
  cases stepped : step with
  | error cause => exact error (causes cause stepped)
  | ok value => exact ok value

/-- Steps on the entries of a list fail for the causes of one of them. -/
theorem mapM {step : α → Except ε β} {items : List α}
    (each : ∀ item ∈ items, FailsOnly allowed (step item)) :
    FailsOnly allowed (items.mapM step) := by
  induction items with
  | nil => exact ok []
  | cons item items ih =>
    rw [List.mapM_cons]
    refine (each item List.mem_cons_self).bind fun result _ => ?_
    exact (ih fun other member => each other (List.mem_cons_of_mem item member)).bind
      fun results _ => ok (result :: results)

/-- Checks of the entries of a list fail for the causes of one of them. -/
theorem forM {check : α → Except ε Unit} {items : List α}
    (each : ∀ item ∈ items, FailsOnly allowed (check item)) :
    FailsOnly allowed (items.forM check) := by
  induction items with
  | nil => exact ok ()
  | cons item items ih =>
    refine (each item List.mem_cons_self).bind fun _ _ => ?_
    exact ih fun other member => each other (List.mem_cons_of_mem item member)

/-- A guard fails for its own cause, or for those of what comes after it. -/
theorem guard {condition : Prop} [Decidable condition] {cause : ε} {rest : Except ε α}
    (own : condition → allowed cause) (others : ¬ condition → FailsOnly allowed rest) :
    FailsOnly allowed (if condition then .error cause else rest) := by
  by_cases refused : condition
  · rw [if_pos refused]
    exact error (own refused)
  · rw [if_neg refused]
    exact others refused

end FailsOnly

end DataSquare
