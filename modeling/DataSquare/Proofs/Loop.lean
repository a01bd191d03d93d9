import Mathlib

/-!
# Runs of loops

A loop tests a condition, runs its body and tests again, up to the first state in which the
condition fails. A run is the list of all states in which it is tested, so a loop that has a run
stops. What holds in the first state and is kept by the body holds in every state of a run.
-/
namespace DataSquare

variable {State : Type}

/-- The loop that repeats a body while a condition holds, started in a state, tests the condition
in the listed states and stops in the last of them. -/
inductive LoopRun (holds : State → Prop) (body : State → State) :
    State → List State → State → Prop where
  /-- The condition fails. -/
  | stop {state : State} (fails : ¬ holds state) : LoopRun holds body state [state] state
  /-- The condition holds, and the loop goes on after its body. -/
  | next {state last : State} {states : List State} (passes : holds state)
      (rest : LoopRun holds body (body state) states last) :
      LoopRun holds body state (state :: states) last

namespace LoopRun

variable {holds : State → Prop} {body : State → State} {first last : State} {states : List State}

/-- A loop stops in one of the states of its run. -/
theorem last_mem (run : LoopRun holds body first states last) : last ∈ states := by
  induction run with
  | stop fails => exact List.mem_singleton_self _
  | next passes rest ih => exact List.mem_cons_of_mem _ ih

/-- What holds first and is kept by the body holds in every state of a run. -/
theorem forall_mem {invariant : State → Prop} (run : LoopRun holds body first states last)
    (start : invariant first)
    (kept : ∀ state, holds state → invariant state → invariant (body state)) :
    ∀ state ∈ states, invariant state := by
  induction run with
  | stop fails => exact List.forall_mem_singleton.mpr start
  | next passes rest ih => exact List.forall_mem_cons.mpr ⟨start, ih (kept _ passes start)⟩

end LoopRun

end DataSquare
