import DataSquare.Mempool.Usage

/-!
# Eviction

When candidates do not fit the largest square, those of the lowest priority are evicted one by
one until the rest fits. Blob transactions go first; only when all of them would have to go are
ordinary ones evicted, and then no blob transaction stays. Survivors keep the order of arrival.
-/
namespace DataSquare

/-- Why blob transactions are not enough to evict. -/
inductive PruneError where
  /-- Ordinary transactions alone do not fit the largest square. -/
  | ordinaryExceedCapacity
  /-- The number of shares of the largest square needs more than 64 bits. -/
  | overflow
deriving DecidableEq, Repr

/-- The wording of a failed eviction. -/
def PruneError.message : PruneError → String
  | .ordinaryExceedCapacity => "ordinary transactions alone exceed the largest square"
  | .overflow => "capacity of the largest square exceeds 64 bits"

instance : ToString PruneError := ⟨PruneError.message⟩

/-- A candidate with its position in the order of arrival. -/
structure Prioritized where
  /-- The position. -/
  arrival : Nat
  /-- The candidate. -/
  candidate : Candidate
deriving DecidableEq

/-- An order of candidates from the highest to the lowest priority. -/
abbrev PriorityPolicy := Prioritized → Prioritized → Ordering

namespace PriorityPolicy

/-- Whoever arrives earlier goes first. -/
def arrival : PriorityPolicy := fun left right => compare left.arrival right.arrival

/-- Whoever arrives later goes first. -/
def reverseArrival : PriorityPolicy := fun left right => compare right.arrival left.arrival

/-- A shorter transaction goes first. -/
def shortest : PriorityPolicy := fun left right =>
  compare left.candidate.bytes.length right.candidate.bytes.length

/-- A longer transaction goes first. -/
def longest : PriorityPolicy := fun left right =>
  compare right.candidate.bytes.length left.candidate.bytes.length

/-- Nobody goes before anybody else. -/
def indifferent : PriorityPolicy := fun _ _ => .eq

/-- The policy with a name. -/
def ofName? : String → Option PriorityPolicy
  | "arrival" => some arrival
  | "reverse" => some reverseArrival
  | "shortest" => some shortest
  | "longest" => some longest
  | "equal" => some indifferent
  | _ => none

end PriorityPolicy

namespace Eviction

/-- Candidates with their positions. -/
def prioritize (candidates : List Candidate) : List Prioritized :=
  candidates.zipIdx.map fun (candidate, arrival) => ⟨arrival, candidate⟩

/-- Candidates from the lowest to the highest priority, those of one priority in the order of
arrival. -/
def order (policy : PriorityPolicy) (candidates : List Prioritized) : List Prioritized :=
  candidates.mergeSort fun left right => policy right left != .gt

/-- The shortest front of candidates whose eviction makes the totals fit, if there is one. -/
def victims (consts : AppConsts) (usage : Usage) : List Prioritized → Option (List Prioritized)
  | [] => if usage.fits consts then some [] else none
  | victim :: rest =>
    if usage.fits consts then some []
    else (victims consts (usage.remove victim.candidate) rest).map (victim :: ·)

/-- The candidates that are not evicted, in the order of arrival. -/
def survivors (candidates : List Candidate) (evicted : List Prioritized) : List Candidate :=
  let positions := evicted.map Prioritized.arrival
  ((prioritize candidates).filter fun one => !positions.contains one.arrival).map
    Prioritized.candidate

/-- The positions of survivors among candidates from a position on. Of equal candidates the first
ones are taken to survive. -/
def positions (first : Nat) : List Candidate → List Candidate → List Nat
  | candidate :: rest, survivor :: later =>
    if candidate = survivor then first :: positions (first + 1) rest later
    else positions (first + 1) rest (survivor :: later)
  | _, _ => []

/-- The blob transactions from the lowest to the highest priority. -/
def blobOrder (policy : PriorityPolicy) (candidates : List Candidate) : List Prioritized :=
  order policy ((prioritize candidates).filter fun one => one.candidate.paysForBlobs)

/-- The candidates that stay when those of an order are evicted until the rest fits, if it ever
does. The totals are compared with the number of shares of the largest square before the first one
is evicted. -/
def evictUntilFits (candidates : List Candidate) (order : List Prioritized)
    (consts : AppConsts) : Except PruneError (Option (List Candidate)) :=
  match consts.maxShares? with
  | none => .error .overflow
  | some _ =>
    .ok ((victims consts (Usage.ofCandidates candidates) order).map (survivors candidates))

/-- The candidates that stay when blob transactions are evicted until the rest fits, if ordinary
ones fit on their own. -/
def prune (candidates : List Candidate) (policy : PriorityPolicy) (consts : AppConsts) :
    Except PruneError (List Candidate) :=
  match evictUntilFits candidates (blobOrder policy candidates) consts with
  | .error cause => .error cause
  | .ok none => .error .ordinaryExceedCapacity
  | .ok (some kept) => .ok kept

/-- The ordinary candidates. -/
def ordinary (candidates : List Candidate) : List Candidate :=
  candidates.filter fun candidate => !candidate.paysForBlobs

/-- The candidates that stay when only ordinary ones do, and are evicted until they fit. -/
def pruneOrdinary (candidates : List Candidate) (policy : PriorityPolicy) (consts : AppConsts) :
    Except PruneError (List Candidate) :=
  let group := ordinary candidates
  (evictUntilFits group (order policy (prioritize group)) consts).map fun kept => kept.getD []

end Eviction

end DataSquare
