import DataSquare.Share.Basic

/-!
# Runs of shares

A square is read at a glance as the runs of neighbouring shares in one namespace. Main statement:
runs leave no share out.
-/
namespace DataSquare.Share

/-- Neighbouring shares in one namespace. -/
structure Run where
  /-- The bytes of the namespace. -/
  namespaceBytes : Bytes
  /-- The number of shares. -/
  shares : Nat
  /-- The number of padding shares among them. -/
  padding : Nat
deriving DecidableEq

/-- The run of a single share. -/
def Run.ofShare (share : Share) : Run :=
  ⟨share.namespaceBytes, 1, if share.isPadding then 1 else 0⟩

/-- Runs with a share in front. -/
def prependRun (share : Share) : List Run → List Run
  | [] => [.ofShare share]
  | run :: rest =>
    let own := Run.ofShare share
    if run.namespaceBytes = own.namespaceBytes then
      ⟨run.namespaceBytes, own.shares + run.shares, own.padding + run.padding⟩ :: rest
    else own :: run :: rest

/-- The longest runs of shares. -/
def runs (shares : List Share) : List Run := shares.foldr prependRun []

/-- The number of shares of runs grows by the share in front. -/
theorem sum_shares_prependRun (share : Share) (runs : List Run) :
    (prependRun share runs).foldr (fun run rest => run.shares + rest) 0 =
      runs.foldr (fun run rest => run.shares + rest) 0 + 1 := by
  cases runs with
  | nil => rfl
  | cons run rest =>
    simp only [prependRun]
    split <;> simp [Run.ofShare] <;> omega

/-- Runs have as many shares together as there are. -/
theorem sum_shares_runs (shares : List Share) :
    (runs shares).foldr (fun run rest => run.shares + rest) 0 = shares.length := by
  induction shares with
  | nil => rfl
  | cons share rest ih =>
    have hrest : runs (share :: rest) = prependRun share (runs rest) := rfl
    rw [hrest, sum_shares_prependRun, ih, List.length_cons]

end DataSquare.Share
