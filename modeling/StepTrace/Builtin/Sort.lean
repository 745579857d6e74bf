/-!
# Sorting with effects

A stable merge sort whose comparisons may have effects and may fail. Runs of length one are
merged pairwise from left to right, then the runs so made, and so on, so the comparisons
come in a fixed order. Every comparison puts at least one element into its place.

* `mergeSort`: the elements in order.
-/

namespace StepTrace.Builtin

variable {α : Type} {m : Type → Type} [Monad m]

/-- Merges two sorted runs. An element of the first run stands behind one of the second only
if it sorts after it. -/
def mergeRuns (sortsAfter : α → α → m Bool) : List α → List α → m (List α)
  | [], ys => pure ys
  | xs, [] => pure xs
  | x :: xs, y :: ys => do
    if ← sortsAfter x y then
      return y :: (← mergeRuns sortsAfter (x :: xs) ys)
    else
      return x :: (← mergeRuns sortsAfter xs (y :: ys))
termination_by xs ys => xs.length + ys.length

/-- Merges neighbouring runs; a last run without a neighbour stays as it is. -/
def mergeNeighbours (sortsAfter : α → α → m Bool) : List (List α) → m (List (List α))
  | first :: second :: rest => do
    let run ← mergeRuns sortsAfter first second
    return run :: (← mergeNeighbours sortsAfter rest)
  | runs => pure runs

/-- Merges until one run is left, in at most `rounds` rounds. -/
def mergeAll (sortsAfter : α → α → m Bool) : Nat → List (List α) → m (List α)
  | _, [] => pure []
  | _, [run] => pure run
  | 0, runs => pure runs.flatten
  | rounds + 1, runs => do
    mergeAll sortsAfter rounds (← mergeNeighbours sortsAfter runs)

/-- The elements in order. Every round at least halves the number of runs, so there are
never more rounds than elements. -/
def mergeSort (sortsAfter : α → α → m Bool) (items : List α) : m (List α) :=
  mergeAll sortsAfter items.length (items.map fun item => [item])

end StepTrace.Builtin
