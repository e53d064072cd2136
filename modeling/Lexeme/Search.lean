/-!
# Binary search

The search for the first element that is not below a key halves an interval of indices
at each step. It asks only for the elements in the middle, so the index that it finds is
determined for lists in any order.
-/

namespace Lexeme.Search

/-- Halves the interval from `low` to `high` until it is empty. -/
def bisect (isBelow : Nat → Bool) (low high : Nat) : Nat :=
  if low < high then
    let middle := (low + high) / 2
    if isBelow middle then bisect isBelow (middle + 1) high else bisect isBelow low middle
  else low
termination_by high - low

theorem le_bisect (isBelow : Nat → Bool) (low high : Nat) : low ≤ bisect isBelow low high := by
  fun_induction bisect isBelow low high with
  | case1 low high inside middle below inductionHypothesis => omega
  | case2 low high inside middle notBelow inductionHypothesis => omega
  | case3 low high outside => exact Nat.le_refl low

theorem bisect_le (isBelow : Nat → Bool) {low high : Nat} (ordered : low ≤ high) :
    bisect isBelow low high ≤ high := by
  fun_induction bisect isBelow low high with
  | case1 low high inside middle below inductionHypothesis =>
    exact inductionHypothesis (by omega)
  | case2 low high inside middle notBelow inductionHypothesis =>
    exact Nat.le_trans (inductionHypothesis (by omega)) (by omega)
  | case3 low high outside => exact ordered

/-- The index that halving finds in a list, given which elements are below the key. -/
def lowerBound {α : Type} (isBelow : α → Bool) (list : List α) : Nat :=
  bisect (fun index => (list[index]?).any isBelow) 0 list.length

end Lexeme.Search
