/-
  MockSchema.Order.Insertion — sorting with a comparison that may fail.

  The sort is by insertion: each element moves towards the front past those it is less than,
  so equal elements keep their order. The first comparison that fails ends the sort with its
  failure.
-/

namespace MockSchema.Order

variable {α ε : Type}

/-- Put `x` into a sorted list that is given last element first. -/
def place (cmp : α → α → Except ε Ordering) (x : α) : List α → Except ε (List α)
  | [] => .ok [x]
  | y :: ys => do
    match ← cmp x y with
    | .lt => return y :: (← place cmp x ys)
    | _ => return x :: y :: ys

def sort (cmp : α → α → Except ε Ordering) (xs : List α) : Except ε (List α) := do
  return (← xs.foldlM (fun sorted x => place cmp x sorted) []).reverse

end MockSchema.Order
