/-
  MockSchema.Example.Cursors — round-robin positions of lists, by location.

  A cursor comes into being when its list is first drawn from. The position it stores may come
  from a longer list, so a draw takes it modulo the length at hand.
-/

import MockSchema.Value.Dict

namespace MockSchema

/-- The next position at each location that was drawn from. -/
abbrev Cursors := Dict Nat

namespace Cursors

/-- The next position at a location, 0 at a new one. -/
def peek (c : Cursors) (location : String) : Nat := (Dict.get? c location).getD 0

/-- Draw a position below `length` and move on; an empty list has none and moves nothing. -/
def advance (c : Cursors) (location : String) (length : Nat) : Option Nat × Cursors :=
  if length = 0 then (none, c)
  else
    let current := peek c location % length
    (some current, Dict.put c location ((current + 1) % length))

def reset (_ : Cursors) : Cursors := []

/-- A draw moves the cursor of its own list only. -/
theorem get?_advance (c : Cursors) (location : String) (length : Nat) (l : String) :
    Dict.get? (advance c location length).2 l =
      if l = location ∧ length ≠ 0 then some ((peek c location + 1) % length) else Dict.get? c l := by
  unfold advance
  by_cases hn : length = 0
  · simp [hn]
  · rw [if_neg hn]
    show Dict.get? (Dict.put c location ((peek c location % length + 1) % length)) l = _
    rw [Dict.get?_put, Nat.mod_add_mod]
    by_cases hl : location = l
    · rw [if_pos hl, if_pos ⟨hl.symm, hn⟩]
    · rw [if_neg hl, if_neg fun h => hl h.1.symm]

/-- What is drawn depends on the position at the list's own location. -/
theorem advance_congr {c d : Cursors} {location : String} (h : peek c location = peek d location) (length : Nat) :
    (advance c location length).1 = (advance d location length).1 := by
  unfold advance
  split
  · rfl
  · rw [h]

end Cursors

end MockSchema
