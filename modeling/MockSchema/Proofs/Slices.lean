/-
  MockSchema.Proofs.Slices — slices in steps of one: what stands between the two bounds, once each is moved
  into the list (`pick_one`). A bound that is left out is the end of the list.
-/

import MockSchema.Proofs.Positions

namespace MockSchema.Index

section
variable {α : Type}

/-- In steps of one the positions are consecutive, as many as fit below the bound. -/
theorem ascending_one {stop : Int} (hstop : stop ≤ largest) {n : Nat} {i : Int} (hi : 0 ≤ i) (hn : stop - i ≤ n) :
    ascending 1 stop n i = List.range' i.toNat (stop - i).toNat := by
  induction n generalizing i with
  | zero =>
    have hnone : (stop - i).toNat = 0 := by omega
    rw [hnone]
    rfl
  | succ n ih =>
    unfold ascending
    by_cases h : i < stop
    · have hnext : i + 1 ≤ largest := by omega
      have hcount : (stop - i).toNat = (stop - (i + 1)).toNat + 1 := by omega
      have hfrom : (i + 1).toNat = i.toNat + 1 := by omega
      rw [if_pos h, if_pos hnext, ih (by omega) (by omega), hcount, List.range'_succ, hfrom]
    · have hnone : (stop - i).toNat = 0 := by omega
      rw [if_neg h, hnone]
      rfl

/-- The elements at consecutive positions. -/
theorem filterMap_range' (xs : List α) (i n : Nat) :
    (List.range' i n).filterMap (xs[·]?) = (xs.drop i).take n := by
  induction n generalizing i with
  | zero => simp
  | succ n ih =>
    rw [List.range'_succ, List.filterMap_cons]
    by_cases h : i < xs.length
    · rw [List.getElem?_eq_getElem h, ih, List.drop_eq_getElem_cons h, List.take_succ_cons]
    · rw [List.getElem?_eq_none (by omega), ih, List.drop_eq_nil_of_le (by omega),
        List.drop_eq_nil_of_le (by omega), List.take_nil, List.take_nil]

/-- A bound as a position: counted from the end if negative, and moved into the list. -/
def place (length : Nat) (absent : Int) (bound : Option Int) : Int := (bound.map (clamp length 0 length)).getD absent

theorem place_bounds (length : Nat) {absent : Int} (h : 0 ≤ absent ∧ absent ≤ length) (bound : Option Int) :
    0 ≤ place length absent bound ∧ place length absent bound ≤ length :=
  (placed_clamp (Int.natCast_nonneg length) bound).within h.1 h.2

theorem place_nat (length n : Nat) (absent : Int) : place length absent (some n) = (min length n : Nat) := by
  show clamp length 0 length n = (min length n : Nat)
  rw [clamp, if_neg (by omega)]
  omega

/-- The elements from one bound up to the other. -/
theorem pick_one {xs : List α} (hx : (xs.length : Int) ≤ largest) (start stop : Option Int) :
    pick xs start stop none =
      .ok ((xs.drop (place xs.length 0 start).toNat).take
        (place xs.length xs.length stop - place xs.length 0 start).toNat) := by
  have hfirst := place_bounds xs.length ⟨Int.le_refl 0, by omega⟩ start
  have hlast := place_bounds xs.length ⟨by omega, Int.le_refl _⟩ stop
  have hpositions : positions? xs.length start stop none =
      some (ascending 1 (place xs.length xs.length stop) xs.length (place xs.length 0 start)) := rfl
  rw [pick, hpositions]
  show Except.ok (List.filterMap _ _) = _
  rw [ascending_one (by omega) hfirst.1 (by omega), filterMap_range']

/-- What follows the first elements. -/
theorem pick_from {xs : List α} (hx : (xs.length : Int) ≤ largest) (n : Nat) :
    pick xs (some n) none none = .ok (xs.drop n) := by
  rw [pick_one hx, place_nat]
  show Except.ok (List.take ((xs.length : Int) - (min xs.length n : Nat)).toNat (xs.drop (min xs.length n))) = _
  by_cases hn : n ≤ xs.length
  · rw [Nat.min_eq_right hn, List.take_of_length_le]
    rw [List.length_drop]
    omega
  · rw [Nat.min_eq_left (by omega), List.drop_length, List.take_nil, List.drop_eq_nil_of_le (by omega)]

/-- The first elements. -/
theorem pick_upTo {xs : List α} (hx : (xs.length : Int) ≤ largest) (n : Nat) :
    pick xs none (some n) none = .ok (xs.take n) := by
  rw [pick_one hx, place_nat]
  show Except.ok (List.take ((min xs.length n : Nat) - 0 : Int).toNat (xs.drop 0)) = _
  have hcount : ((min xs.length n : Nat) - 0 : Int).toNat = min xs.length n := by omega
  rw [hcount, List.drop_zero]
  by_cases hn : n ≤ xs.length
  · rw [Nat.min_eq_right hn]
  · rw [Nat.min_eq_left (by omega), List.take_length, List.take_of_length_le (by omega)]

end

end MockSchema.Index
