/-
  MockSchema.Proofs.IntegerDivision — floor division of integers and its remainder.

  A result is exact if it is the integer that mathematics gives, as far as arithmetic knows that integer, and an
  overflow otherwise (`Exactly`).

  Quotient and remainder by the floor are the only ones that make up the dividend with a remainder between
  zero and the divisor (`Floored`). One gets there from truncating division with a step of one, and no step on the way leaves
  the range. Quotient and remainder are exact, but for the remainder of the smallest integer by -1: it is zero,
  and it is refused because the quotient is (`floor_division_exact`, `remainder_refused`).
-/

import Mathlib.Data.Rat.Floor
import MockSchema.Expr.Arith

namespace MockSchema.Arith

/-! ## Exact results -/

/-- The failure is of this category. -/
def Raises (r : Result) (c : Category) : Prop := ∃ e, r = .error e ∧ e.category = c

/-- The integer if arithmetic knows it, and an overflow exactly if not. -/
def Exactly (r : Result) (n : Int) : Prop :=
  (InRange n → r = .ok (.int n)) ∧ (¬ InRange n → Raises r .overflowError)

/-- An integer that is refused unless arithmetic knows it. -/
def checked (n : Int) : Option Int := if InRange n then some n else none

/-- What becomes of a computation in checked steps. -/
def outcome : Option Int → Result
  | some n => .ok (.int n)
  | none => .error .overflow

section
variable {a b q r n : Int} {x y : Value}

theorem checked_of_inRange (h : InRange n) : checked n = some n := if_pos h

theorem checked_of_not_inRange (h : ¬ InRange n) : checked n = none := if_neg h

theorem outcome_checked (n : Int) : outcome (checked n) = ofInt n := by
  unfold checked ofInt
  split <;> rfl

theorem exactly_ofInt (n : Int) : Exactly (ofInt n) n :=
  ⟨fun h => if_pos h, fun h => ⟨.overflow, if_neg h, rfl⟩⟩

theorem binary_ints (op : BinaryOp) (hx : x.int? = some a) (hy : y.int? = some b) : binary op x y = ints op a b := by
  rw [binary, Value.num?_of_int? hx, Value.num?_of_int? hy]
  rfl

/-! ## Division by the floor -/

/-- Quotient and remainder of which the remainder lies between zero and the divisor. -/
structure Floored (a b q r : Int) : Prop where
  whole : q * b + r = a
  side : (0 ≤ r ∧ r < b) ∨ (b < r ∧ r ≤ 0)

theorem Floored.floor (h : Floored a b q r) : ⌊(a / b : ℚ)⌋ = q := by
  have hwhole : (a : ℚ) = q * b + r := by exact_mod_cast h.whole.symm
  rw [Int.floor_eq_iff]
  rcases h.side with ⟨hr, hrb⟩ | ⟨hbr, hr⟩
  · have hb : (0 : ℚ) < b := by exact_mod_cast hr.trans_lt hrb
    have hr' : (0 : ℚ) ≤ r := by exact_mod_cast hr
    have hrb' : (r : ℚ) < b := by exact_mod_cast hrb
    rw [le_div_iff₀ hb, div_lt_iff₀ hb]
    constructor <;> linarith
  · have hb : (b : ℚ) < 0 := by exact_mod_cast hbr.trans_le hr
    have hr' : (r : ℚ) ≤ 0 := by exact_mod_cast hr
    have hbr' : (b : ℚ) < r := by exact_mod_cast hbr
    rw [le_div_iff_of_neg hb, div_lt_iff_of_neg hb]
    constructor <;> linarith

theorem Floored.remainder (h : Floored a b q r) : a - b * ⌊(a / b : ℚ)⌋ = r := by
  have hwhole := h.whole
  rw [h.floor, Int.mul_comm]
  omega

theorem Floored.unique {q' r' : Int} (h : Floored a b q r) (h' : Floored a b q' r') : q = q' ∧ r = r' :=
  ⟨h.floor.symm.trans h'.floor, h.remainder.symm.trans h'.remainder⟩

theorem Floored.sign (h : Floored a b q r) (hr : r ≠ 0) : r.sign = b.sign := by
  rcases h.side with ⟨h0, hb⟩ | ⟨hb, h0⟩
  · rw [Int.sign_eq_one_of_pos (by omega), Int.sign_eq_one_of_pos (by omega)]
  · rw [Int.sign_eq_neg_one_of_neg (by omega), Int.sign_eq_neg_one_of_neg (by omega)]

theorem Floored.small (h : Floored a b q r) : r.natAbs < b.natAbs := by
  have hside := h.side
  omega

theorem floored_fdiv (a : Int) (hb : b ≠ 0) : Floored a b (a.fdiv b) (a.fmod b) where
  whole := Int.fdiv_mul_add_fmod a b
  side := by
    rcases Int.lt_or_gt_of_ne hb with hb | hb
    · have hneg := Int.neg_fmod_neg a b
      have := Int.fmod_nonneg_of_pos (-a) (Int.neg_pos_of_neg hb)
      have := Int.fmod_lt_of_pos (-a) (Int.neg_pos_of_neg hb)
      omega
    · exact .inl ⟨Int.fmod_nonneg_of_pos a hb, Int.fmod_lt_of_pos a hb⟩

/-! ## From truncating division -/

/-- The quotient that truncates, and one less where something is left over and the signs differ. -/
def floorQuotient? (a b : Int) : Option Int := do
  let q ← checked (a.tdiv b)
  if a.tmod b ≠ 0 ∧ ¬ (a < 0 ↔ b < 0) then checked (q - 1) else return q

/-- The remainder that goes with it, moved by the divisor to the side of the divisor. It is refused along with the
quotient. -/
def floorRemainder? (a b : Int) : Option Int := do
  let _ ← checked (a.tdiv b)
  let r := a.tmod b
  if r ≠ 0 ∧ ¬ (r < 0 ↔ b < 0) then checked (r + b) else return r

/-- What truncating leaves over is smaller than the divisor and on the side of the dividend. -/
theorem tmod_side (a : Int) (hb : b ≠ 0) :
    (a.tmod b).natAbs < b.natAbs ∧ (0 < a.tmod b → 0 < a) ∧ (a.tmod b < 0 → a < 0) := by
  refine ⟨?_, fun hr => ?_, fun hr => ?_⟩
  · rw [Int.natAbs_tmod]
    exact Nat.mod_lt _ (by omega)
  · by_contra ha
    have hneg := Int.neg_tmod a b
    have := Int.tmod_nonneg b (Int.neg_nonneg_of_nonpos (Int.not_lt.1 ha))
    omega
  · by_contra ha
    have := Int.tmod_nonneg b (Int.not_lt.1 ha)
    omega

theorem floored_step (hb : b ≠ 0) (h : a.tmod b ≠ 0 ∧ ¬ (a < 0 ↔ b < 0)) :
    Floored a b (a.tdiv b - 1) (a.tmod b + b) where
  whole := by
    have := Int.tdiv_mul_add_tmod a b
    rw [Int.sub_mul, Int.one_mul]
    omega
  side := by
    have := tmod_side a hb
    omega

theorem floored_stay (hb : b ≠ 0) (h : ¬ (a.tmod b ≠ 0 ∧ ¬ (a < 0 ↔ b < 0))) :
    Floored a b (a.tdiv b) (a.tmod b) where
  whole := Int.tdiv_mul_add_tmod a b
  side := by
    have := tmod_side a hb
    omega

/-- Truncating halves a number at least, unless it divides by one or its opposite. -/
theorem tdiv_half (a : Int) (hb : 2 ≤ b.natAbs) : (a.tdiv b).natAbs ≤ a.natAbs / 2 := by
  rw [Int.natAbs_tdiv]
  exact Nat.div_le_div_left hb (by decide)

/-- The truncated quotient leaves the range in one case alone. -/
theorem tdiv_inRange (ha : InRange a) (hb : b ≠ 0) : InRange (a.tdiv b) ↔ ¬ (a = smallest ∧ b = -1) := by
  unfold InRange smallest largest at *
  by_cases hone : b = 1
  · rw [hone, Int.tdiv_one]
    omega
  by_cases hneg : b = -1
  · rw [hneg, Int.tdiv_neg, Int.tdiv_one]
    omega
  · have := tdiv_half a (by omega : 2 ≤ b.natAbs)
    omega

/-- Where something is left over, the quotient is far from both ends of the range. -/
theorem step_inRange (ha : InRange a) (hb : b ≠ 0) (h : a.tmod b ≠ 0) : InRange (a.tdiv b - 1) := by
  have hsmall := (tmod_side a hb).1
  have := tdiv_half a (by omega : 2 ≤ b.natAbs)
  unfold InRange smallest largest at *
  omega

/-- One pair of operands has a quotient that arithmetic does not know. -/
theorem fdiv_inRange (ha : InRange a) (hb : b ≠ 0) : InRange (a.fdiv b) ↔ ¬ (a = smallest ∧ b = -1) := by
  constructor
  · rintro h ⟨rfl, rfl⟩
    exact absurd h (by decide)
  · intro h
    by_cases hstep : a.tmod b ≠ 0 ∧ ¬ (a < 0 ↔ b < 0)
    · rw [((floored_fdiv a hb).unique (floored_step hb hstep)).1]
      exact step_inRange ha hb hstep.1
    · rw [((floored_fdiv a hb).unique (floored_stay hb hstep)).1]
      exact (tdiv_inRange ha hb).2 h

theorem fmod_inRange (hb : b ≠ 0) (hb' : InRange b) : InRange (a.fmod b) := by
  have hside := (floored_fdiv a hb).side
  unfold InRange smallest largest at *
  omega

theorem quotientFits_iff : quotientFits a b = true ↔ ¬ (a = smallest ∧ b = -1) := by
  simp [quotientFits, imp_iff_not_or]

theorem ints_floorDiv (ha : InRange a) (hb : b ≠ 0) : ints .floorDiv a b = ofInt (a.fdiv b) := by
  have hfits : quotientFits a b = true ↔ InRange (a.fdiv b) := quotientFits_iff.trans (fdiv_inRange ha hb).symm
  simp only [ints, if_neg hb, hfits, ofInt]

theorem ints_mod (hb : b ≠ 0) (hb' : InRange b) (h : ¬ (a = smallest ∧ b = -1)) :
    ints .mod a b = ofInt (a.fmod b) := by
  simp only [ints, if_neg hb, quotientFits_iff.2 h, if_true, ofInt, if_pos (fmod_inRange hb hb')]

theorem ints_floorDiv_checked (ha : InRange a) (hb : b ≠ 0) :
    ints .floorDiv a b = outcome (floorQuotient? a b) := by
  have hq : floorQuotient? a b = checked (a.fdiv b) := by
    unfold floorQuotient?
    by_cases hextreme : a = smallest ∧ b = -1
    · obtain ⟨rfl, rfl⟩ := hextreme
      rfl
    · have hfits := (tdiv_inRange ha hb).2 hextreme
      rw [checked_of_inRange hfits]
      show (if _ then checked (a.tdiv b - 1) else some (a.tdiv b)) = _
      split
      · rename_i hstep
        rw [((floored_fdiv a hb).unique (floored_step hb hstep)).1]
      · rename_i hstay
        rw [((floored_fdiv a hb).unique (floored_stay hb hstay)).1, checked_of_inRange hfits]
  rw [ints_floorDiv ha hb, hq, outcome_checked]

theorem ints_mod_checked (ha : InRange a) (hb : b ≠ 0) (hb' : InRange b) :
    ints .mod a b = outcome (floorRemainder? a b) := by
  by_cases hextreme : a = smallest ∧ b = -1
  · obtain ⟨rfl, rfl⟩ := hextreme
    rfl
  have hr : floorRemainder? a b = checked (a.fmod b) := by
    have hside := tmod_side a hb
    have hsigns : (a.tmod b ≠ 0 ∧ ¬ (a.tmod b < 0 ↔ b < 0)) ↔ (a.tmod b ≠ 0 ∧ ¬ (a < 0 ↔ b < 0)) := by omega
    unfold floorRemainder?
    rw [checked_of_inRange ((tdiv_inRange ha hb).2 hextreme)]
    show (if _ then checked (a.tmod b + b) else some (a.tmod b)) = _
    simp only [hsigns]
    split
    · rename_i hstep
      rw [((floored_fdiv a hb).unique (floored_step hb hstep)).2]
    · rename_i hstay
      have hrem := ((floored_fdiv a hb).unique (floored_stay hb hstay)).2
      rw [← hrem, checked_of_inRange (fmod_inRange hb hb')]
  rw [ints_mod hb hb' hextreme, hr, outcome_checked]

/-- Quotient and remainder by the floor. Where the quotient is out of range the remainder, zero, is refused too. Otherwise
the two make up the dividend, and the remainder lies between zero and the divisor. Both come from truncating
division by steps that stay in range. -/
structure FloorDivision (a b : Int) (quotient remainder : Result) : Prop where
  quotient_exact : Exactly quotient ⌊(a / b : ℚ)⌋
  remainder_exact : ¬ (a = smallest ∧ b = -1) → Exactly remainder (a - b * ⌊(a / b : ℚ)⌋)
  together : ¬ (a = smallest ∧ b = -1) → ∃ q r, quotient = .ok (.int q) ∧ remainder = .ok (.int r) ∧
    q * b + r = a ∧ (r ≠ 0 → r.sign = b.sign) ∧ r.natAbs < b.natAbs
  refused : a = smallest ∧ b = -1 → a - b * ⌊(a / b : ℚ)⌋ = 0 ∧ Raises remainder .overflowError
  steps : quotient = outcome (floorQuotient? a b) ∧ remainder = outcome (floorRemainder? a b)

theorem floorDivision_ints (ha : InRange a) (hb : b ≠ 0) (hb' : InRange b) :
    FloorDivision a b (ints .floorDiv a b) (ints .mod a b) where
  quotient_exact := by
    rw [(floored_fdiv a hb).floor, ints_floorDiv ha hb]
    exact exactly_ofInt _
  remainder_exact h := by
    rw [(floored_fdiv a hb).remainder, ints_mod hb hb' h]
    exact exactly_ofInt _
  together h := by
    have hf := floored_fdiv a hb
    refine ⟨a.fdiv b, a.fmod b, ?_, ?_, hf.whole, hf.sign, hf.small⟩
    · rw [ints_floorDiv ha hb]
      exact if_pos ((fdiv_inRange ha hb).2 h)
    · rw [ints_mod hb hb' h]
      exact if_pos (fmod_inRange hb hb')
  refused h := by
    rw [(floored_fdiv a hb).remainder]
    obtain ⟨rfl, rfl⟩ := h
    exact ⟨rfl, .overflow, rfl, rfl⟩
  steps := ⟨ints_floorDiv_checked ha hb, ints_mod_checked ha hb hb'⟩

/-- A division by zero fails as such, and any other is a division by the floor. -/
theorem floor_division_exact (hx : x.int? = some a) (hy : y.int? = some b) :
    (b = 0 → Raises (binary .floorDiv x y) .zeroDivisionError ∧ Raises (binary .mod x y) .zeroDivisionError) ∧
    (b ≠ 0 → FloorDivision a b (binary .floorDiv x y) (binary .mod x y)) := by
  rw [binary_ints .floorDiv hx hy, binary_ints .mod hx hy]
  refine ⟨fun hzero => ?_, fun hb => floorDivision_ints (Value.inRange_of_int? hx) hb (Value.inRange_of_int? hy)⟩
  have hfails : ints .floorDiv a b = .error (.divisionByZero .intFloorOrMod) ∧
      ints .mod a b = .error (.divisionByZero .intFloorOrMod) := ⟨if_pos hzero, if_pos hzero⟩
  exact ⟨⟨_, hfails.1, rfl⟩, _, hfails.2, rfl⟩

/-- The signs differ and the division is not exact, so the quotient is one less than the truncated one. -/
theorem floor_division_exact_of_seven :
    (Value.int (-7)).int? = some (-7) ∧ (Value.int 2).int? = some 2 ∧
      binary .floorDiv (.int (-7)) (.int 2) = .ok (.int (-4)) ∧ binary .mod (.int (-7)) (.int 2) = .ok (.int 1) ∧
      FloorDivision (-7) 2 (binary .floorDiv (.int (-7)) (.int 2)) (binary .mod (.int (-7)) (.int 2)) := by
  have hx : (Value.int (-7)).int? = some (-7) := by rfl
  have hy : (Value.int 2).int? = some 2 := by rfl
  exact ⟨hx, hy, rfl, rfl, (floor_division_exact hx hy).2 (by decide)⟩

/-- The remainder of the smallest integer by -1 is zero, which arithmetic knows, and it is refused. -/
theorem remainder_refused :
    let remainder := smallest - -1 * ⌊((smallest : Int) / (-1 : Int) : ℚ)⌋
    remainder = 0 ∧ InRange remainder ∧ binary .mod (.int smallest) (.int (-1)) = .error .overflow ∧
      ¬ Exactly (binary .mod (.int smallest) (.int (-1))) remainder := by
  intro remainder
  have hzero : remainder = 0 := (floored_fdiv smallest (by decide)).remainder.trans (by decide)
  have hrefused : binary .mod (.int smallest) (.int (-1)) = .error .overflow := by rfl
  have hrange : InRange remainder := by rw [hzero]; decide
  refine ⟨hzero, hrange, hrefused, fun h => ?_⟩
  have hok := h.1 hrange
  rw [hrefused] at hok
  cases hok

end

end MockSchema.Arith
