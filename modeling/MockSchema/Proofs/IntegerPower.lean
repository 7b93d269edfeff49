/-
  MockSchema.Proofs.IntegerPower — powers of integers.

  Repeated squaring refuses a power only if the power itself is out of range: a factor that is not zero makes nothing
  smaller, and a square is never the one number that the range holds below zero but not above
  (`squaring_eq`). So a power is exact for every exponent below 2^32 and for every base of two or more. Greater
  exponents are refused for all bases, also for -1, 0 and 1, whose powers never leave the range
  (`integer_power_exact`, `power_refused`).
-/

import MockSchema.Proofs.IntegerDivision

namespace MockSchema.Arith

section
variable {a b n acc base k : Int} {e : Nat} {x y : Value}

/-! ## Repeated squaring -/

/-- `acc * base ^ e` by repeated squaring, each product in range or the whole refused. The base is not squared once more
than the exponent needs. -/
def squaring (acc base : Int) (e : Nat) : Option Int :=
  if e = 0 then some acc
  else
    (if e % 2 = 1 then checked (acc * base) else some acc).bind fun acc =>
      if e = 1 then some acc else (checked (base * base)).bind fun base => squaring acc base (e / 2)
  termination_by e

theorem squaring_zero : squaring acc base 0 = some acc := by
  rw [squaring]
  rfl

theorem squaring_one : squaring acc base 1 = checked (acc * base) := by
  rw [squaring, if_neg (by decide), if_pos (by decide)]
  cases checked (acc * base) <;> rfl

/-- The exponent halves, and what is odd in it is multiplied in before. -/
theorem squaring_step (hacc : InRange acc) (he : 1 < e) :
    squaring acc base e =
      (checked (acc * base ^ (e % 2))).bind fun acc =>
        (checked (base * base)).bind fun base => squaring acc base (e / 2) := by
  have hzero : e ≠ 0 := by omega
  have hone : e ≠ 1 := by omega
  rw [squaring]
  simp only [if_neg hzero, if_neg hone]
  rcases Nat.mod_two_eq_zero_or_one e with h | h
  · rw [h, pow_zero, mul_one, checked_of_inRange hacc]
    rfl
  · rw [h, pow_one]
    rfl

theorem power_halves (acc base : Int) (e : Nat) :
    acc * base ^ e = acc * base ^ (e % 2) * (base * base) ^ (e / 2) := by
  calc acc * base ^ e = acc * base ^ (e % 2 + 2 * (e / 2)) := by rw [Nat.mod_add_div]
    _ = acc * base ^ (e % 2) * (base * base) ^ (e / 2) := by rw [pow_add, pow_mul, pow_two, mul_assoc]

/-- An integer out of range does not come back by a positive factor. -/
theorem not_inRange_mul (h : ¬ InRange n) (hk : 0 < k) : ¬ InRange (n * k) := by
  unfold InRange smallest largest at *
  intro hnk
  apply h
  constructor
  · by_contra hlow
    nlinarith
  · by_contra hhigh
    nlinarith

/-- A square out of range is greater than the range is wide on either side, so no product with it comes back. -/
theorem not_inRange_mul_square (h : ¬ InRange (b * b)) (hn : n ≠ 0) (he : e ≠ 0) : ¬ InRange (n * (b * b) ^ e) := by
  -- The range reaches one further down than up, but its lower end is no square.
  have hroot : 3037000500 ≤ b.natAbs := by
    by_contra hsmall
    have hle : b.natAbs * b.natAbs ≤ 3037000499 * 3037000499 := Nat.mul_le_mul (by omega) (by omega)
    rw [← Int.natAbs_mul] at hle
    have hsq : 0 ≤ b * b := mul_self_nonneg b
    apply h
    unfold InRange smallest largest
    omega
  have hsquare : 9223372036854775809 ≤ (b * b).natAbs := by
    have hle : 3037000500 * 3037000500 ≤ b.natAbs * b.natAbs := Nat.mul_le_mul hroot hroot
    rw [← Int.natAbs_mul] at hle
    omega
  have hpower : (b * b).natAbs ≤ ((b * b) ^ e).natAbs := by
    rw [Int.natAbs_pow]
    exact Nat.le_self_pow he _
  have hproduct : ((b * b) ^ e).natAbs ≤ (n * (b * b) ^ e).natAbs := by
    rw [Int.natAbs_mul]
    exact Nat.le_mul_of_pos_left _ (by omega)
  unfold InRange smallest largest
  omega

/-- Repeated squaring refuses a power exactly if it is out of range: no product on the way is, unless the power is. -/
theorem squaring_eq (hacc : InRange acc) (hbase : InRange base) (hzero : acc = 0 → base = 0) :
    squaring acc base e = checked (acc * base ^ e) := by
  induction e using Nat.strongRecOn generalizing acc base with
  | ind e ih =>
    by_cases he : 1 < e
    · have hhalf : e / 2 ≠ 0 := by omega
      rw [squaring_step hacc he, power_halves acc base e]
      by_cases hb : base = 0
      · subst hb
        have hfirst : InRange (acc * 0 ^ (e % 2)) := by
          rcases Nat.mod_two_eq_zero_or_one e with h | h
          · rwa [h, pow_zero, mul_one]
          · rw [h, pow_one, mul_zero]
            decide
        rw [checked_of_inRange hfirst, Option.bind_some, mul_zero, checked_of_inRange hbase, Option.bind_some]
        exact ih (e / 2) (by omega) hfirst hbase fun _ => rfl
      · have hfirst0 : acc * base ^ (e % 2) ≠ 0 := mul_ne_zero (fun h => hb (hzero h)) (pow_ne_zero _ hb)
        have hpositive : 0 < (base * base) ^ (e / 2) := pow_pos (mul_self_pos.2 hb) _
        by_cases hfirst : InRange (acc * base ^ (e % 2))
        · rw [checked_of_inRange hfirst, Option.bind_some]
          by_cases hsquare : InRange (base * base)
          · rw [checked_of_inRange hsquare, Option.bind_some]
            exact ih (e / 2) (by omega) hfirst hsquare fun h => absurd h hfirst0
          · rw [checked_of_not_inRange hsquare, checked_of_not_inRange (not_inRange_mul_square hsquare hfirst0 hhalf)]
            rfl
        · rw [checked_of_not_inRange hfirst, checked_of_not_inRange (not_inRange_mul hfirst hpositive)]
          rfl
    · obtain rfl | rfl : e = 0 ∨ e = 1 := by omega
      · rw [squaring_zero, pow_zero, mul_one, checked_of_inRange hacc]
      · rw [squaring_one, pow_one]

/-! ## Powers -/

/-- A base of two or more leaves the range with the 64th power at the latest. -/
theorem pow_not_inRange (ha : 2 ≤ a.natAbs) (he : 64 ≤ e) : ¬ InRange (a ^ e) := by
  have hpower : 2 ^ 64 ≤ (a ^ e).natAbs := by
    rw [Int.natAbs_pow]
    exact (Nat.pow_le_pow_right (by decide) he).trans (Nat.pow_le_pow_left ha e)
  unfold InRange smallest largest
  omega

theorem pow_inRange (ha : a.natAbs ≤ 1) (e : Nat) : InRange (a ^ e) := by
  have hpower : (a ^ e).natAbs ≤ 1 := by
    rw [Int.natAbs_pow]
    exact pow_le_one₀ (Nat.zero_le _) ha
  unfold InRange smallest largest
  omega

/-- The powers of a base that is at most one either way. -/
theorem pow_unit (ha : a.natAbs ≤ 1) (e : Nat) : (if e = 0 then 1 else if e % 2 = 0 then a * a else a) = a ^ e := by
  by_cases hzero : e = 0
  · rw [if_pos hzero, hzero, pow_zero]
  rw [if_neg hzero]
  obtain rfl | rfl | rfl : a = 0 ∨ a = 1 ∨ a = -1 := by omega
  · rw [mul_zero, ite_self, zero_pow hzero]
  · rw [mul_one, ite_self, one_pow]
  · by_cases heven : e % 2 = 0
    · rw [if_pos heven, (Nat.even_iff.2 heven).neg_one_pow]
      rfl
    · rw [if_neg heven, (Nat.not_even_iff_odd.1 fun h => heven (Nat.even_iff.1 h)).neg_one_pow]

theorem power_eq (he : e < 2 ^ 32) : power a e = ofInt (a ^ e) := by
  rw [power, if_neg (by omega)]
  by_cases ha : a.natAbs ≤ 1
  · rw [if_pos ha, pow_unit ha]
    exact (if_pos (pow_inRange ha e)).symm
  · rw [if_neg ha]
    by_cases hlarge : 64 ≤ e
    · rw [if_pos hlarge]
      exact (if_neg (pow_not_inRange (by omega) hlarge)).symm
    · rw [if_neg hlarge]
      rfl

theorem power_refuses (he : ¬ e < 2 ^ 32) : power a e = .error .overflow := by
  rw [power, if_pos (by omega)]

/-- The mathematical power, or an overflow if it is out of range; but an exponent of 2^32 or more is refused whatever the
base. Below, the power is what repeated squaring comes to. -/
structure IntegerPower (a : Int) (e : Nat) (r : Result) : Prop where
  power_exact : e < 2 ^ 32 ∨ 2 ≤ a.natAbs → Exactly r (a ^ e)
  refused : ¬ (e < 2 ^ 32 ∨ 2 ≤ a.natAbs) → InRange (a ^ e) ∧ Raises r .overflowError
  steps : e < 2 ^ 32 → r = outcome (squaring 1 a e)

/-- Every power of integers with an exponent that is not negative. -/
theorem integer_power_exact (hx : x.int? = some a) (hy : y.int? = some (e : Int)) :
    IntegerPower a e (binary .pow x y) := by
  have hpower : binary .pow x y = power a e := by
    rw [binary_ints .pow hx hy, ints, if_pos (Int.natCast_nonneg e), Int.toNat_natCast]
  rw [hpower]
  refine ⟨fun h => ?_, fun h => ?_, fun he => ?_⟩
  · by_cases he : e < 2 ^ 32
    · rw [power_eq he]
      exact exactly_ofInt _
    · have hout : ¬ InRange (a ^ e) := pow_not_inRange (by omega) (by omega)
      exact ⟨fun hin => absurd hin hout, fun _ => ⟨_, power_refuses he, rfl⟩⟩
  · exact ⟨pow_inRange (by omega) e, _, power_refuses (by omega), rfl⟩
  · have hsteps : squaring 1 a e = checked (1 * a ^ e) :=
      squaring_eq (by decide) (Value.inRange_of_int? hx) fun h => absurd h (by decide)
    rw [power_eq he, hsteps, one_mul, outcome_checked]

/-- The power that reaches the lower end of the range. -/
theorem integer_power_exact_of_two :
    (Value.int (-2)).int? = some (-2) ∧ (Value.int 63).int? = some ((63 : Nat) : Int) ∧
      binary .pow (.int (-2)) (.int 63) = .ok (.int smallest) ∧
      IntegerPower (-2) 63 (binary .pow (.int (-2)) (.int 63)) := by
  have hx : (Value.int (-2)).int? = some (-2) := by rfl
  have hy : (Value.int 63).int? = some ((63 : Nat) : Int) := by rfl
  exact ⟨hx, hy, rfl, integer_power_exact hx hy⟩

/-- One is a power of one by any exponent, and it is refused for an exponent of 33 bits. -/
theorem power_refused :
    InRange (1 ^ 2 ^ 32) ∧ binary .pow (.int 1) (.int 4294967296) = .error .overflow ∧
      ¬ Exactly (binary .pow (.int 1) (.int 4294967296)) (1 ^ 2 ^ 32) := by
  have hrange : InRange (1 ^ 2 ^ 32) := by
    rw [one_pow]
    decide
  have hrefused : binary .pow (.int 1) (.int 4294967296) = .error .overflow := by rfl
  refine ⟨hrange, hrefused, fun h => ?_⟩
  have hok := h.1 hrange
  rw [hrefused] at hok
  cases hok

end

end MockSchema.Arith
