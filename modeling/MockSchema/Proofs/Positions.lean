/-
  MockSchema.Proofs.Positions — where an index and a slice stand in a sequence.

  A negative index is counted from the end. Within the sequence it has a position, and outside it has none.

  Both directions of a slice are one walk, which goes on while it has not come to its end (`Before`) and the next sum is
  still an integer that arithmetic knows (`Fits`). What it yields are consecutive terms, all before the end
  (`walk_term`). None is missing: the walk has room for all of them, and where a sum is refused the terms
  are over anyway (`walk_complete`).

  A bound is counted from the end like an index, and then moved into the sequence (`Placed`). So a slice selects
  exactly the terms from its first place to its last, no position twice and none outside (`positions_exact`).
-/

import MockSchema.Expr.Index
import MockSchema.Proofs.Runs

namespace MockSchema.Index

/-! ## An index -/

/-- The place that an index or a bound names: a negative one is counted from the end. -/
def fromEnd (length : Nat) (b : Int) : Int := if b < 0 then b + length else b

section
variable {α : Type} {i : Int} {n p : Nat}

theorem position?_eq_some (h : position? n i = some p) : p < n ∧ (p : Int) = fromEnd n i := by
  have hinside : position? n i =
      if 0 ≤ fromEnd n i ∧ fromEnd n i < n then some (fromEnd n i).toNat else none := rfl
  rw [hinside] at h
  split at h
  · cases h
    omega
  · cases h

theorem position?_isSome (hlow : -(n : Int) ≤ i) (hhigh : i < n) : ∃ p, position? n i = some p :=
  ⟨_, if_pos (by omega)⟩

/-- The element at an index is that at its position; outside there is none. -/
theorem element_int {v : Value} (hv : v.int? = some i) (kind : SequenceKind) (xs : List α) :
    element kind xs v =
      match (position? xs.length i).bind (xs[·]?) with
      | some x => .ok x
      | none => .error (.outOfRange kind) := by
  have hindex : sequenceIndex kind v = .ok i := by rw [sequenceIndex, hv]
  rw [element, hindex, ok_bind]
  cases (position? xs.length i).bind (xs[·]?) <;> rfl

end

/-! ## A walk in either direction -/

/-- In the direction of the step, `i` comes strictly before `stop`. -/
def Before (step i stop : Int) : Prop := if 0 < step then i < stop else stop < i

instance (step i stop : Int) : Decidable (Before step i stop) :=
  inferInstanceAs (Decidable (if 0 < step then i < stop else stop < i))

/-- In the direction of the step, the next place is still an integer that arithmetic knows. -/
def Fits (step i : Int) : Prop := if 0 < step then i + step ≤ largest else smallest ≤ i + step

instance (step i : Int) : Decidable (Fits step i) :=
  inferInstanceAs (Decidable (if 0 < step then i + step ≤ largest else smallest ≤ i + step))

/-- `i, i + step, …` while before `stop`, but no sum that does not fit. -/
def walk (step stop : Int) : Nat → Int → List Nat
  | 0, _ => []
  | n + 1, i =>
    if Before step i stop then
      i.toNat :: if Fits step i then walk step stop n (i + step) else []
    else []

section
variable {step stop i : Int} {n k p : Nat}

theorem before_up (h : 0 < step) : Before step i stop ↔ i < stop := by rw [Before, if_pos h]

theorem before_down (h : step < 0) : Before step i stop ↔ stop < i := by rw [Before, if_neg (by omega)]

theorem fits_up (h : 0 < step) : Fits step i ↔ i + step ≤ largest := by rw [Fits, if_pos h]

theorem fits_down (h : step < 0) : Fits step i ↔ smallest ≤ i + step := by rw [Fits, if_neg (by omega)]

theorem ascending_eq_walk (h : 0 < step) : ascending step stop n i = walk step stop n i := by
  induction n generalizing i with
  | zero => rfl
  | succ n ih => simp only [ascending, walk, before_up h, fits_up h, ih]

theorem descending_eq_walk (h : step < 0) : descending step stop n i = walk step stop n i := by
  induction n generalizing i with
  | zero => rfl
  | succ n ih => simp only [descending, walk, before_down h, fits_down h, ih]

/-- A walk up starts at the first element or after it; a walk down ends at the first element or before it comes there. -/
def Inside (step stop i : Int) : Prop := (0 < step ∧ 0 ≤ i) ∨ (step < 0 ∧ -1 ≤ stop)

theorem Inside.term (h : Inside step stop i) (k : Nat) : Inside step stop (i + k * step) := by
  rcases h with ⟨hs, hi⟩ | h
  · have hk : 0 ≤ (k : Int) * step := Int.mul_nonneg (Int.natCast_nonneg k) (by omega)
    exact .inl ⟨hs, by omega⟩
  · exact .inr h

theorem Inside.next (h : Inside step stop i) : Inside step stop (i + step) := by
  have hnext := h.term 1
  rwa [Int.natCast_one, Int.one_mul] at hnext

theorem Inside.nonneg (h : Inside step stop i) (hb : Before step i stop) : 0 ≤ i := by
  rcases h with ⟨-, hi⟩ | ⟨hs, hstop⟩
  · exact hi
  · rw [before_down hs] at hb
    omega

theorem term_succ (i step : Int) (k : Nat) : i + step + k * step = i + (k + 1 : Nat) * step := by
  rw [Int.natCast_succ, Int.add_mul, Int.one_mul]
  omega

/-- What stands at a place of the walk is the term with that number, and it comes before the end. -/
theorem walk_term (h : Inside step stop i) (hp : (walk step stop n i)[k]? = some p) :
    (p : Int) = i + k * step ∧ Before step p stop := by
  induction n generalizing i k with
  | zero => cases hp
  | succ n ih =>
    rw [walk] at hp
    by_cases hb : Before step i stop
    · rw [if_pos hb] at hp
      cases k with
      | zero =>
        have hi := h.nonneg hb
        cases hp
        rw [Int.toNat_of_nonneg hi]
        exact ⟨by simp, hb⟩
      | succ k =>
        rw [List.getElem?_cons_succ] at hp
        by_cases hf : Fits step i
        · rw [if_pos hf] at hp
          obtain ⟨hterm, hbefore⟩ := ih h.next hp
          exact ⟨hterm.trans (term_succ i step k), hbefore⟩
        · rw [if_neg hf] at hp
          cases hp
    · rw [if_neg hb] at hp
      cases hp

/-- A later term comes before the end only if an earlier one does. -/
theorem before_of_term (hb : Before step (i + k * step) stop) (hs : step ≠ 0) : Before step i stop := by
  rcases Int.lt_or_gt_of_ne hs with hs | hs
  · rw [before_down hs] at hb ⊢
    have hk : (k : Int) * step ≤ 0 := Int.mul_nonpos_of_nonneg_of_nonpos (Int.natCast_nonneg k) (by omega)
    omega
  · rw [before_up hs] at hb ⊢
    have hk : 0 ≤ (k : Int) * step := Int.mul_nonneg (Int.natCast_nonneg k) (by omega)
    omega

/-- From a place where the next sum does not fit there is no further term before an end that arithmetic knows. -/
theorem fits_of_term (hstop : InRange stop) (hb : Before step (i + step + k * step) stop) (hs : step ≠ 0) :
    Fits step i := by
  have hnext := before_of_term hb hs
  unfold InRange at hstop
  rcases Int.lt_or_gt_of_ne hs with hs | hs
  · rw [before_down hs] at hnext
    rw [fits_down hs]
    omega
  · rw [before_up hs] at hnext
    rw [fits_up hs]
    omega

/-- No term before the end is missing; how far it is to the end is room enough, since a step is at least one. -/
theorem walk_complete (hs : step ≠ 0) (hstop : InRange stop) (hup : 0 < step → stop - i ≤ n)
    (hdown : step < 0 → i - stop ≤ n) (hb : Before step (i + k * step) stop) :
    k < (walk step stop n i).length := by
  induction n generalizing i k with
  | zero =>
    have hi := before_of_term hb hs
    rcases Int.lt_or_gt_of_ne hs with hs | hs
    · rw [before_down hs] at hi
      have := hdown hs
      omega
    · rw [before_up hs] at hi
      have := hup hs
      omega
  | succ n ih =>
    rw [walk, if_pos (before_of_term hb hs), List.length_cons]
    cases k with
    | zero => omega
    | succ k =>
      rw [← term_succ] at hb
      have hk := ih (fun h => by have := hup h; omega) (fun h => by have := hdown h; omega) hb
      rw [if_pos (fits_of_term hstop hb hs)]
      omega

/-- No place is visited twice. -/
theorem walk_nodup (h : Inside step stop i) : (walk step stop n i).Nodup := by
  have hs : step ≠ 0 := by rcases h with ⟨hs, -⟩ | ⟨hs, -⟩ <;> omega
  rw [List.Nodup, List.pairwise_iff_getElem]
  intro j k hj hk hjk heq
  have htermj := (walk_term h (List.getElem?_eq_getElem hj)).1
  have htermk := (walk_term h (List.getElem?_eq_getElem hk)).1
  rw [heq] at htermj
  have hmul : (j : Int) * step = k * step := by omega
  have := Int.eq_of_mul_eq_mul_right hs hmul
  omega

end

/-! ## Bounds -/

theorem bound_int {b : Int} (hb : InRange b) : bound (.int b) = .ok (some b) := by
  simp only [bound, Value.int?_int hb]

/-- A bound moved into `[low, high]`: one inside stays where it is, one outside comes to the nearer end. -/
inductive Placed (length : Nat) (low high absent : Int) : Option Int → Int → Prop
  | absent : Placed length low high absent none absent
  | inside {b : Int} : low ≤ fromEnd length b → fromEnd length b ≤ high →
      Placed length low high absent (some b) (fromEnd length b)
  | below {b : Int} : fromEnd length b < low → Placed length low high absent (some b) low
  | above {b : Int} : high < fromEnd length b → Placed length low high absent (some b) high

/-- Where a slice begins, and before which place it ends. -/
inductive Ends (length : Nat) (step : Int) (start stop : Option Int) (first last : Int) : Prop
  | up : 0 < step → Placed length 0 length 0 start first → Placed length 0 length length stop last →
      Ends length step start stop first last
  | down : step < 0 → Placed length (-1) (length - 1) (length - 1) start first →
      Placed length (-1) (length - 1) (-1) stop last → Ends length step start stop first last

section
variable {length : Nat} {low high absent x : Int} {bound : Option Int}

theorem placed_clamp (h : low ≤ high) (bound : Option Int) :
    Placed length low high absent bound ((bound.map (clamp length low high)).getD absent) := by
  cases bound with
  | none => exact .absent
  | some b =>
    have hclamp : clamp length low high b = max low (min high (fromEnd length b)) := rfl
    rw [Option.map_some, Option.getD_some, hclamp]
    by_cases hlow : fromEnd length b < low
    · rw [Int.max_eq_left (by omega)]
      exact .below hlow
    · by_cases hhigh : high < fromEnd length b
      · rw [Int.min_eq_left (by omega), Int.max_eq_right h]
        exact .above hhigh
      · rw [Int.min_eq_right (by omega), Int.max_eq_right (by omega)]
        exact .inside (by omega) (by omega)

theorem Placed.within (h : Placed length low high absent bound x) (hlow : low ≤ absent) (hhigh : absent ≤ high) :
    low ≤ x ∧ x ≤ high := by
  cases h with
  | absent => exact ⟨hlow, hhigh⟩
  | inside hl hh => exact ⟨hl, hh⟩
  | below => exact ⟨Int.le_refl _, by omega⟩
  | above => exact ⟨by omega, Int.le_refl _⟩

variable {start stop : Option Int} {step first last : Int} {ps : List Nat}

theorem Ends.step_ne_zero (h : Ends length step start stop first last) : step ≠ 0 := by
  cases h <;> omega

theorem Ends.inside (h : Ends length step start stop first last) : Inside step last first := by
  cases h with
  | up hs hfirst => exact .inl ⟨hs, (hfirst.within (by omega) (by omega)).1⟩
  | down hs _ hlast => exact .inr ⟨hs, (hlast.within (by omega) (by omega)).1⟩

/-- Both ends are places of the sequence, or next to it. -/
theorem Ends.within (h : Ends length step start stop first last) :
    (-1 ≤ first ∧ first ≤ length) ∧ -1 ≤ last ∧ last ≤ length := by
  cases h with
  | up _ hfirst hlast =>
    have := hfirst.within (by omega) (by omega)
    have := hlast.within (by omega) (by omega)
    omega
  | down _ hfirst hlast =>
    have := hfirst.within (by omega) (by omega)
    have := hlast.within (by omega) (by omega)
    omega

/-- The terms before the end lie in the sequence. -/
theorem Ends.term_lt (h : Ends length step start stop first last) {k : Nat}
    (hb : Before step (first + k * step) last) : first + k * step < length := by
  cases h with
  | up hs _ hlast =>
    have := hlast.within (by omega) (by omega)
    rw [before_up hs] at hb
    omega
  | down hs hfirst _ =>
    have := hfirst.within (by omega) (by omega)
    have hk : (k : Int) * step ≤ 0 := Int.mul_nonpos_of_nonneg_of_nonpos (Int.natCast_nonneg k) (by omega)
    omega

/-! ## Positions -/

/-- A slice goes from one end to the other. -/
theorem positions?_eq_walk (length : Nat) (start stop : Option Int) {step : Option Int} (hstep : step ≠ some 0) :
    ∃ first last, Ends length (step.getD 1) start stop first last ∧
      positions? length start stop step = some (walk (step.getD 1) last length first) := by
  have hs : step.getD 1 ≠ 0 := by
    cases step with
    | none => decide
    | some s => exact fun h => hstep (congrArg some h)
  unfold positions?
  generalize step.getD 1 = s at hs
  dsimp only
  rw [if_neg hs]
  by_cases hup : 0 < s
  · rw [if_pos hup, ascending_eq_walk hup]
    exact ⟨_, _, .up hup (placed_clamp (by omega) start) (placed_clamp (by omega) stop), rfl⟩
  · have hdown : s < 0 := by omega
    rw [if_neg hup, descending_eq_walk hdown]
    exact ⟨_, _, .down hdown (placed_clamp (by omega) start) (placed_clamp (by omega) stop), rfl⟩

/-- There are positions for every step but zero. -/
theorem positions?_eq_none {step : Option Int} : positions? length start stop step = none ↔ step = some 0 := by
  constructor
  · intro hnone
    refine Decidable.byContradiction fun hstep => ?_
    obtain ⟨_, _, -, hsome⟩ := positions?_eq_walk length start stop hstep
    rw [hnone] at hsome
    cases hsome
  · rintro rfl
    rfl

theorem walk_lt (h : Ends length step start stop first last) {n p : Nat} (hp : p ∈ walk step last n first) :
    p < length := by
  obtain ⟨k, hk, rfl⟩ := List.mem_iff_getElem.1 hp
  obtain ⟨hterm, hbefore⟩ := walk_term h.inside (List.getElem?_eq_getElem hk)
  rw [hterm] at hbefore
  have := h.term_lt hbefore
  omega

/-- The positions of a slice lie in the sequence, whatever its length, and no two are the same. -/
theorem positions?_sound {step : Option Int} (h : positions? length start stop step = some ps) :
    ps.Nodup ∧ ∀ p ∈ ps, p < length := by
  have hstep : step ≠ some 0 := fun hzero => by
    rw [positions?_eq_none.2 hzero] at h
    cases h
  obtain ⟨first, last, hends, hwalk⟩ := positions?_eq_walk length start stop hstep
  rw [hwalk] at h
  cases h
  exact ⟨walk_nodup hends.inside, fun p hp => walk_lt hends hp⟩

/-- Every number on the way is an integer that arithmetic knows: the bounds as they are counted from the end, the two
ends, and the places before the last. -/
structure Known (length : Nat) (start stop : Option Int) (step first last : Int) : Prop where
  bounds : ∀ b, start = some b ∨ stop = some b → InRange (fromEnd length b)
  ends : InRange first ∧ InRange last
  places : ∀ k : Nat, Before step (first + k * step) last → InRange (first + k * step)

/-- The positions from `first` in steps, as many as come before `last`. -/
structure Progression (length : Nat) (step first last : Int) (ps : List Nat) : Prop where
  term : ∀ (k : Nat) (hk : k < ps.length), (ps[k] : Int) = first + k * step
  all : ∀ k : Nat, k < ps.length ↔ Before step (first + k * step) last
  within : ∀ p ∈ ps, p < length
  distinct : ps.Nodup

/-- In a sequence whose length arithmetic knows, a slice does not stop early. -/
theorem Ends.progression (h : Ends length step start stop first last) (hlength : (length : Int) ≤ largest) :
    Progression length step first last (walk step last length first) where
  term k hk := (walk_term h.inside (List.getElem?_eq_getElem hk)).1
  all k := by
    have hw := h.within
    constructor
    · intro hk
      obtain ⟨hterm, hbefore⟩ := walk_term h.inside (List.getElem?_eq_getElem hk)
      rw [hterm] at hbefore
      exact hbefore
    · refine walk_complete h.step_ne_zero ⟨?_, by omega⟩ ?_ ?_
      · have : smallest ≤ -1 := by decide
        omega
      · intro hs
        rcases h with ⟨-, hfirst, hlast⟩ | ⟨hs', -, -⟩
        · have := hfirst.within (by omega) (by omega)
          omega
        · omega
      · intro hs
        rcases h with ⟨hs', -, -⟩ | ⟨-, hfirst, hlast⟩
        · omega
        · have := hfirst.within (by omega) (by omega)
          omega
  within p hp := walk_lt h hp
  distinct := walk_nodup h.inside

theorem inRange_fromEnd (hlength : (length : Int) ≤ largest) {b : Int} (hb : InRange b) :
    InRange (fromEnd length b) := by
  unfold InRange smallest largest at *
  unfold fromEnd
  split <;> omega

theorem Ends.known (h : Ends length step start stop first last) (hlength : (length : Int) ≤ largest)
    (hstart : ∀ b ∈ start, InRange b) (hstop : ∀ b ∈ stop, InRange b) :
    Known length start stop step first last where
  bounds b hb := by
    rcases hb with rfl | rfl
    · exact inRange_fromEnd hlength (hstart b rfl)
    · exact inRange_fromEnd hlength (hstop b rfl)
  ends := by
    have := h.within
    unfold InRange smallest largest at *
    omega
  places k hb := by
    have hlt := h.term_lt hb
    have hnonneg := (h.inside.term k).nonneg hb
    unfold InRange smallest largest at *
    omega

/-- There are positions for every step but zero. They are exactly the places from the first end on in steps that
come before the other end, all inside the sequence and no two the same, and no number on the way leaves the integers. -/
theorem positions_exact {step : Option Int} (hlength : (length : Int) ≤ largest) (hstart : ∀ b ∈ start, InRange b)
    (hstop : ∀ b ∈ stop, InRange b) :
    (positions? length start stop step = none ↔ step = some 0) ∧
    ∀ ps, positions? length start stop step = some ps →
      ∃ first last, Ends length (step.getD 1) start stop first last ∧
        Progression length (step.getD 1) first last ps ∧ Known length start stop (step.getD 1) first last := by
  refine ⟨positions?_eq_none, fun ps hps => ?_⟩
  have hstep : step ≠ some 0 := fun hzero => by
    rw [positions?_eq_none.2 hzero] at hps
    cases hps
  obtain ⟨first, last, hends, hwalk⟩ := positions?_eq_walk length start stop hstep
  rw [hwalk] at hps
  cases hps
  exact ⟨first, last, hends, hends.progression hlength, hends.known hlength hstart hstop⟩

/-- A step down as far as it can be: it takes the last of three elements, and the sum of the place and the step still
fits. -/
theorem positions_exact_smallest_step :
    ((3 : Nat) : Int) ≤ largest ∧ (∀ b ∈ (none : Option Int), InRange b) ∧ (∀ b ∈ some smallest, InRange b) ∧
      positions? 3 none (some smallest) (some smallest) = some [2] ∧
      ∃ first last, Ends 3 smallest none (some smallest) first last ∧ Progression 3 smallest first last [2] ∧
        Known 3 none (some smallest) smallest first last := by
  have hlength : ((3 : Nat) : Int) ≤ largest := by decide
  have hstart : ∀ b ∈ (none : Option Int), InRange b := nofun
  have hstop : ∀ b ∈ some smallest, InRange b := by
    rintro b hb
    cases hb
    decide
  have hpositions : positions? 3 none (some smallest) (some smallest) = some [2] := by decide
  exact ⟨hlength, hstart, hstop, hpositions, (positions_exact hlength hstart hstop).2 [2] hpositions⟩

end

end MockSchema.Index
