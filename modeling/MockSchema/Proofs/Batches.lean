/-
  MockSchema.Proofs.Batches — a value that is wanted so many times, at once or in batches.

  A repeat runs the expansion of its value so many times on the same cursors. So the runs of a large batch are those
  of a smaller one and then the others, on the cursors that the smaller one left (`runs_add`), wherever the runs
  draw and whichever of them fails. The sign of a count is looked at when all is run: it turns the list round and
  has no part in the draws (`count_backwards`).
-/

import MockSchema.Proofs.Turns

namespace MockSchema

/-- The elements of a list; nothing else has any. -/
def Value.elements : Value → List Value
  | .list xs => xs
  | _ => []

namespace Example

section
variable {one : Expansion Value} {l : String} {m n : Nat}

/-! ## Runs -/

theorem runs_succ (n : Nat) (done : List Value) : runs one (n + 1) done = one >>= fun v => runs one n (v :: done) := rfl

/-- The runs of two batches, those of the second on the cursors that the first left. -/
theorem runs_add (m n : Nat) (done : List Value) : runs one (m + n) done = runs one m done >>= runs one n := by
  induction m generalizing done with
  | zero => rw [Nat.zero_add, runs, pure_bind]
  | succ m ih =>
    rw [Nat.add_right_comm, runs_succ, runs_succ, bind_assoc]
    exact bind_congr fun v => ih (v :: done)

/-- What was there before stays behind what is run. -/
theorem runs_append (n : Nat) (done : List Value) :
    runs one n done = runs one n [] >>= fun vs => pure (vs ++ done) := by
  induction n generalizing done with
  | zero => rfl
  | succ n ih =>
    rw [runs_succ, runs_succ, bind_assoc]
    refine bind_congr fun v => ?_
    rw [ih (v :: done), ih [v], bind_assoc]
    refine bind_congr fun vs => ?_
    rw [pure_bind, List.append_assoc, List.singleton_append]

theorem runs_length {done vs : List Value} {c d : Cursors} (h : runs one n done c = (.ok vs, d)) :
    vs.length = n + done.length := by
  induction n generalizing done c with
  | zero => cases h; rw [Nat.zero_add]
  | succ n ih =>
    rw [runs_succ] at h
    obtain ⟨v, c', _, hrest⟩ := run_bind_ok h
    rw [ih hrest, List.length_cons]
    omega

/-! ## Batches -/

/-- The values of `n` runs, in their order. -/
def batch (one : Expansion Value) (n : Nat) : Expansion (List Value) := runs one n [] >>= fun vs => pure vs.reverse

theorem batch_add (m n : Nat) :
    batch one (m + n) = batch one m >>= fun xs => batch one n >>= fun ys => pure (xs ++ ys) := by
  unfold batch
  simp only [runs_add, bind_assoc, pure_bind]
  refine bind_congr fun xs => ?_
  rw [runs_append, bind_assoc]
  refine bind_congr fun ys => ?_
  rw [pure_bind, List.reverse_append]

theorem batch_length {xs : List Value} {c d : Cursors} (h : batch one n c = (.ok xs, d)) : xs.length = n := by
  obtain ⟨vs, c', hruns, hlast⟩ := run_bind_ok h
  cases hlast
  rw [List.length_reverse, runs_length hruns, List.length_nil, Nat.add_zero]

theorem count_forwards (hn : n ≤ maxRepeat) : count one n l = batch one n >>= fun xs => pure (.list xs) := by
  have hsign : ¬ (n : Int) < 0 := by omega
  unfold count batch
  rw [Int.natAbs_natCast, if_neg (Nat.not_lt.2 hn), bind_assoc]
  simp only [if_neg hsign, pure_bind]

theorem count_backwards (hn : n ≤ maxRepeat) :
    count one (-n) l = batch one n >>= fun xs => pure (.list xs.reverse) := by
  unfold count batch
  rw [Int.natAbs_neg, Int.natAbs_natCast, if_neg (Nat.not_lt.2 hn), bind_assoc]
  cases n with
  | zero => rfl
  | succ n =>
    have hsign : -((n + 1 : Nat) : Int) < 0 := by omega
    simp only [if_pos hsign, pure_bind, List.reverse_reverse]

theorem repeated_int {k : Int} (hk : k.natAbs ≤ maxRepeat) (v : Value) : repeated one v (.int k) l = count one k l := by
  simp only [repeated, if_pos (inRange_of_natAbs hk)]

end

/-! ## Values wanted many times -/

section
variable {v : Value} {n : Nat}

theorem expandWith_forwards (hn : n ≤ maxRepeat) :
    expandWith v (.int n) = batch (single "" v) n >>= fun xs => pure (.list xs) := by
  unfold expandWith
  rw [repeated_int (by rwa [Int.natAbs_natCast]), count_forwards hn]

theorem expandWith_backwards (hn : n ≤ maxRepeat) :
    expandWith v (.int (-n)) = batch (single "" v) n >>= fun xs => pure (.list xs.reverse) := by
  unfold expandWith
  rw [repeated_int (by rwa [Int.natAbs_neg, Int.natAbs_natCast]), count_backwards hn]

end

/-- A value wanted `m + n` times is the value wanted `m` times and then, on the cursors that this left, `n` times, the
lists one after the other; the first failure is that of the whole, with the cursors as they were then. A negative count
runs as the positive one does and turns the list round. A list for a count has as many elements as the count says. -/
theorem expandWith_additive (v : Value) {m n : Nat} (h : m + n ≤ maxRepeat) :
    expandWith v (.int (m + n : Nat)) = (do
      let w ← expandWith v (.int m)
      let w' ← expandWith v (.int n)
      return .list (w.elements ++ w'.elements)) ∧
    expandWith v (.int (-n)) = (do
      let w ← expandWith v (.int n)
      return .list w.elements.reverse) ∧
    ∀ k ≤ maxRepeat, ∀ c w d, expandWith v (.int k) c = (.ok w, d) → ∃ xs, w = .list xs ∧ xs.length = k := by
  have hm : m ≤ maxRepeat := by omega
  have hn : n ≤ maxRepeat := by omega
  refine ⟨?_, ?_, fun k hk c w d hw => ?_⟩
  · rw [expandWith_forwards h, expandWith_forwards hm, expandWith_forwards hn, batch_add]
    simp only [bind_assoc, pure_bind, Value.elements]
  · rw [expandWith_backwards hn, expandWith_forwards hn]
    simp only [bind_assoc, pure_bind, Value.elements]
  · rw [expandWith_forwards hk] at hw
    obtain ⟨xs, c', hbatch, hlast⟩ := run_bind_ok hw
    cases hlast
    exact ⟨xs, rfl, batch_length hbatch⟩

/-- An object with a list of counts that goes wrong at its third: wanted three times it fails there, as the second of two
batches does, and wanted twice it is the same list from either end. -/
theorem expandWith_additive_part_way :
    let v : Value := .object [("a", .list [.int 1, .int 2]), ("a[]", .list [.int 1, .int 2, .bool true])]
    let first : Value := .object [("a", .list [.int 1])]
    let second : Value := .object [("a", .list [.int 2, .int 1])]
    1 + 2 ≤ maxRepeat ∧
    expandWith v (.int 1) [] = (.ok (.list [first]), [("/a[]", 1), ("/a", 1)]) ∧
    expandWith v (.int 3) [] = (.error ⟨"/a[]", .badCount "true"⟩, [("/a[]", 0), ("/a", 1)]) ∧
    expandWith v (.int (-2)) [] = (.ok (.list [second, first]), [("/a[]", 2), ("/a", 1)]) := by
  intro v first second
  obtain ⟨hadd, hreverse, -⟩ := expandWith_additive v (m := 1) (n := 2) (by decide)
  have hfirst : expandWith v (.int (1 : Nat)) [] = (.ok (.list [first]), [("/a[]", 1), ("/a", 1)]) := rfl
  have hfails : expandWith v (.int (2 : Nat)) [("/a[]", 1), ("/a", 1)] =
      (.error ⟨"/a[]", .badCount "true"⟩, [("/a[]", 0), ("/a", 1)]) := rfl
  refine ⟨by decide, hfirst, ?_, ?_⟩
  · show expandWith v (.int (1 + 2 : Nat)) [] = _
    rw [hadd, run_bind, hfirst]
    dsimp only
    rw [run_bind, hfails]
  · show expandWith v (.int (-(2 : Nat))) [] = _
    rw [hreverse]
    rfl

end Example

end MockSchema
