/-
  MockSchema.Proofs.Extremes — `min`, `max` and `sorted` agree on which value comes first.

  `min` runs through a list once and puts another value in the place of the best one when that is less. At every point
  the best one is the first of the least values so far (`FirstLeast`), and there is one such value at most. The stable
  sort begins with it too: none is less, and one that is tied with it and came before would still stand before. So
  `min` returns the first element of the sorted list itself, and not one that is equal to it, as `1` is to `true`.

  `max` is the same run with the comparison turned round, and finds the first of the greatest values. The sorted list
  ends with the last of them, which is equal to the first.
-/

import MockSchema.Expr.Call
import MockSchema.Expr.Index
import MockSchema.Proofs.Positions
import MockSchema.Proofs.Comparison

namespace MockSchema.Order

section
variable {α ε : Type} (cmp : α → α → Except ε Ordering)

/-- The first of the least elements: less than those before it, and at most those after it. -/
def FirstLeast (xs : List α) (m : α) : Prop :=
  ∃ before after, xs = before ++ m :: after ∧ (∀ a ∈ before, cmp m a = .ok .lt) ∧ ∀ a ∈ after, AtMost cmp m a

/-- One run through the list, in which what is less replaces the best so far. -/
def least (best : α) (vs : List α) : Except ε α :=
  vs.foldlM (fun best v => do return if (← cmp v best) == .lt then v else best) best

end

section
variable {α ε : Type} {cmp : α → α → Except ε Ordering} {S : α → Prop} {m m' v : α} {xs ys vs : List α}

/-! ## The first of the least -/

theorem FirstLeast.mem (h : FirstLeast cmp xs m) : m ∈ xs := by
  obtain ⟨before, after, rfl, -, -⟩ := h
  exact List.mem_append_right before List.mem_cons_self

theorem FirstLeast.atMost (h : FirstLeast cmp xs m) {a : α} (ha : a ∈ xs) : a = m ∨ AtMost cmp m a := by
  obtain ⟨before, after, rfl, hbefore, hafter⟩ := h
  rcases List.mem_append.1 ha with ha | ha
  · exact Or.inr ⟨.lt, hbefore a ha, nofun⟩
  rcases List.mem_cons.1 ha with rfl | ha
  · exact Or.inl rfl
  · exact Or.inr (hafter a ha)

theorem FirstLeast.unique (hl : Lawful cmp S) (hxs : ∀ x ∈ xs, S x) (h : FirstLeast cmp xs m)
    (h' : FirstLeast cmp xs m') : m = m' := by
  have hm := hxs m h.mem
  have hm' := hxs m' h'.mem
  obtain ⟨before, after, hx, hbefore, hafter⟩ := h
  obtain ⟨before', after', hx', hbefore', hafter'⟩ := h'
  rw [hx, List.append_eq_append_iff] at hx'
  rcases hx' with ⟨mid, hmid, hrest⟩ | ⟨mid, hmid, hrest⟩
  · cases mid with
    | nil => exact (List.cons.inj hrest).1
    | cons k mid =>
      -- The second would be less than the first, which is at most what comes after it.
      obtain ⟨rfl, rfl⟩ := List.cons.inj hrest
      have hlt := hbefore' m (hmid ▸ List.mem_append_right _ List.mem_cons_self)
      exact absurd hlt (hl.not_less hm' hm (hafter m' (List.mem_append_right _ List.mem_cons_self)))
  · cases mid with
    | nil => exact (List.cons.inj hrest).1.symm
    | cons k mid =>
      obtain ⟨rfl, rfl⟩ := List.cons.inj hrest
      have hlt := hbefore m' (hmid ▸ List.mem_append_right _ List.mem_cons_self)
      exact absurd hlt (hl.not_less hm hm' (hafter' m (List.mem_append_right _ List.mem_cons_self)))

/-- The stable sort begins with it. -/
theorem StableSort.firstLeast (hl : Lawful cmp S) (hxs : ∀ x ∈ xs, S x) (h : StableSort cmp xs (m :: ys)) :
    FirstLeast cmp xs m := by
  have hm : m ∈ xs := h.perm.mem_iff.1 List.mem_cons_self
  have hties := h.keeps_ties hl hxs hm
  obtain ⟨before, after, rfl, hnot⟩ := List.eq_append_cons_of_mem hm
  have hperm : ys.Perm (before ++ after) := (List.perm_cons m).1 (h.perm.trans List.perm_middle)
  have hle : ∀ a ∈ before ++ after, AtMost cmp m a := fun a ha =>
    (List.pairwise_cons.1 h.ascends).1 a (hperm.mem_iff.2 ha)
  -- Of those tied with it, the first in the list is the first in the sorted list.
  have hnone : ties cmp m before = [] := by
    rw [ties_cons (Or.inl rfl), ties_append] at hties
    cases hb : ties cmp m before with
    | nil => rfl
    | cons b rest =>
      have hmem : b ∈ before := (mem_ties.1 (hb ▸ List.mem_cons_self)).1
      rw [hb] at hties
      cases (List.cons.inj hties).1
      exact absurd hmem hnot
  refine ⟨before, after, rfl, fun a ha => ?_, fun a ha => hle a (List.mem_append_right _ ha)⟩
  obtain ⟨o, ho, hgt⟩ := hle a (List.mem_append_left _ ha)
  cases o with
  | lt => exact ho
  | gt => exact absurd rfl hgt
  | eq => exact absurd (mem_ties.2 ⟨ha, Or.inr ho⟩) (hnone ▸ List.not_mem_nil)

theorem FirstLeast.append_one (h : FirstLeast cmp xs m) (hv : AtMost cmp m v) : FirstLeast cmp (xs ++ [v]) m := by
  obtain ⟨before, after, rfl, hbefore, hafter⟩ := h
  refine ⟨before, after ++ [v], List.append_assoc before (m :: after) [v], hbefore, fun a ha => ?_⟩
  rcases List.mem_append.1 ha with ha | ha
  · exact hafter a ha
  · exact List.mem_singleton.1 ha ▸ hv

/-! ## One run -/

theorem FirstLeast.singleton : FirstLeast cmp [m] m := ⟨[], [], rfl, nofun, nofun⟩

/-- One more value at the end: it replaces the best one if it is less. -/
theorem FirstLeast.next (hl : Lawful cmp S) (hxs : ∀ x ∈ xs ++ [v], S x) (h : FirstLeast cmp xs m) {o : Ordering}
    (ho : cmp v m = .ok o) : FirstLeast cmp (xs ++ [v]) (if o == .lt then v else m) := by
  obtain ⟨hxs, hv⟩ := List.forall_mem_append.1 hxs
  have hv : S v := hv v (List.mem_singleton_self v)
  have hm : S m := hxs m h.mem
  cases o with
  | lt =>
    refine ⟨xs, [], rfl, fun a ha => ?_, nofun⟩
    rcases h.atMost ha with rfl | ⟨o, hma, hne⟩
    · exact ho
    · obtain ⟨r, hva, hr, hre⟩ := hl.trans hv hm (hxs a ha) ho hma nofun hne
      cases r with
      | lt => exact hva
      | eq => cases (hre rfl).1
      | gt => exact absurd rfl hr
  | eq => exact h.append_one (hl.atMost_swap hv hm ho nofun)
  | gt => exact h.append_one (hl.atMost_swap hv hm ho nofun)

theorem least_first (hl : Lawful cmp S) (hxs : ∀ x ∈ xs ++ vs, S x) (h : FirstLeast cmp xs m)
    (hm : least cmp m vs = .ok m') : FirstLeast cmp (xs ++ vs) m' := by
  induction vs generalizing xs m with
  | nil =>
    cases hm
    rwa [List.append_nil]
  | cons v vs ih =>
    rw [least, List.foldlM_cons] at hm
    obtain ⟨best, hbest, hm⟩ := bind_ok hm
    obtain ⟨o, ho, hbest⟩ := bind_ok hbest
    cases hbest
    rw [List.append_cons] at hxs ⊢
    exact ih hxs (h.next hl (List.forall_mem_append.1 hxs).1 ho) hm

theorem least_returns (h : (m :: vs).Pairwise fun a b => Comparable cmp a b ∧ Comparable cmp b a) :
    ∃ m', least cmp m vs = .ok m' := by
  induction vs generalizing m with
  | nil => exact ⟨m, rfl⟩
  | cons v vs ih =>
    obtain ⟨hm, hvs⟩ := List.pairwise_cons.1 h
    obtain ⟨⟨-, o, ho⟩, hm⟩ := List.forall_mem_cons.1 hm
    have hnext : ((if o == .lt then v else m) :: vs).Pairwise fun a b => Comparable cmp a b ∧ Comparable cmp b a := by
      split
      · exact hvs
      · exact List.pairwise_cons.2 ⟨hm, (List.pairwise_cons.1 hvs).2⟩
    obtain ⟨m', hm'⟩ := ih hnext
    refine ⟨m', ?_⟩
    rw [least, List.foldlM_cons, ho]
    exact hm'

/-- The run through a list in which any two can be compared returns the first of the least. -/
theorem least_of_comparable (hl : Lawful cmp S) (hxs : ∀ x ∈ m :: vs, S x) (h : AllComparable cmp (m :: vs)) :
    ∃ m', least cmp m vs = .ok m' ∧ FirstLeast cmp (m :: vs) m' := by
  obtain ⟨m', hm'⟩ := least_returns (allComparable_iff.1 h)
  exact ⟨m', hm', least_first hl hxs .singleton hm'⟩

end

end MockSchema.Order

namespace MockSchema.Builtin

section
variable {xs ys : List Value} {m v w L M : Value}

theorem extreme_lt (vs : List Value) : extreme .lt v vs = Order.least Value.order v vs := rfl

theorem extreme_gt (vs : List Value) : extreme .gt v vs = Order.least (Order.opposite Value.order) v vs := by
  unfold extreme Order.least
  congr 1
  funext best v
  unfold Order.opposite
  cases Value.order v best with
  | error e => rfl
  | ok o => cases o <;> rfl

theorem call_sorted : call .sorted [.list xs] = .ok w ↔ ∃ ys, sortValues xs = .ok ys ∧ w = .list ys := by
  show (do return Value.list (← sortValues xs)) = Except.ok w ↔ _
  cases sortValues xs with
  | error e => exact ⟨nofun, nofun⟩
  | ok ys =>
    constructor
    · intro h
      cases h
      exact ⟨ys, rfl, rfl⟩
    · rintro ⟨ys', hys, rfl⟩
      cases hys
      rfl

theorem get_position {n : Int} {k : Nat} (hn : InRange n) (hk : Index.position? xs.length n = some k)
    (hv : xs[k]? = some v) : Index.get (.list xs) (.int n) = .ok v := by
  rw [Index.get, Index.element_int (Value.int?_int hn), hk, Option.bind_some, hv]

theorem get_first (m : Value) (ys : List Value) : Index.get (.list (m :: ys)) (.int 0) = .ok m := by
  have hk : Index.position? (m :: ys).length 0 = some 0 := by
    simp [Index.position?]
  exact get_position (by decide) hk rfl

theorem get_last (ys : List Value) (L : Value) : Index.get (.list (ys ++ [L])) (.int (-1)) = .ok L := by
  have hk : Index.position? (ys ++ [L]).length (-1) = some ys.length := by
    simp only [Index.position?, List.length_append, List.length_singleton]
    rw [if_pos (by omega), if_pos (by omega)]
    congr 1
    omega
  exact get_position (by decide) hk List.getElem?_concat_length

/-- `min` returns the value with which the sorted list begins. -/
theorem min_first (hx : ∀ x ∈ xs, x.Exact) (hs : Order.StableSort Value.order xs (m :: ys)) :
    call .min [.list xs] = .ok m ∧ Order.FirstLeast Value.order xs m := by
  have hl := Value.order_lawful
  have hm := hs.firstLeast hl hx
  cases xs with
  | nil => exact absurd hm.mem List.not_mem_nil
  | cons v vs =>
    obtain ⟨m', hmin, hm'⟩ := Order.least_of_comparable hl hx (hs.allComparable hl hx)
    rw [hm.unique hl hx hm']
    exact ⟨(extreme_lt vs).trans hmin, hm'⟩

/-- `max` returns the first of the greatest values. The sorted list ends with the last of them. -/
theorem max_last (hx : ∀ x ∈ xs, x.Exact) (hs : Order.StableSort Value.order xs (ys ++ [L])) :
    ∃ M, call .max [.list xs] = .ok M ∧ Order.FirstLeast (Order.opposite Value.order) xs M ∧
      Value.same M L = true := by
  have hl := Value.order_lawful.opposite
  have hr := hs.opposite Value.order_lawful hx
  rw [List.reverse_append] at hr
  have hL := hr.firstLeast hl fun x h => hx x (List.mem_reverse.1 h)
  have hLx := hx L (List.mem_reverse.1 hL.mem)
  cases xs with
  | nil => exact absurd hL.mem List.not_mem_nil
  | cons v vs =>
    have hall := hs.allComparable Value.order_lawful hx
    have hallr : Order.AllComparable (Order.opposite Value.order) (v :: vs) :=
      fun i j hi hj hij => Order.comparable_opposite.2 (hall i j hi hj hij)
    obtain ⟨M, hmax, hM⟩ := Order.least_of_comparable hl hx hallr
    refine ⟨M, (extreme_gt vs).trans hmax, hM, ?_⟩
    have hMx := hx M hM.mem
    rcases hM.atMost (List.mem_reverse.1 hL.mem) with rfl | hML
    · exact hMx.same_self
    rcases hL.atMost (List.mem_reverse.2 hM.mem) with rfl | hLM
    · exact hMx.same_self
    · have htie := Order.opposite_ok.1 (hl.tied hMx hLx hML hLM)
      exact (Value.order_eq_iff hMx hLx htie).1 rfl

/-- On values without floats, `sorted` succeeds exactly if any two of them can be compared. It returns the stable sort,
in which equal values stand as they came; `min` returns the first of the least values, with which it begins, and `max`
the first of the greatest, which is equal to that with which it ends. -/
theorem sorted_extremes (hx : ∀ x ∈ xs, x.Exact) :
    ((∃ w, call .sorted [.list xs] = .ok w) ↔ Order.AllComparable Value.order xs) ∧
    ∀ w, call .sorted [.list xs] = .ok w →
      ∃ ys, w = .list ys ∧ Order.StableSort Value.order xs ys ∧
        (∀ k ∈ xs, ys.filter (Value.same k) = xs.filter (Value.same k)) ∧
        (xs ≠ [] → ∃ m M L,
          call .min [.list xs] = .ok m ∧ Order.FirstLeast Value.order xs m ∧ Index.get w (.int 0) = .ok m ∧
          call .max [.list xs] = .ok M ∧ Order.FirstLeast (Order.opposite Value.order) xs M ∧
          Index.get w (.int (-1)) = .ok L ∧ Value.same M L = true) := by
  have hl := Value.order_lawful
  refine ⟨?_, fun w hw => ?_⟩
  · rw [← Order.sort_returns hl hx]
    constructor
    · rintro ⟨w, hw⟩
      obtain ⟨ys, hys, -⟩ := call_sorted.1 hw
      exact ⟨ys, hys⟩
    · rintro ⟨ys, hys⟩
      exact ⟨.list ys, call_sorted.2 ⟨ys, hys, rfl⟩⟩
  · obtain ⟨ys, hys, rfl⟩ := call_sorted.1 hw
    have hs := Order.stableSort_of_sort hl hx hys
    refine ⟨ys, rfl, hs, fun k hk => hs.keeps _ fun a ha b hb => Value.not_less_of_same (hx k hk) (hx a ha) (hx b hb),
      fun hne => ?_⟩
    have hyne : ys ≠ [] := fun hnil => hne (hnil ▸ hs.perm).nil_eq.symm
    obtain ⟨init, L, hlast⟩ : ∃ init L, ys = init ++ [L] := ⟨_, _, (List.dropLast_append_getLast hyne).symm⟩
    obtain ⟨m, rest, hfirst⟩ := List.exists_cons_of_ne_nil hyne
    obtain ⟨hmin, hm⟩ := min_first hx (hfirst ▸ hs)
    obtain ⟨M, hmax, hM, hsame⟩ := max_last hx (hlast ▸ hs)
    exact ⟨m, M, L, hmin, hm, hfirst ▸ get_first m rest, hmax, hM, hlast ▸ get_last init L, hsame⟩

/-- `true` and `1` are equal, and greater than `0`. The first of them is the greatest value, and the other one ends the
sorted list. -/
theorem sorted_extremes_of_truth :
    let xs : List Value := [.bool true, .int 0, .int 1]
    let ys : List Value := [.int 0, .bool true, .int 1]
    (∀ x ∈ xs, x.Exact) ∧ Order.AllComparable Value.order xs ∧ call .sorted [.list xs] = .ok (.list ys) ∧
      Order.StableSort Value.order xs ys ∧ call .min [.list xs] = .ok (.int 0) ∧
      call .max [.list xs] = .ok (.bool true) ∧ Index.get (.list ys) (.int (-1)) = .ok (.int 1) := by
  intro xs ys
  have zero : (Value.int 0).Exact := .int (by decide)
  have one : (Value.int 1).Exact := .int (by decide)
  have hx : ∀ x ∈ xs, x.Exact :=
    List.forall_mem_cons.2 ⟨.bool true, List.forall_mem_cons.2 ⟨zero, List.forall_mem_singleton.2 one⟩⟩
  have hsorted : call .sorted [.list xs] = .ok (.list ys) := rfl
  obtain ⟨hreturns, hsorts⟩ := sorted_extremes hx
  obtain ⟨ys', hys, hs, -⟩ := hsorts (.list ys) hsorted
  cases hys
  exact ⟨hx, hreturns.1 ⟨_, hsorted⟩, hsorted, hs, rfl, rfl, rfl⟩

end

end MockSchema.Builtin
