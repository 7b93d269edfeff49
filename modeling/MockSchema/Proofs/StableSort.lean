/-
  MockSchema.Proofs.StableSort — a sort whose comparison may fail is the stable sort, or fails.

  `StableSort cmp xs ys`: the elements of `xs` ascend in `ys`, and those of which none is less than another stand in
  the order in which they came. There is at most one such list, if the comparison is that of a preorder where it
  gives an answer (`Lawful`). The sort returns it (`sort_iff`), and it returns if and only if any two elements at
  different places can be compared (`sort_returns`). It does not look at all of these pairs; for the others it is
  the order that it finds which makes them comparable.

  Turning the comparison round is turning both lists round (`sort_opposite`). A sort that goes on after a failed
  comparison, as if the two were equal, and fails in the end with the first failure has the same outcome
  (`sort_goingOn`).
-/

import Mathlib.Data.List.Basic
import MockSchema.Order.Insertion
import MockSchema.Proofs.Runs

namespace MockSchema.Order

section
variable {α ε : Type} (cmp : α → α → Except ε Ordering)

def Comparable (a b : α) : Prop := ∃ o, cmp a b = .ok o

/-- The first can stand before the second. -/
def AtMost (a b : α) : Prop := ∃ o, cmp a b = .ok o ∧ o ≠ .gt

/-- The second is the first, or the comparison makes them equal. -/
def Tied (k a : α) : Prop := a = k ∨ cmp k a = .ok .eq

open Classical in
/-- What is tied with an element, in the order of the list. -/
noncomputable def ties (k : α) (xs : List α) : List α := xs.filter fun a => Tied cmp k a

/-- Any two elements at different places can be compared. -/
def AllComparable (xs : List α) : Prop :=
  ∀ (i j : Nat) (hi : i < xs.length) (hj : j < xs.length), i ≠ j → Comparable cmp xs[i] xs[j]

/-- The stable sort of a list. -/
structure StableSort (xs ys : List α) : Prop where
  perm : ys.Perm xs
  ascends : ys.Pairwise (AtMost cmp)
  keeps : ∀ p : α → Bool, (∀ a ∈ xs, ∀ b ∈ xs, p a → p b → cmp a b ≠ .ok .lt) → ys.filter p = xs.filter p

/-- Where it gives an answer on these elements, the comparison is that of a preorder. -/
structure Lawful (S : α → Prop) : Prop where
  swap : ∀ {a b o}, S a → S b → cmp a b = .ok o → cmp b a = .ok o.swap
  trans : ∀ {a b c o o'}, S a → S b → S c → cmp a b = .ok o → cmp b c = .ok o' → o ≠ .gt → o' ≠ .gt →
    ∃ r, cmp a c = .ok r ∧ r ≠ .gt ∧ (r = .eq → o = .eq ∧ o' = .eq)

/-- The comparison the other way round. -/
def opposite (a b : α) : Except ε Ordering := (cmp a b).map Ordering.swap

end

section
variable {α ε : Type} {cmp : α → α → Except ε Ordering} {S : α → Prop} {a b c x y : α} {xs ys zs : List α}

/-! ## Comparisons -/

theorem allComparable_iff :
    AllComparable cmp xs ↔ xs.Pairwise fun a b => Comparable cmp a b ∧ Comparable cmp b a := by
  rw [List.pairwise_iff_getElem]
  constructor
  · intro h i j hi hj hij
    exact ⟨h i j hi hj (Nat.ne_of_lt hij), h j i hj hi (Nat.ne_of_gt hij)⟩
  · intro h i j hi hj hij
    rcases Nat.lt_or_gt_of_ne hij with hlt | hlt
    · exact (h i j hi hj hlt).1
    · exact (h j i hj hi hlt).2

theorem opposite_ok {o : Ordering} : opposite cmp a b = .ok o ↔ cmp a b = .ok o.swap := by
  unfold opposite
  cases cmp a b with
  | error e => simp [Except.map]
  | ok r => cases r <;> cases o <;> simp [Except.map]

theorem comparable_opposite : Comparable (opposite cmp) a b ↔ Comparable cmp a b := by
  constructor
  · rintro ⟨o, ho⟩
    exact ⟨_, opposite_ok.1 ho⟩
  · rintro ⟨o, ho⟩
    exact ⟨o.swap, opposite_ok.2 (by rwa [Ordering.swap_swap])⟩

theorem opposite_opposite : opposite (opposite cmp) = cmp := by
  funext a b
  unfold opposite
  cases cmp a b with
  | error e => rfl
  | ok o => simp [Except.map]

namespace Lawful

theorem atMost_swap (hl : Lawful cmp S) (ha : S a) (hb : S b) {o : Ordering} (h : cmp a b = .ok o) (ho : o ≠ .lt) :
    AtMost cmp b a :=
  ⟨o.swap, hl.swap ha hb h, fun hgt => ho (Ordering.swap_eq_gt.1 hgt)⟩

theorem atMost_trans (hl : Lawful cmp S) (ha : S a) (hb : S b) (hc : S c) (h : AtMost cmp a b) (h' : AtMost cmp b c) :
    AtMost cmp a c := by
  obtain ⟨o, hab, ho⟩ := h
  obtain ⟨o', hbc, ho'⟩ := h'
  obtain ⟨r, hac, hr, _⟩ := hl.trans ha hb hc hab hbc ho ho'
  exact ⟨r, hac, hr⟩

theorem comparable_swap (hl : Lawful cmp S) (ha : S a) (hb : S b) (h : Comparable cmp a b) : Comparable cmp b a := by
  obtain ⟨o, ho⟩ := h
  exact ⟨o.swap, hl.swap ha hb ho⟩

/-- Two elements that can stand before each other are tied. -/
theorem tied (hl : Lawful cmp S) (ha : S a) (hb : S b) (h : AtMost cmp a b) (h' : AtMost cmp b a) :
    cmp a b = .ok .eq := by
  obtain ⟨o, hab, ho⟩ := h
  obtain ⟨o', hba, ho'⟩ := h'
  rw [hl.swap ha hb hab] at hba
  cases hba
  cases o with
  | eq => exact hab
  | lt => exact absurd rfl ho'
  | gt => exact absurd rfl ho

theorem not_less (hl : Lawful cmp S) (ha : S a) (hb : S b) (h : AtMost cmp b a) : cmp a b ≠ .ok .lt := by
  obtain ⟨o, hba, ho⟩ := h
  intro hlt
  rw [hl.swap ha hb hlt] at hba
  cases hba
  exact ho rfl

/-- No two of those tied with an element are less than one another. -/
theorem tie_not_less {k : α} (hl : Lawful cmp S) (ha : S a) (hb : S b) (hk : S k) (hka : Tied cmp k a)
    (hkb : Tied cmp k b) : cmp a b ≠ .ok .lt := by
  rcases hka with rfl | hka
  · rcases hkb with rfl | hkb
    · intro hlt
      have hgt := hl.swap hb hb hlt
      rw [hlt] at hgt
      cases hgt
    · rw [hkb]
      nofun
  · have hak : cmp a k = .ok .eq := hl.swap hk ha hka
    rcases hkb with rfl | hkb
    · rw [hak]
      nofun
    · have hbk := hl.atMost_swap hk hb hkb nofun
      exact hl.not_less ha hb (hl.atMost_trans hb hk ha hbk ⟨.eq, hka, nofun⟩)

protected theorem opposite (hl : Lawful cmp S) : Lawful (opposite cmp) S where
  swap ha hb h := by
    rw [opposite_ok] at h ⊢
    exact hl.swap ha hb h
  trans ha hb hc hab hbc ho ho' := by
    rw [opposite_ok] at hab hbc
    have hba := hl.swap ha hb hab
    have hcb := hl.swap hb hc hbc
    rw [Ordering.swap_swap] at hba hcb
    obtain ⟨r, hca, hr, heq⟩ := hl.trans hc hb ha hcb hba ho' ho
    refine ⟨r, opposite_ok.2 (hl.swap hc ha hca), hr, fun h => ?_⟩
    exact (heq h).symm

end Lawful

/-! ## Placing one element -/

/-- What placing comes to before a list of at least one element: on past its first element, which is then greater, or
to its front. -/
theorem place_cases (h : place cmp x (y :: ys) = .ok zs) :
    (cmp x y = .ok .lt ∧ ∃ rest, place cmp x ys = .ok rest ∧ zs = y :: rest) ∨
      ∃ o, cmp x y = .ok o ∧ o ≠ .lt ∧ zs = x :: y :: ys := by
  obtain ⟨o, ho, h⟩ := bind_ok h
  cases o with
  | lt =>
    obtain ⟨rest, hrest, h⟩ := bind_ok h
    cases h
    exact Or.inl ⟨ho, rest, hrest, rfl⟩
  | eq => cases h; exact Or.inr ⟨_, ho, nofun, rfl⟩
  | gt => cases h; exact Or.inr ⟨_, ho, nofun, rfl⟩

theorem place_perm (h : place cmp x ys = .ok zs) : zs.Perm (x :: ys) := by
  induction ys generalizing zs with
  | nil => cases h; exact .refl _
  | cons y ys ih =>
    rcases place_cases h with ⟨_, rest, hrest, rfl⟩ | ⟨_, _, _, rfl⟩
    · exact ((ih hrest).cons y).trans (.swap x y ys)
    · exact .refl _

theorem place_descends (hl : Lawful cmp S) (hx : S x) (hys : ∀ y ∈ ys, S y)
    (hd : ys.Pairwise fun a b => AtMost cmp b a) (h : place cmp x ys = .ok zs) :
    zs.Pairwise fun a b => AtMost cmp b a := by
  induction ys generalizing zs with
  | nil => cases h; exact List.pairwise_singleton _ _
  | cons y ys ih =>
    obtain ⟨hy, hys⟩ := List.forall_mem_cons.1 hys
    obtain ⟨hyd, hd⟩ := List.pairwise_cons.1 hd
    rcases place_cases h with ⟨hlt, rest, hrest, rfl⟩ | ⟨o, ho, hne, rfl⟩
    · refine List.pairwise_cons.2 ⟨fun z hz => ?_, ih hys hd hrest⟩
      rcases List.mem_cons.1 ((place_perm hrest).mem_iff.1 hz) with rfl | hz
      · exact ⟨.lt, hlt, nofun⟩
      · exact hyd z hz
    · have hyx := hl.atMost_swap hx hy ho hne
      refine List.pairwise_cons.2 ⟨List.forall_mem_cons.2 ⟨hyx, fun z hz => ?_⟩, List.pairwise_cons.2 ⟨hyd, hd⟩⟩
      exact hl.atMost_trans (hys z hz) hy hx (hyd z hz) hyx

/-- An element is not moved past one that it is not less than. -/
theorem place_filter {p : α → Bool} (hp : ∀ y ∈ ys, p x → p y → cmp x y ≠ .ok .lt) (h : place cmp x ys = .ok zs) :
    zs.filter p = (x :: ys).filter p := by
  induction ys generalizing zs with
  | nil => cases h; rfl
  | cons y ys ih =>
    obtain ⟨hy, hys⟩ := List.forall_mem_cons.1 hp
    rcases place_cases h with ⟨hlt, rest, hrest, rfl⟩ | ⟨_, _, _, rfl⟩
    · have hrest := ih hys hrest
      by_cases hpx : p x
      · have hpy : ¬ p y := fun hpy => hy hpx hpy hlt
        simp only [List.filter_cons, hpx, hpy, hrest]
        simp
      · simp only [List.filter_cons, hpx, hrest]
        simp
    · rfl

theorem place_returns (h : ∀ y ∈ ys, Comparable cmp x y) : ∃ zs, place cmp x ys = .ok zs := by
  induction ys with
  | nil => exact ⟨[x], rfl⟩
  | cons y ys ih =>
    obtain ⟨⟨o, ho⟩, hys⟩ := List.forall_mem_cons.1 h
    obtain ⟨zs, hzs⟩ := ih hys
    cases o with
    | lt => exact ⟨y :: zs, by simp only [place, ho, ok_bind, hzs]; rfl⟩
    | eq => exact ⟨x :: y :: ys, by simp only [place, ho, ok_bind]; rfl⟩
    | gt => exact ⟨x :: y :: ys, by simp only [place, ho, ok_bind]; rfl⟩

/-! ## Sorting -/

/-- One more element, placed among those that are sorted, which are given last first. -/
theorem StableSort.place (hl : Lawful cmp S) (hxs : ∀ a ∈ xs ++ [x], S a) (h : StableSort cmp xs ys.reverse)
    (hp : Order.place cmp x ys = .ok zs) : StableSort cmp (xs ++ [x]) zs.reverse := by
  have hmem : ∀ y ∈ ys, y ∈ xs := fun y hy => h.perm.mem_iff.1 (List.mem_reverse.2 hy)
  obtain ⟨hxs, hx⟩ := List.forall_mem_append.1 hxs
  refine ⟨?_, ?_, fun p hne => ?_⟩
  · have hys : (x :: ys).Perm (x :: xs) := ((List.reverse_perm ys).symm.trans h.perm).cons x
    exact (List.reverse_perm zs).trans ((place_perm hp).trans (hys.trans (List.perm_append_singleton x xs).symm))
  · rw [List.pairwise_reverse]
    exact place_descends hl (hx x (List.mem_singleton_self x)) (fun y hy => hxs y (hmem y hy))
      (List.pairwise_reverse.1 h.ascends) hp
  · obtain ⟨hne, hnx⟩ := List.forall_mem_append.1 hne
    have hfirst : ys.reverse.filter p = xs.filter p :=
      h.keeps p fun a ha b hb => hne a ha b (List.mem_append_left _ hb)
    have hplaced : zs.filter p = (x :: ys).filter p :=
      place_filter (fun y hy => hnx x (List.mem_singleton_self x) y (List.mem_append_left _ (hmem y hy))) hp
    rw [List.filter_reverse, hplaced, ← List.filter_reverse, List.reverse_cons, List.filter_append, hfirst,
      List.filter_append]

theorem foldlM_place_stable (hl : Lawful cmp S) (hxs : ∀ a ∈ xs ++ ys, S a) {placed : List α}
    (h : StableSort cmp xs placed.reverse) (hf : ys.foldlM (fun sorted x => place cmp x sorted) placed = .ok zs) :
    StableSort cmp (xs ++ ys) zs.reverse := by
  induction ys generalizing xs placed with
  | nil =>
    cases hf
    rwa [List.append_nil]
  | cons y ys ih =>
    rw [List.foldlM_cons] at hf
    obtain ⟨next, hnext, hf⟩ := bind_ok hf
    rw [List.append_cons] at hxs ⊢
    exact ih hxs (h.place hl (List.forall_mem_append.1 hxs).1 hnext) hf

/-- What the sort returns is the stable sort. -/
theorem stableSort_of_sort (hl : Lawful cmp S) (hxs : ∀ x ∈ xs, S x) (h : sort cmp xs = .ok ys) :
    StableSort cmp xs ys := by
  obtain ⟨zs, hf, h⟩ := bind_ok h
  cases h
  have hnil : StableSort cmp ([] : List α) ([] : List α).reverse := ⟨.refl _, .nil, fun _ _ => rfl⟩
  exact foldlM_place_stable hl hxs hnil hf

theorem foldlM_place_returns {placed : List α} (hp : ∀ x ∈ xs, ∀ y ∈ placed, Comparable cmp x y)
    (hxs : xs.Pairwise fun a b => Comparable cmp a b ∧ Comparable cmp b a) :
    ∃ zs, xs.foldlM (fun sorted x => place cmp x sorted) placed = .ok zs := by
  induction xs generalizing placed with
  | nil => exact ⟨placed, rfl⟩
  | cons x xs ih =>
    obtain ⟨hx, hp⟩ := List.forall_mem_cons.1 hp
    obtain ⟨hxx, hxs⟩ := List.pairwise_cons.1 hxs
    obtain ⟨next, hnext⟩ := place_returns hx
    have hnextp : ∀ x ∈ xs, ∀ y ∈ next, Comparable cmp x y := by
      intro z hz y hy
      rcases List.mem_cons.1 ((place_perm hnext).mem_iff.1 hy) with rfl | hy
      · exact (hxx z hz).2
      · exact hp z hz y hy
    obtain ⟨zs, hzs⟩ := ih hnextp hxs
    exact ⟨zs, by rw [List.foldlM_cons, hnext]; exact hzs⟩

/-- What ascends can be compared, each element with each other. -/
theorem StableSort.allComparable (hl : Lawful cmp S) (hxs : ∀ x ∈ xs, S x) (h : StableSort cmp xs ys) :
    AllComparable cmp xs := by
  rw [allComparable_iff]
  have hys : ys.Pairwise fun a b => Comparable cmp a b ∧ Comparable cmp b a :=
    h.ascends.imp_of_mem fun {a b} ha hb hab => by
      obtain ⟨o, ho, _⟩ := hab
      have hSa := hxs a (h.perm.mem_iff.1 ha)
      have hSb := hxs b (h.perm.mem_iff.1 hb)
      exact ⟨⟨o, ho⟩, hl.comparable_swap hSa hSb ⟨o, ho⟩⟩
  exact (h.perm.pairwise_iff fun hab => hab.symm).1 hys

theorem sort_returns (hl : Lawful cmp S) (hxs : ∀ x ∈ xs, S x) :
    (∃ ys, sort cmp xs = .ok ys) ↔ AllComparable cmp xs := by
  constructor
  · rintro ⟨ys, hys⟩
    exact (stableSort_of_sort hl hxs hys).allComparable hl hxs
  · intro h
    have hnil : ∀ x ∈ xs, ∀ y ∈ ([] : List α), Comparable cmp x y := nofun
    obtain ⟨zs, hzs⟩ := foldlM_place_returns hnil (allComparable_iff.1 h)
    exact ⟨zs.reverse, by rw [sort, hzs]; rfl⟩

/-! ## There is one stable sort -/

theorem mem_ties {k : α} : a ∈ ties cmp k xs ↔ a ∈ xs ∧ Tied cmp k a := by
  simp only [ties, List.mem_filter, decide_eq_true_eq]

theorem ties_cons {k : α} (h : Tied cmp k x) : ties cmp k (x :: xs) = x :: ties cmp k xs := by
  rw [ties, List.filter_cons_of_pos (by simpa using h), ties]

theorem ties_cons_of_not {k : α} (h : ¬ Tied cmp k x) : ties cmp k (x :: xs) = ties cmp k xs := by
  rw [ties, List.filter_cons_of_neg (by simpa using h), ties]

theorem ties_append {k : α} : ties cmp k (xs ++ ys) = ties cmp k xs ++ ties cmp k ys := List.filter_append xs ys

/-- Lists of the same elements that ascend are the same, if they have the elements of each tie in the same order. -/
theorem eq_of_ties (hl : Lawful cmp S) (hys : ∀ y ∈ ys, S y) (hperm : ys.Perm zs) (hy : ys.Pairwise (AtMost cmp))
    (hz : zs.Pairwise (AtMost cmp)) (hties : ∀ k ∈ ys, ties cmp k ys = ties cmp k zs) : ys = zs := by
  induction ys generalizing zs with
  | nil => exact hperm.nil_eq
  | cons y ys ih =>
    cases zs with
    | nil => exact absurd hperm.symm.nil_eq (List.cons_ne_nil y ys).symm
    | cons z zs =>
      obtain ⟨hSy, hSys⟩ := List.forall_mem_cons.1 hys
      obtain ⟨hyl, hyt⟩ := List.pairwise_cons.1 hy
      obtain ⟨hzl, hzt⟩ := List.pairwise_cons.1 hz
      have htied : Tied cmp y z := by
        rcases List.mem_cons.1 (hperm.mem_iff.2 List.mem_cons_self) with rfl | hzy
        · exact Or.inl rfl
        rcases List.mem_cons.1 (hperm.mem_iff.1 List.mem_cons_self) with rfl | hyz
        · exact Or.inl rfl
        · exact Or.inr (hl.tied hSy (hSys z hzy) (hyl z hzy) (hzl y hyz))
      obtain ⟨hfirst, hties⟩ := List.forall_mem_cons.1 hties
      rw [ties_cons (Or.inl rfl), ties_cons htied] at hfirst
      cases (List.cons.inj hfirst).1
      refine congrArg (y :: ·) (ih hSys ((List.perm_cons y).1 hperm) hyt hzt fun k hk => ?_)
      have h := hties k hk
      by_cases hky : Tied cmp k y
      · rw [ties_cons hky, ties_cons hky] at h
        exact (List.cons.inj h).2
      · rwa [ties_cons_of_not hky, ties_cons_of_not hky] at h

theorem StableSort.keeps_ties (hl : Lawful cmp S) (hxs : ∀ x ∈ xs, S x) (h : StableSort cmp xs ys) {k : α}
    (hk : k ∈ xs) : ties cmp k ys = ties cmp k xs := by
  refine h.keeps _ fun a ha b hb hka hkb => ?_
  simp only [decide_eq_true_eq] at hka hkb
  exact hl.tie_not_less (hxs a ha) (hxs b hb) (hxs k hk) hka hkb

theorem StableSort.unique (hl : Lawful cmp S) (hxs : ∀ x ∈ xs, S x) (h : StableSort cmp xs ys)
    (h' : StableSort cmp xs zs) : ys = zs := by
  have hmem : ∀ y ∈ ys, y ∈ xs := fun y hy => h.perm.mem_iff.1 hy
  refine eq_of_ties hl (fun y hy => hxs y (hmem y hy)) (h.perm.trans h'.perm.symm) h.ascends h'.ascends fun k hk => ?_
  exact (h.keeps_ties hl hxs (hmem k hk)).trans (h'.keeps_ties hl hxs (hmem k hk)).symm

/-- The sort returns the stable sort, whenever there is one. -/
theorem sort_iff (hl : Lawful cmp S) (hxs : ∀ x ∈ xs, S x) : sort cmp xs = .ok ys ↔ StableSort cmp xs ys := by
  refine ⟨stableSort_of_sort hl hxs, fun h => ?_⟩
  obtain ⟨zs, hzs⟩ := (sort_returns hl hxs).2 (h.allComparable hl hxs)
  rw [hzs, h.unique hl hxs (stableSort_of_sort hl hxs hzs)]

/-! ## The comparison turned round -/

theorem StableSort.opposite (hl : Lawful cmp S) (hxs : ∀ x ∈ xs, S x) (h : StableSort cmp xs ys) :
    StableSort (opposite cmp) xs.reverse ys.reverse := by
  refine ⟨?_, ?_, fun p hne => ?_⟩
  · exact (List.reverse_perm ys).trans (h.perm.trans (List.reverse_perm xs).symm)
  · rw [List.pairwise_reverse]
    refine h.ascends.imp_of_mem fun {a b} ha hb hab => ?_
    obtain ⟨o, hab, ho⟩ := hab
    have hba := hl.swap (hxs a (h.perm.mem_iff.1 ha)) (hxs b (h.perm.mem_iff.1 hb)) hab
    exact ⟨o, opposite_ok.2 hba, ho⟩
  · rw [List.filter_reverse, List.filter_reverse, h.keeps p fun a ha b hb hpa hpb hlt => ?_]
    have hgt := hl.swap (hxs a ha) (hxs b hb) hlt
    exact hne b (List.mem_reverse.2 hb) a (List.mem_reverse.2 ha) hpb hpa (opposite_ok.2 hgt)

/-- Sorting the other way round is sorting the list from its end, and turning the result round. -/
theorem sort_opposite (hl : Lawful cmp S) (hxs : ∀ x ∈ xs, S x) :
    sort (opposite cmp) xs = .ok ys ↔ sort cmp xs.reverse = .ok ys.reverse := by
  have hxsr : ∀ x ∈ xs.reverse, S x := fun x hx => hxs x (List.mem_reverse.1 hx)
  rw [sort_iff hl.opposite hxs, sort_iff hl hxsr]
  constructor
  · intro h
    have hr := h.opposite hl.opposite hxs
    rwa [opposite_opposite] at hr
  · intro h
    have hr := h.opposite hl hxsr
    rwa [List.reverse_reverse, List.reverse_reverse] at hr

end

/-! ## Going on after a failure -/

section
variable {α ε : Type} (cmp : α → α → Except ε Ordering)

/-- Place an element where two that cannot be compared count as equal; the first failure is noted. -/
def placeOn (x : α) : List α → Option ε → List α × Option ε
  | [], note => ([x], note)
  | y :: ys, note =>
    match cmp x y with
    | .ok .lt =>
      let (zs, note) := placeOn x ys note
      (y :: zs, note)
    | .ok _ => (x :: y :: ys, note)
    | .error e => (x :: y :: ys, note <|> some e)

/-- Sort on through failed comparisons, and fail in the end if there was one. -/
def sortOn (xs : List α) : Except ε (List α) :=
  match xs.foldl (fun sorted x => placeOn cmp x sorted.1 sorted.2) ([], none) with
  | (ys, none) => .ok ys.reverse
  | (_, some e) => .error e

/-- What was placed with a note is what was placed, or the note is of the failure. -/
def Noted (r : Except ε (List α)) (s : List α × Option ε) : Prop :=
  match r with
  | .ok ys => s = (ys, none)
  | .error e => s.2 = some e

theorem place_noted (x : α) (ys : List α) : Noted (place cmp x ys) (placeOn cmp x ys none) := by
  induction ys with
  | nil => rfl
  | cons y ys ih =>
    unfold place placeOn
    cases cmp x y with
    | error e => rfl
    | ok o =>
      cases o with
      | lt =>
        show Noted (place cmp x ys >>= fun zs => .ok (y :: zs)) _
        cases h : place cmp x ys with
        | error e =>
          rw [h] at ih
          exact ih
        | ok zs =>
          rw [h] at ih
          have ih : placeOn cmp x ys none = (zs, none) := ih
          simp only [ih]
          rfl
      | eq => rfl
      | gt => rfl

theorem placeOn_failed (x : α) (ys : List α) (e : ε) : (placeOn cmp x ys (some e)).2 = some e := by
  induction ys with
  | nil => rfl
  | cons y ys ih =>
    unfold placeOn
    split
    · exact ih
    · rfl
    · rfl

theorem foldl_failed (xs : List α) {s : List α × Option ε} {e : ε} (h : s.2 = some e) :
    (xs.foldl (fun sorted x => placeOn cmp x sorted.1 sorted.2) s).2 = some e := by
  induction xs generalizing s with
  | nil => exact h
  | cons x xs ih =>
    refine ih ?_
    dsimp only
    rw [h]
    exact placeOn_failed cmp x s.1 e

theorem foldl_noted (xs placed : List α) :
    Noted (xs.foldlM (fun sorted x => place cmp x sorted) placed)
      (xs.foldl (fun sorted x => placeOn cmp x sorted.1 sorted.2) (placed, none)) := by
  induction xs generalizing placed with
  | nil => rfl
  | cons x xs ih =>
    have hnoted := place_noted cmp x placed
    rw [List.foldlM_cons, List.foldl_cons]
    cases h : place cmp x placed with
    | error e =>
      rw [h] at hnoted
      exact foldl_failed cmp xs hnoted
    | ok next =>
      rw [h] at hnoted
      have hnoted : placeOn cmp x placed none = (next, none) := hnoted
      rw [hnoted]
      exact ih next

/-- To go on after a failed comparison, as if the two were equal, makes no difference to the outcome. -/
theorem sort_goingOn (xs : List α) : sortOn cmp xs = sort cmp xs := by
  have hnoted := foldl_noted cmp xs []
  unfold sortOn sort
  cases h : xs.foldlM (fun sorted x => place cmp x sorted) [] with
  | error e =>
    rw [h] at hnoted
    generalize xs.foldl (fun sorted x => placeOn cmp x sorted.1 sorted.2) ([], none) = s at hnoted
    obtain ⟨ys, note⟩ := s
    have hnoted : note = some e := hnoted
    subst hnoted
    rfl
  | ok zs =>
    rw [h] at hnoted
    have hnoted : xs.foldl (fun sorted x => placeOn cmp x sorted.1 sorted.2) ([], none) = (zs, none) := hnoted
    rw [hnoted]
    rfl

end

end MockSchema.Order
