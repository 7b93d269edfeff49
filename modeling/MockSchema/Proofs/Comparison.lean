/-
  MockSchema.Proofs.Comparison — equality and order of values without floats obey the laws of an order.

  `Equal` and `Ranks` say by rules which values are equal and how two of them are ordered; where there is no float
  (`Exact`), `same` and `order` decide just that (`same_iff`, `order_iff`). By the rules, equal objects have the
  same keys, so equality reads alike from both sides; that as many fields, each of them in the other, come to
  the same is shown once (`keys_perm`). Lists are ordered by their first elements that are not equal. The pairs
  before them are passed over, also those that could not be ordered, such as two nulls.

  Equality is an equivalence that no order of keys disturbs, the order is blind to what is equal, and where it
  gives an answer it is that of a preorder whose ties are the equal values (`comparison_lawful`).
-/

import Mathlib.Data.List.Perm.Subperm
import MockSchema.Proofs.KeyOrder
import MockSchema.Proofs.StableSort
import MockSchema.Value.Order

namespace MockSchema.Value

/-- There is no float in it, no integer that counts as one, and no key twice in an object. -/
inductive Exact : Value → Prop
  | null : Exact .null
  | bool (b : Bool) : Exact (.bool b)
  | int {n : Int} : InRange n → Exact (.int n)
  | str (s : String) : Exact (.str s)
  | list {xs : List Value} : (∀ x ∈ xs, Exact x) → Exact (.list xs)
  | object {fields : Dict Value} :
      (Dict.keys fields).Nodup → (∀ kv ∈ fields, Exact kv.2) → Exact (.object fields)

/-- The values that are equal. -/
inductive Equal : Value → Value → Prop
  | null : Equal .null .null
  | number {a b : Value} {n : Int} : a.int? = some n → b.int? = some n → Equal a b
  | str (s : String) : Equal (.str s) (.str s)
  | nil : Equal (.list []) (.list [])
  | cons {x y : Value} {xs ys : List Value} :
      Equal x y → Equal (.list xs) (.list ys) → Equal (.list (x :: xs)) (.list (y :: ys))
  | object {f g : Dict Value} : (Dict.keys f).Perm (Dict.keys g) →
      (∀ key v w, Dict.get? f key = some v → Dict.get? g key = some w → Equal v w) → Equal (.object f) (.object g)

/-- How values are ordered, as far as they are. -/
inductive Ranks : Value → Value → Ordering → Prop
  | number {a b : Value} {m n : Int} : a.int? = some m → b.int? = some n → Ranks a b (compare m n)
  | str (s t : String) : Ranks (.str s) (.str t) (compare s t)
  | nil : Ranks (.list []) (.list []) .eq
  | shorter (y : Value) (ys : List Value) : Ranks (.list []) (.list (y :: ys)) .lt
  | longer (x : Value) (xs : List Value) : Ranks (.list (x :: xs)) (.list []) .gt
  | pass {x y : Value} {xs ys : List Value} {o : Ordering} :
      Equal x y → Ranks (.list xs) (.list ys) o → Ranks (.list (x :: xs)) (.list (y :: ys)) o
  | decide {x y : Value} {o : Ordering} (xs ys : List Value) :
      ¬ Equal x y → Ranks x y o → Ranks (.list (x :: xs)) (.list (y :: ys)) o

section
variable {a b c : Value} {x y : Value} {xs ys : List Value} {m n : Int}

theorem Exact.num?_eq_none (h : Exact a) (hn : a.int? = none) : a.num? = none := by
  cases h with
  | bool b => cases hn
  | int hr => rw [int?_int hr] at hn; cases hn
  | _ => rfl

/-! ## Equal values -/

theorem Equal.number_iff (ha : a.int? = some n) : Equal a b ↔ b.int? = some n := by
  constructor
  · intro h
    cases h with
    | number ha' hb => rw [← ha, ha', hb]
    | _ => cases ha
  · exact .number ha

theorem Equal.str_inv {s : String} (h : Equal (.str s) b) : b = .str s := by
  cases h with
  | number hn _ => cases hn
  | str s => rfl

theorem Equal.nil_inv (h : Equal (.list []) b) : b = .list [] := by
  cases h with
  | number hn _ => cases hn
  | nil => rfl

theorem Equal.cons_inv (h : Equal (.list (x :: xs)) b) :
    ∃ y ys, b = .list (y :: ys) ∧ Equal x y ∧ Equal (.list xs) (.list ys) := by
  cases h with
  | number hn _ => cases hn
  | cons h hs => exact ⟨_, _, rfl, h, hs⟩

theorem Equal.cons_iff : Equal (.list (x :: xs)) (.list (y :: ys)) ↔ Equal x y ∧ Equal (.list xs) (.list ys) := by
  constructor
  · intro h
    obtain ⟨_, _, hb, h, hs⟩ := h.cons_inv
    cases hb
    exact ⟨h, hs⟩
  · intro h
    exact .cons h.1 h.2

theorem Equal.symm (h : Equal a b) : Equal b a := by
  induction h with
  | null => exact .null
  | number ha hb => exact .number hb ha
  | str s => exact .str s
  | nil => exact .nil
  | cons _ _ ih ihs => exact .cons ih ihs
  | object hkeys _ ih => exact .object hkeys.symm fun key v w hv hw => ih key w v hw hv

theorem Equal.trans (h : Equal a b) (h' : Equal b c) : Equal a c := by
  induction h generalizing c with
  | null => exact h'
  | number ha hb => exact .number ha ((number_iff hb).1 h')
  | str s => exact h'
  | nil => exact h'
  | cons _ _ ih ihs =>
    obtain ⟨z, zs, rfl, h, hs⟩ := h'.cons_inv
    exact .cons (ih h) (ihs hs)
  | object hkeys _ ih =>
    cases h' with
    | number hn _ => cases hn
    | object hkeys' hvals =>
      refine .object (hkeys.trans hkeys') fun key v w hv hw => ?_
      obtain ⟨u, hu⟩ := Dict.mem_keys_iff.1 (hkeys.mem_iff.1 (Dict.mem_keys_of_get? hv))
      exact ih key v u hv hu (hvals key u w hu hw)

theorem Equal.list (hlen : xs.length = ys.length)
    (h : ∀ (i : Nat) (x y : Value), xs[i]? = some x → ys[i]? = some y → Equal x y) : Equal (.list xs) (.list ys) := by
  induction xs generalizing ys with
  | nil =>
    cases List.eq_nil_of_length_eq_zero hlen.symm
    exact .nil
  | cons x xs ih =>
    obtain ⟨y, ys, rfl⟩ := List.exists_cons_of_length_eq_add_one hlen.symm
    exact .cons (h 0 x y rfl rfl) (ih (Nat.succ.inj hlen) fun i => h (i + 1))

/-- A value is equal to itself, and to what differs from it in the order of keys. -/
theorem Exact.equal (ha : Exact a) (h : Reordered a b) : Equal a b := by
  induction ha generalizing b with
  | null => cases h; exact .null
  | bool x => cases h; exact .number rfl rfl
  | int hn => cases h; exact .number (int?_int hn) (int?_int hn)
  | str s => cases h; exact .str s
  | list _ ih =>
    cases h with
    | list hlen hall => exact .list hlen fun i x y hx hy => ih x (List.mem_of_getElem? hx) (hall i x y hx hy)
  | object _ _ ih =>
    cases h with
    | object hkeys hvals =>
      exact .object hkeys fun key v w hv hw => ih (key, v) (Dict.mem_of_get? hv) (hvals key v w hv hw)

/-! ## Deciding equality -/

theorem same_num {p : Num} (ha : a.num? = some p) :
    same a b = match b.num? with
      | some q => p.same q
      | none => false := by
  rw [same, ha]
  · cases b.num? <;> rfl
  all_goals
    intros
    subst_vars
    cases ha

theorem same_number (ha : a.int? = some m) (hb : b.int? = some n) : same a b = (m == n) := by
  rw [same_num (num?_of_int? ha), num?_of_int? hb]
  rfl

theorem sameFields_iff {f g : Dict Value} :
    sameFields f g = true ↔ ∀ kv ∈ f, ∃ w, Dict.get? g kv.1 = some w ∧ same kv.2 w = true := by
  induction f with
  | nil => simp [sameFields]
  | cons kv f ih =>
    simp only [sameFields, Bool.and_eq_true, ih, List.forall_mem_cons]
    cases Dict.get? g kv.1 <;> simp

/-- As many fields, and each of them in the other object: the same keys. -/
theorem keys_perm {f g : Dict Value} (hn : (Dict.keys f).Nodup) (hlen : f.length = g.length)
    (h : ∀ key ∈ Dict.keys f, key ∈ Dict.keys g) : (Dict.keys f).Perm (Dict.keys g) := by
  have hle : (Dict.keys g).length ≤ (Dict.keys f).length := by
    simp only [Dict.keys, List.length_map, hlen, Nat.le_refl]
  exact (List.subperm_of_subset hn h).perm_of_length_le hle

theorem same_of_equal (ha : Exact a) (h : Equal a b) : same a b = true := by
  induction h with
  | null => rfl
  | number hm hn => rw [same_number hm hn, BEq.rfl]
  | str s => rw [same, BEq.rfl]
  | nil => rfl
  | cons _ _ ih ihs =>
    cases ha with
    | list ha =>
      obtain ⟨hx, hxs⟩ := List.forall_mem_cons.1 ha
      simp only [same, sameAll, ih hx, Bool.true_and]
      exact ihs (.list hxs)
  | @object f g hkeys _ ih =>
    cases ha with
    | object hn ha =>
      have hlen : f.length = g.length := by simpa only [Dict.keys, List.length_map] using hkeys.length_eq
      simp only [same, hlen, BEq.rfl, Bool.true_and, sameFields_iff]
      intro kv hkv
      obtain ⟨w, hw⟩ := Dict.mem_keys_iff.1 (hkeys.mem_iff.1 (List.mem_map_of_mem hkv))
      exact ⟨w, hw, ih kv.1 kv.2 w ((Dict.mem_iff_get? hn).1 hkv) hw (ha kv hkv)⟩

theorem equal_of_same_number (ha : a.int? = some m) (hb : Exact b) (h : same a b = true) : Equal a b := by
  cases hn : b.int? with
  | some n =>
    rw [same_number ha hn, beq_iff_eq] at h
    exact .number ha (h ▸ hn)
  | none =>
    rw [same_num (num?_of_int? ha), hb.num?_eq_none hn] at h
    cases h

theorem equal_of_sameAll (ih : ∀ x ∈ xs, ∀ {y}, Exact y → same x y = true → Equal x y) (hys : ∀ y ∈ ys, Exact y)
    (h : sameAll xs ys = true) : Equal (.list xs) (.list ys) := by
  induction xs generalizing ys with
  | nil => cases ys <;> first | exact .nil | cases h
  | cons x xs ihs =>
    cases ys with
    | nil => cases h
    | cons y ys =>
      obtain ⟨hx, hxs⟩ := Bool.and_eq_true_iff.1 h
      obtain ⟨hy, hys⟩ := List.forall_mem_cons.1 hys
      obtain ⟨ih, ihxs⟩ := List.forall_mem_cons.1 ih
      exact .cons (ih hy hx) (ihs ihxs hys hxs)

theorem equal_of_same (ha : Exact a) (hb : Exact b) (h : same a b = true) : Equal a b := by
  induction ha generalizing b with
  | null => cases hb <;> first | exact .null | cases h
  | bool x => exact equal_of_same_number rfl hb h
  | int hn => exact equal_of_same_number (int?_int hn) hb h
  | str s =>
    cases hb with
    | str t => cases eq_of_beq h; exact .str s
    | _ => cases h
  | list _ ih =>
    cases hb with
    | list hb => exact equal_of_sameAll (fun x hx _ => ih x hx) hb h
    | _ => cases h
  | object hn _ ih =>
    cases hb with
    | object _ hb =>
      rw [same, Bool.and_eq_true, beq_iff_eq, sameFields_iff] at h
      obtain ⟨hlen, h⟩ := h
      refine .object (keys_perm hn hlen fun key hkey => ?_) fun key v w hv hw => ?_
      · obtain ⟨kv, hkv, rfl⟩ := List.mem_map.1 hkey
        obtain ⟨w, hw, _⟩ := h kv hkv
        exact Dict.mem_keys_of_get? hw
      · obtain ⟨w', hw', hsame⟩ := h (key, v) (Dict.mem_of_get? hv)
        rw [hw] at hw'
        cases hw'
        exact ih (key, v) (Dict.mem_of_get? hv) (hb (key, w) (Dict.mem_of_get? hw)) hsame
    | _ => cases h

theorem same_iff (ha : Exact a) (hb : Exact b) : same a b = true ↔ Equal a b :=
  ⟨equal_of_same ha hb, same_of_equal ha⟩

theorem Exact.same_self (ha : Exact a) : same a a = true := same_of_equal ha (ha.equal (.refl a))

end

/-! ## The order -/

/-- Two steps upwards are a step upwards, which leads nowhere only if both do. -/
theorem compare_trans {α : Type} [Ord α] [Std.TransOrd α] [Std.LawfulEqOrd α] {r s t : α}
    (h : compare r s ≠ .gt) (h' : compare s t ≠ .gt) :
    compare r t ≠ .gt ∧ (compare r t = .eq → compare r s = .eq ∧ compare s t = .eq) := by
  have hrs := Ordering.isLE_iff_ne_gt.2 h
  have hst := Ordering.isLE_iff_ne_gt.2 h'
  refine ⟨Ordering.isLE_iff_ne_gt.1 (Std.TransCmp.isLE_trans hrs hst), fun he => ?_⟩
  cases Std.LawfulEqCmp.eq_of_compare he
  have hst : compare s r = .eq := Std.OrientedCmp.isLE_antisymm hst hrs
  cases Std.LawfulEqCmp.eq_of_compare hst
  exact ⟨hst, hst⟩

section
variable {a b c : Value} {o o' : Ordering} {m n : Int}

theorem Ranks.number_inv (h : Ranks a b o) (ha : a.int? = some m) : ∃ n, b.int? = some n ∧ o = compare m n := by
  cases h with
  | number ha' hb =>
    rw [ha] at ha'
    cases ha'
    exact ⟨_, hb, rfl⟩
  | _ => cases ha

theorem Ranks.swap (h : Ranks a b o) : Ranks b a o.swap := by
  induction h with
  | number ha hb =>
    rw [← Std.OrientedCmp.eq_swap]
    exact .number hb ha
  | str s t =>
    rw [← Std.OrientedCmp.eq_swap]
    exact .str t s
  | nil => exact .nil
  | shorter y ys => exact .longer y ys
  | longer x xs => exact .shorter x xs
  | pass hxy _ ih => exact .pass hxy.symm ih
  | decide xs ys hne _ ih => exact .decide ys xs (fun h => hne h.symm) ih

theorem Ranks.eq_iff (h : Ranks a b o) : o = .eq ↔ Equal a b := by
  induction h with
  | number ha hb => rw [Std.LawfulEqCmp.compare_eq_iff_eq, Equal.number_iff ha, hb, Option.some.injEq, eq_comm]
  | str s t =>
    rw [Std.LawfulEqCmp.compare_eq_iff_eq]
    constructor
    · intro h
      exact h ▸ .str s
    · intro h
      cases h.str_inv
      rfl
  | nil => exact iff_of_true rfl .nil
  | shorter y ys => exact iff_of_false nofun fun h => nomatch h.nil_inv
  | longer x xs => exact iff_of_false nofun fun h => nomatch h.symm.nil_inv
  | pass hxy _ ih => rw [ih, Equal.cons_iff, and_iff_right hxy]
  | decide xs ys hne _ ih => exact iff_of_false (fun h => hne (ih.1 h)) fun h => hne (Equal.cons_iff.1 h).1

/-- Equal values are ordered alike. -/
theorem Ranks.congr (h : Ranks a c o) (hab : Equal a b) : Ranks b c o := by
  induction h generalizing b with
  | number ha hc => exact .number ((Equal.number_iff ha).1 hab) hc
  | str s t =>
    cases hab.str_inv
    exact .str s t
  | nil =>
    cases hab.nil_inv
    exact .nil
  | shorter y ys =>
    cases hab.nil_inv
    exact .shorter y ys
  | longer x xs =>
    obtain ⟨_, _, rfl, _, _⟩ := hab.cons_inv
    exact .longer _ _
  | pass hxy _ ih =>
    obtain ⟨_, _, rfl, hx, hxs⟩ := hab.cons_inv
    exact .pass (hx.symm.trans hxy) (ih hxs)
  | decide xs ys hne _ ih =>
    obtain ⟨_, _, rfl, hx, _⟩ := hab.cons_inv
    exact .decide _ _ (fun h => hne (hx.trans h)) (ih hx)

theorem Ranks.congr_right (h : Ranks a b o) (hbc : Equal b c) : Ranks a c o := by
  have hswap := (h.swap.congr hbc).swap
  rwa [Ordering.swap_swap] at hswap

/-- By induction on the first step. A pair that is passed over in one step and decides the other decides both. -/
theorem Ranks.trans (h : Ranks a b o) (h' : Ranks b c o') (ho : o ≠ .gt) (ho' : o' ≠ .gt) :
    ∃ r, Ranks a c r ∧ r ≠ .gt ∧ (r = .eq → o = .eq ∧ o' = .eq) := by
  induction h generalizing c o' with
  | number ha hb =>
    obtain ⟨k, hc, rfl⟩ := h'.number_inv hb
    exact ⟨_, .number ha hc, compare_trans ho ho'⟩
  | str s t =>
    cases h' with
    | number hn _ => cases hn
    | str _ u => exact ⟨_, .str s u, compare_trans ho ho'⟩
  | nil =>
    refine ⟨o', h', ho', fun he => ⟨rfl, he⟩⟩
  | shorter y ys =>
    cases h' with
    | number hn _ => cases hn
    | longer => exact absurd rfl ho'
    | pass _ _ => exact ⟨.lt, .shorter _ _, nofun, nofun⟩
    | decide _ _ _ _ => exact ⟨.lt, .shorter _ _, nofun, nofun⟩
  | longer x xs => exact absurd rfl ho
  | pass hxy _ ih =>
    cases h' with
    | number hn _ => cases hn
    | longer => exact absurd rfl ho'
    | pass hyz hs =>
      obtain ⟨r, hr, h⟩ := ih hs ho ho'
      exact ⟨r, .pass (hxy.trans hyz) hr, h⟩
    | decide _ _ hne hyz =>
      have hxz := hyz.congr hxy.symm
      exact ⟨o', .decide _ _ (fun h => hne (hxy.symm.trans h)) hxz, ho', fun he => absurd (hyz.eq_iff.1 he) hne⟩
  | decide xs ys hne hxy ih =>
    cases h' with
    | number hn _ => cases hn
    | longer => exact absurd rfl ho'
    | pass hyz _ =>
      have hxz := hxy.congr_right hyz
      exact ⟨_, .decide _ _ (fun h => hne (h.trans hyz.symm)) hxz, ho, fun he => absurd (hxy.eq_iff.1 he) hne⟩
    | decide _ _ _ hyz =>
      obtain ⟨r, hxz, hr, heq⟩ := ih hyz ho ho'
      have hne' : ¬ Equal _ _ := fun h => hne (hxy.eq_iff.1 (heq (hxz.eq_iff.2 h)).1)
      exact ⟨r, .decide _ _ hne' hxz, hr, heq⟩

/-! ## Deciding the order -/

theorem order_num {p : Num} (ha : a.num? = some p) :
    order a b = match b.num? with
      | some q => .ok (p.order q)
      | none => .error (.unordered "<" a.typeName b.typeName) := by
  rw [order, ha]
  · cases b.num? <;> rfl
  all_goals
    intros
    subst_vars
    cases ha

theorem order_number (ha : a.int? = some m) (hb : b.int? = some n) : order a b = .ok (compare m n) := by
  rw [order_num (num?_of_int? ha), num?_of_int? hb]
  rfl

theorem order_of_ranks (ha : Exact a) (hb : Exact b) (h : Ranks a b o) : order a b = .ok o := by
  induction h with
  | number hm hn => exact order_number hm hn
  | str s t => rfl
  | nil => rfl
  | shorter y ys => rfl
  | longer x xs => rfl
  | pass hxy _ ih =>
    cases ha with
    | list ha =>
      cases hb with
      | list hb =>
        obtain ⟨hx, hxs⟩ := List.forall_mem_cons.1 ha
        rw [order, orderAll, if_pos (same_of_equal hx hxy)]
        exact ih (.list hxs) (.list (List.forall_mem_cons.1 hb).2)
  | decide xs ys hne _ ih =>
    cases ha with
    | list ha =>
      cases hb with
      | list hb =>
        have hx := (List.forall_mem_cons.1 ha).1
        have hy := (List.forall_mem_cons.1 hb).1
        rw [order, orderAll, if_neg fun h => hne (equal_of_same hx hy h)]
        exact ih hx hy

theorem ranks_of_order_number (ha : a.int? = some m) (hb : Exact b) (h : order a b = .ok o) : Ranks a b o := by
  cases hn : b.int? with
  | some n =>
    rw [order_number ha hn] at h
    cases h
    exact .number ha hn
  | none =>
    rw [order_num (num?_of_int? ha), hb.num?_eq_none hn] at h
    cases h

theorem ranks_of_orderAll {xs ys : List Value} (hxs : ∀ x ∈ xs, Exact x)
    (ih : ∀ x ∈ xs, ∀ {y o}, Exact y → order x y = .ok o → Ranks x y o) (hys : ∀ y ∈ ys, Exact y)
    (h : orderAll xs ys = .ok o) : Ranks (.list xs) (.list ys) o := by
  induction xs generalizing ys with
  | nil =>
    cases ys with
    | nil => cases h; exact .nil
    | cons y ys => cases h; exact .shorter y ys
  | cons x xs ihs =>
    cases ys with
    | nil => cases h; exact .longer x xs
    | cons y ys =>
      obtain ⟨hx, hxs⟩ := List.forall_mem_cons.1 hxs
      obtain ⟨hy, hys⟩ := List.forall_mem_cons.1 hys
      obtain ⟨ih, ihxs⟩ := List.forall_mem_cons.1 ih
      rw [orderAll] at h
      split at h
      · rename_i hsame
        exact .pass (equal_of_same hx hy hsame) (ihs hxs ihxs hys h)
      · rename_i hne
        exact .decide xs ys (fun he => hne (same_of_equal hx he)) (ih hy h)

theorem ranks_of_order (ha : Exact a) (hb : Exact b) (h : order a b = .ok o) : Ranks a b o := by
  induction ha generalizing b o with
  | bool x => exact ranks_of_order_number rfl hb h
  | int hn => exact ranks_of_order_number (int?_int hn) hb h
  | str s =>
    cases hb with
    | str t => cases h; exact .str s t
    | _ => cases h
  | list ha ih =>
    cases hb with
    | list hb => exact ranks_of_orderAll ha (fun x hx _ _ => ih x hx) hb h
    | _ => cases h
  | null => cases hb <;> cases h
  | object _ _ _ => cases hb <;> cases h

theorem order_iff (ha : Exact a) (hb : Exact b) : order a b = .ok o ↔ Ranks a b o :=
  ⟨ranks_of_order ha hb, order_of_ranks ha hb⟩

/-- So values without floats can be sorted. -/
theorem order_lawful : Order.Lawful order Exact where
  swap ha hb h := (order_iff hb ha).2 ((order_iff ha hb).1 h).swap
  trans ha hb hc hab hbc ho ho' := by
    obtain ⟨r, hac, hr⟩ := ((order_iff ha hb).1 hab).trans ((order_iff hb hc).1 hbc) ho ho'
    exact ⟨r, (order_iff ha hc).2 hac, hr⟩

theorem order_eq_iff (ha : Exact a) (hb : Exact b) (h : order a b = .ok o) : o = .eq ↔ same a b = true := by
  rw [same_iff ha hb]
  exact ((order_iff ha hb).1 h).eq_iff

/-- Of two values that equal a third, neither is less. -/
theorem not_less_of_same {k : Value} (hk : Exact k) (ha : Exact a) (hb : Exact b) (hka : same k a = true)
    (hkb : same k b = true) : order a b ≠ .ok .lt := by
  intro hlt
  rw [same_iff hk ha] at hka
  rw [same_iff hk hb] at hkb
  cases ((order_iff ha hb).1 hlt).eq_iff.2 (hka.symm.trans hkb)

/-- Values without floats are compared lawfully. Equality is an equivalence, whatever the order of keys. Comparing the
other way round gives the mirror image or fails as well, a tie is an equality, equal values stand alike to
every other, and what is not greater than what is not greater is not greater, and tied only if all are. -/
theorem comparison_lawful (ha : Exact a) (hb : Exact b) (hc : Exact c) :
    same a a = true ∧ (∀ v, Reordered a v → same a v = true) ∧ (same a b = true ↔ same b a = true) ∧
    (same a b = true → same b c = true → same a c = true) ∧
    (∀ o, order a b = .ok o ↔ order b a = .ok o.swap) ∧
    (∀ o, order a b = .ok o → (o = .eq ↔ same a b = true)) ∧
    (same a b = true → ∀ o, (order a c = .ok o ↔ order b c = .ok o) ∧ (order c a = .ok o ↔ order c b = .ok o)) ∧
    (∀ o o', order a b = .ok o → order b c = .ok o' → o ≠ .gt → o' ≠ .gt →
      ∃ r, order a c = .ok r ∧ r ≠ .gt ∧ (r = .eq → o = .eq ∧ o' = .eq)) := by
  rw [same_iff ha hb, same_iff hb ha, same_iff hb hc, same_iff ha hc]
  simp only [order_iff ha hb, order_iff hb ha, order_iff ha hc, order_iff hb hc, order_iff hc ha, order_iff hc hb]
  refine ⟨ha.same_self, fun v hv => same_of_equal ha (ha.equal hv), ⟨.symm, .symm⟩, .trans,
    fun o => ⟨.swap, fun h => ?_⟩, fun o h => h.eq_iff, fun hab o => ⟨?_, ?_⟩, fun o o' h h' => h.trans h'⟩
  · have hswap := h.swap
    rwa [Ordering.swap_swap] at hswap
  · exact ⟨fun h => h.congr hab, fun h => h.congr hab.symm⟩
  · exact ⟨fun h => h.congr_right hab, fun h => h.congr_right hab.symm⟩

/-- Two objects that differ in the order of their keys are passed over, though objects are not ordered, and then `true`
stands to two as one does. -/
theorem comparison_lawful_past_objects :
    let a : Value := .list [.object [("x", .int 1), ("y", .null)], .bool true]
    let b : Value := .list [.object [("y", .null), ("x", .bool true)], .int 1]
    let c : Value := .list [.object [("x", .int 1), ("y", .null)], .int 2]
    Exact a ∧ Exact b ∧ Exact c ∧ same a b = true ∧ order b c = .ok .lt ∧ order a c = .ok .lt := by
  intro a b c
  have one : Exact (.int 1) := .int (by decide)
  have two : Exact (.int 2) := .int (by decide)
  have obj : Exact (.object [("x", .int 1), ("y", .null)]) :=
    .object (by decide) (List.forall_mem_cons.2 ⟨one, List.forall_mem_singleton.2 .null⟩)
  have obj' : Exact (.object [("y", .null), ("x", .bool true)]) :=
    .object (by decide) (List.forall_mem_cons.2 ⟨.null, List.forall_mem_singleton.2 (.bool true)⟩)
  have ha : Exact a := .list (List.forall_mem_cons.2 ⟨obj, List.forall_mem_singleton.2 (.bool true)⟩)
  have hb : Exact b := .list (List.forall_mem_cons.2 ⟨obj', List.forall_mem_singleton.2 one⟩)
  have hc : Exact c := .list (List.forall_mem_cons.2 ⟨obj, List.forall_mem_singleton.2 two⟩)
  have hsame : same a b = true := rfl
  have hlt : order b c = .ok .lt := rfl
  obtain ⟨_, _, _, _, _, _, hcongr, _⟩ := comparison_lawful ha hb hc
  exact ⟨ha, hb, hc, hsame, hlt, ((hcongr hsame .lt).1).2 hlt⟩

end

end MockSchema.Value
