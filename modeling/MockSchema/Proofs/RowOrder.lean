/-
  MockSchema.Proofs.RowOrder — the rows of a node in the order that it asks for.

  Every row is given its key, the rows with their keys are sorted, and the keys are dropped. So the stable sort of the
  keyed rows is read off the rows themselves: `Arranged key reversed rows out`. The rows can be arranged if and only
  if the keys, and whether to reverse, can be evaluated and the keys of any two rows can be compared
  (`ordered_arranges`). No key is ever left where the sort found it because it could not be compared.

  A descending sort keeps rows with equal keys in the order in which they came. That is why it is not the ascending
  sort reversed, but the ascending sort of the rows from their end, reversed.
-/

import MockSchema.Proofs.Comparison
import MockSchema.Schema.Render

namespace MockSchema.Render

/-- The key that a row is sorted by. -/
def sortKey (env : Env) (rowName : Option String) (sort : Formula) (row : Row) : Except EvalError Value :=
  sort.eval (env.withRow rowName row)

section
variable (key : Row → Except EvalError Value)

def KeysComparable (a b : Row) : Prop := ∃ k k', key a = .ok k ∧ key b = .ok k' ∧ Order.Comparable Value.order k k'

/-- The first can stand before the second, in this direction. -/
def CanPrecede (reversed : Bool) (a b : Row) : Prop :=
  ∃ k k' o, key a = .ok k ∧ key b = .ok k' ∧ Value.order k k' = .ok o ∧ o ≠ if reversed then .lt else .gt

/-- Do the rows have equal keys? -/
def sameKey (a b : Row) : Bool :=
  match key a, key b with
  | .ok k, .ok k' => Value.same k k'
  | _, _ => false

/-- The rows sorted by their keys; those with equal keys stand as they came. -/
structure Arranged (reversed : Bool) (rows out : List Row) : Prop where
  perm : out.Perm rows
  sorted : out.Pairwise (CanPrecede key reversed)
  stable : ∀ row ∈ rows, out.filter (sameKey key row) = rows.filter (sameKey key row)

/-- The rows with their keys. -/
structure WithKeys (rows : List Row) (ks : List Keyed) : Prop where
  rows : ks.map (·.row) = rows
  keys : ∀ k ∈ ks, key k.row = .ok k.key

end

section
variable {env : Env} {rowName : Option String} {sort : Formula} {key : Row → Except EvalError Value}
  {rows out : List Row} {ks ks' : List Keyed} {a b : Keyed} {o : Ordering} {reversed : Bool}

theorem evaluated_ok {α : Type} {name : String} {r : Except EvalError α} {v : α} :
    evaluated name r = .ok v ↔ r = .ok v := by
  cases r <;> simp [evaluated]

/-! ## Keys -/

theorem keyed_iff : keyed env rowName sort rows = .ok ks ↔ WithKeys (sortKey env rowName sort) rows ks := by
  induction rows generalizing ks with
  | nil =>
    constructor
    · intro h
      cases h
      exact ⟨rfl, nofun⟩
    · intro h
      rw [List.map_eq_nil_iff.1 h.rows]
      rfl
  | cons row rows ih =>
    constructor
    · intro h
      obtain ⟨k, hk, h⟩ := bind_ok h
      obtain ⟨ks', hks, h⟩ := bind_ok h
      cases h
      obtain ⟨hrows, hkeys⟩ := ih.1 hks
      exact ⟨by rw [List.map_cons, hrows], List.forall_mem_cons.2 ⟨evaluated_ok.1 hk, hkeys⟩⟩
    · intro h
      obtain ⟨k, ks', rfl, rfl, rfl⟩ := List.map_eq_cons_iff.1 h.rows
      obtain ⟨hk, hks⟩ := List.forall_mem_cons.1 h.keys
      have hk : evaluated Keyword.sort (sort.eval (env.withRow rowName k.row)) = .ok k.key := evaluated_ok.2 hk
      rw [keyed, hk, ok_bind, ih.2 ⟨rfl, hks⟩]
      rfl

theorem withKeys_exists (h : ∀ row ∈ rows, ∃ k, key row = .ok k) : ∃ ks, WithKeys key rows ks := by
  induction rows with
  | nil => exact ⟨[], rfl, nofun⟩
  | cons row rows ih =>
    obtain ⟨⟨k, hk⟩, h⟩ := List.forall_mem_cons.1 h
    obtain ⟨ks, hrows, hkeys⟩ := ih h
    exact ⟨⟨k, row⟩ :: ks, by rw [List.map_cons, hrows], List.forall_mem_cons.2 ⟨hk, hkeys⟩⟩

theorem WithKeys.reverse (h : WithKeys key rows ks) : WithKeys key rows.reverse ks.reverse :=
  ⟨by rw [List.map_reverse, h.rows], fun k hk => h.keys k (List.mem_reverse.1 hk)⟩

theorem WithKeys.exact (h : WithKeys key rows ks) (hx : ∀ row ∈ rows, ∀ k, key row = .ok k → k.Exact) :
    ∀ k ∈ ks, k.key.Exact := by
  intro k hk
  have hrow : k.row ∈ rows := h.rows ▸ List.mem_map_of_mem hk
  exact hx k.row hrow k.key (h.keys k hk)

/-! ## Comparing by the keys -/

theorem compareKeys_ok :
    compareKeys reversed a b = .ok o ↔ Value.order a.key b.key = .ok (if reversed then o.swap else o) := by
  cases reversed with
  | true => exact Order.opposite_ok
  | false =>
    unfold compareKeys
    cases Value.order a.key b.key <;> simp [Except.map]

theorem compareKeys_true : compareKeys true = Order.opposite (compareKeys false) := by
  funext a b
  simp only [compareKeys, Order.opposite]
  cases Value.order a.key b.key <;> rfl

theorem compareKeys_lawful (reversed : Bool) :
    Order.Lawful (compareKeys reversed) fun k => k.key.Exact := by
  have hup : Order.Lawful (compareKeys false) fun k => k.key.Exact := by
    refine ⟨fun ha hb h => ?_, fun ha hb hc hab hbc ho ho' => ?_⟩
    · rw [compareKeys_ok] at h ⊢
      exact Value.order_lawful.swap ha hb h
    · rw [compareKeys_ok] at hab hbc
      obtain ⟨r, hac, hr⟩ := Value.order_lawful.trans ha hb hc hab hbc ho ho'
      exact ⟨r, compareKeys_ok.2 hac, hr⟩
  cases reversed with
  | true => exact compareKeys_true ▸ hup.opposite
  | false => exact hup

theorem comparable_keys :
    Order.Comparable (compareKeys reversed) a b ↔ Order.Comparable Value.order a.key b.key := by
  have hup : Order.Comparable (compareKeys false) a b ↔ Order.Comparable Value.order a.key b.key :=
    exists_congr fun _ => compareKeys_ok
  cases reversed with
  | false => exact hup
  | true => rw [compareKeys_true, Order.comparable_opposite, hup]

theorem WithKeys.comparable_iff (h : WithKeys key rows ks) :
    Order.AllComparable (compareKeys reversed) ks ↔
      ∀ (i j : Nat) (hi : i < rows.length) (hj : j < rows.length), i ≠ j → KeysComparable key rows[i] rows[j] := by
  obtain ⟨rfl, hkeys⟩ := h
  have hiff : ∀ a ∈ ks, ∀ b ∈ ks,
      Order.Comparable (compareKeys reversed) a b ↔ KeysComparable key a.row b.row := by
    intro a ha b hb
    rw [comparable_keys]
    constructor
    · intro h
      exact ⟨a.key, b.key, hkeys a ha, hkeys b hb, h⟩
    · rintro ⟨k, k', hk, hk', h⟩
      rw [hkeys a ha] at hk
      rw [hkeys b hb] at hk'
      cases hk
      cases hk'
      exact h
  constructor
  · intro h i j hi hj hij
    rw [List.length_map] at hi hj
    rw [List.getElem_map, List.getElem_map]
    exact (hiff _ (List.getElem_mem hi) _ (List.getElem_mem hj)).1 (h i j hi hj hij)
  · intro h i j hi hj hij
    have hrows := h i j (by rwa [List.length_map]) (by rwa [List.length_map]) hij
    rw [List.getElem_map, List.getElem_map] at hrows
    exact (hiff _ (List.getElem_mem hi) _ (List.getElem_mem hj)).2 hrows

/-! ## Rows -/

/-- The rows of the stable sort of the keyed rows. -/
theorem WithKeys.arranged (h : WithKeys key rows ks) (hx : ∀ k ∈ ks, k.key.Exact)
    (hs : Order.StableSort (compareKeys reversed) ks ks') : Arranged key reversed rows (ks'.map (·.row)) := by
  obtain ⟨rfl, hkeys⟩ := h
  have hmem : ∀ k ∈ ks', k ∈ ks := fun k hk => hs.perm.mem_iff.1 hk
  refine ⟨hs.perm.map _, ?_, fun row hrow => ?_⟩
  · rw [List.pairwise_map]
    refine hs.ascends.imp_of_mem fun {a b} ha hb hab => ?_
    obtain ⟨o, ho, hne⟩ := hab
    refine ⟨a.key, b.key, _, hkeys a (hmem a ha), hkeys b (hmem b hb), compareKeys_ok.1 ho, ?_⟩
    cases reversed with
    | true => simpa using hne
    | false => simpa using hne
  · obtain ⟨k, hk, rfl⟩ := List.mem_map.1 hrow
    have hsame : ∀ a ∈ ks, sameKey key k.row a.row = Value.same k.key a.key := by
      intro a ha
      simp only [sameKey, hkeys k hk, hkeys a ha]
    rw [List.filter_map, List.filter_map, hs.keeps _ fun a ha b hb hka hkb hlt => ?_]
    rw [Function.comp_apply, hsame a ha] at hka
    rw [Function.comp_apply, hsame b hb] at hkb
    cases reversed with
    | false => exact Value.not_less_of_same (hx k hk) (hx a ha) (hx b hb) hka hkb (compareKeys_ok.1 hlt)
    | true =>
      have hgt := Value.order_lawful.swap (hx a ha) (hx b hb) (compareKeys_ok.1 hlt)
      exact Value.not_less_of_same (hx k hk) (hx b hb) (hx a ha) hkb hka hgt

/-- How an order of the rows comes about. -/
theorem ordered_iff {frame : Frame} (hs : frame.sort = some sort) :
    ordered env frame rows = .ok out ↔ ∃ reversed ks ks', isReversed env frame = .ok reversed ∧
      WithKeys (sortKey env frame.binding.rowName sort) rows ks ∧
      Order.sort (compareKeys reversed) ks = .ok ks' ∧ out = ks'.map (·.row) := by
  unfold ordered
  rw [hs]
  constructor
  · intro h
    obtain ⟨reversed, hr, h⟩ := bind_ok h
    obtain ⟨ks, hks, h⟩ := bind_ok h
    obtain ⟨ks', hks', h⟩ := bind_ok h
    cases h
    exact ⟨reversed, ks, ks', hr, keyed_iff.1 hks, evaluated_ok.1 hks', rfl⟩
  · rintro ⟨reversed, ks, ks', hr, hks, hks', rfl⟩
    have hk : keyed env frame.binding.rowName sort rows = .ok ks := keyed_iff.2 hks
    have hsort : evaluated Keyword.sort (Order.sort (compareKeys reversed) ks) = .ok ks' := evaluated_ok.2 hks'
    rw [hr, ok_bind]
    simp only [hk, ok_bind, hsort]
    rfl

/-- The descending order is the ascending order of the rows from their end, from its end. -/
theorem ordered_descending {frame : Frame} (hs : frame.sort = some sort)
    (hx : ∀ row ∈ rows, ∀ k, sortKey env frame.binding.rowName sort row = .ok k → k.Exact)
    (hr : isReversed env frame = .ok true) :
    ordered env frame rows = .ok out ↔ ordered env { frame with reverse := none } rows.reverse = .ok out.reverse := by
  have hs' : ({ frame with reverse := none } : Frame).sort = some sort := hs
  rw [ordered_iff hs, ordered_iff hs']
  constructor
  · rintro ⟨reversed, ks, ks', hr', hks, hsort, rfl⟩
    rw [hr] at hr'
    cases hr'
    rw [compareKeys_true, Order.sort_opposite (compareKeys_lawful false) (hks.exact hx)] at hsort
    exact ⟨false, ks.reverse, ks'.reverse, rfl, hks.reverse, hsort, by rw [List.map_reverse]⟩
  · rintro ⟨reversed, ks, ks', hr', hks, hsort, hout⟩
    cases hr'
    have hks := hks.reverse
    rw [List.reverse_reverse] at hks
    refine ⟨true, ks.reverse, ks'.reverse, hr, hks, ?_, ?_⟩
    · rw [compareKeys_true, Order.sort_opposite (compareKeys_lawful false) (hks.exact hx), List.reverse_reverse,
        List.reverse_reverse]
      exact hsort
    · rw [List.map_reverse, ← hout, List.reverse_reverse]

/-- The order of a node's rows. Without a sort key they stay as they are, or turn round. With one, if its values have no
floats in them, they are arranged by it exactly if it can be evaluated for every row, as can the flag, and compared
between any two; in the descending order they stand as those of the reversed input do in the ascending, from the end. -/
theorem ordered_arranges (env : Env) (frame : Frame) (rows : List Row) :
    (frame.sort = none →
      ordered env frame rows = (isReversed env frame).map fun reversed => if reversed then rows.reverse else rows) ∧
    ∀ sort, frame.sort = some sort →
      let key := sortKey env frame.binding.rowName sort
      (∀ row ∈ rows, ∀ k, key row = .ok k → k.Exact) →
      ((∃ out, ordered env frame rows = .ok out) ↔
        (∃ reversed, isReversed env frame = .ok reversed) ∧ (∀ row ∈ rows, ∃ k, key row = .ok k) ∧
          ∀ (i j : Nat) (hi : i < rows.length) (hj : j < rows.length), i ≠ j → KeysComparable key rows[i] rows[j]) ∧
      (∀ reversed out, isReversed env frame = .ok reversed → ordered env frame rows = .ok out →
        Arranged key reversed rows out) ∧
      (isReversed env frame = .ok true → ∀ out,
        ordered env frame rows = .ok out ↔
          ordered env { frame with reverse := none } rows.reverse = .ok out.reverse) := by
  refine ⟨fun hs => ?_, ?_⟩
  · unfold ordered
    rw [hs]
    cases isReversed env frame with
    | error e => rfl
    | ok reversed => cases reversed <;> rfl
  · intro sort hs key hx
    refine ⟨⟨?_, ?_⟩, ?_, fun hr out => ordered_descending hs hx hr⟩
    · rintro ⟨out, hout⟩
      obtain ⟨reversed, ks, ks', hr, hks, hks', -⟩ := (ordered_iff hs).1 hout
      have hall := (Order.sort_returns (compareKeys_lawful reversed) (hks.exact hx)).1 ⟨ks', hks'⟩
      refine ⟨⟨reversed, hr⟩, fun row hrow => ?_, hks.comparable_iff.1 hall⟩
      rw [← hks.rows] at hrow
      obtain ⟨k, hk, rfl⟩ := List.mem_map.1 hrow
      exact ⟨k.key, hks.keys k hk⟩
    · rintro ⟨⟨reversed, hr⟩, hkeys, hall⟩
      obtain ⟨ks, hks⟩ := withKeys_exists hkeys
      obtain ⟨ks', hks'⟩ :=
        (Order.sort_returns (compareKeys_lawful reversed) (hks.exact hx)).2 (hks.comparable_iff.2 hall)
      exact ⟨_, (ordered_iff hs).2 ⟨reversed, ks, ks', hr, hks, hks', rfl⟩⟩
    · intro reversed out hr hout
      obtain ⟨reversed', ks, ks', hr', hks, hks', rfl⟩ := (ordered_iff hs).1 hout
      rw [hr] at hr'
      cases hr'
      exact hks.arranged (hks.exact hx) (Order.stableSort_of_sort (compareKeys_lawful reversed) (hks.exact hx) hks')

end

/-- Of two rows of one age, sorted by it in descending order, the first that came stands first. -/
theorem ordered_arranges_by_age :
    let sort : Formula := ⟨"it['age']", .index (.name "it") (.literal (.str "age"))⟩
    let frame : Frame := ⟨.fresh, none, some sort, some (.flag true), ⟨.all, []⟩, none⟩
    let person (id age : Int) : Row := [("id", .int id), ("age", .int age)]
    let rows := [person 1 30, person 2 20, person 3 30]
    let out := [person 1 30, person 3 30, person 2 20]
    (∀ row ∈ rows, ∀ k, sortKey [] none sort row = .ok k → k.Exact) ∧
      ordered [] frame rows = .ok out ∧ Arranged (sortKey [] none sort) true rows out ∧
      ordered [] { frame with sort := none } rows = .ok rows.reverse := by
  intro sort frame person rows out
  have hx : ∀ row ∈ rows, ∀ k, sortKey [] none sort row = .ok k → k.Exact := by
    intro row hrow k hk
    have hage : ∃ age, InRange age ∧ sortKey [] none sort row = .ok (.int age) := by
      rcases List.mem_cons.1 hrow with rfl | hrow
      · exact ⟨30, by decide, rfl⟩
      rcases List.mem_cons.1 hrow with rfl | hrow
      · exact ⟨20, by decide, rfl⟩
      · rw [List.mem_singleton.1 hrow]
        exact ⟨30, by decide, rfl⟩
    obtain ⟨age, hage, hkey⟩ := hage
    rw [hkey] at hk
    cases hk
    exact .int hage
  have hout : ordered [] frame rows = .ok out := rfl
  refine ⟨hx, hout, ?_, (ordered_arranges [] { frame with sort := none } rows).1 rfl⟩
  exact ((ordered_arranges [] frame rows).2 sort rfl hx).2.1 true out rfl hout

end MockSchema.Render
