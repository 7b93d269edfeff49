/-
  MockSchema.Proofs.Indexing — an element or a slice is the same whichever way it is taken.

  `__item__` moves rows out of their places, an expression copies the elements of a list, and a string is taken apart into
  its characters. All three go by the same positions. No position of a slice comes twice, so no place is
  empty when its row is due (`takeOut_eq_filterMap`), and all are inside, so no position goes without a row.

  What `__item__` selects is what the subscript with the same bounds takes from the list of rows, with null for an index
  outside; and a string is indexed and sliced as the list of its characters is (`indexing_agrees`).
-/

import MockSchema.Proofs.Positions
import MockSchema.Proofs.WellFormed
import MockSchema.Schema.Render

namespace MockSchema

/-- The bounds of an item are integers that arithmetic knows. -/
def Item.Known : Item → Prop
  | .index i => InRange i
  | .slice start stop step => (∀ n ∈ start, InRange n) ∧ (∀ n ∈ stop, InRange n) ∧ ∀ n ∈ step, InRange n

namespace Index

section
variable {α β : Type} {xs : List α} {ps : List Nat} {start stop step : Option Int} {i : Int} {n p : Nat}

/-! ## Elements -/

/-- What is taken by an index is taken from the same place of a list made of it, and the failures are alike. -/
theorem element_map (kind kind' : SequenceKind) (f : α → β) (xs : List α) (v : Value) :
    ((element kind xs v).map f).mapError EvalError.category = (element kind' (xs.map f) v).mapError EvalError.category := by
  cases hv : v.int? with
  | none =>
    have hindex : ∀ kind, sequenceIndex kind v = .error (.badIndex kind v.typeName) := fun kind => by
      rw [sequenceIndex, hv]
    rw [element, element, hindex, hindex]
    rfl
  | some i =>
    rw [element_int hv, element_int hv, List.length_map]
    cases position? xs.length i with
    | none => rfl
    | some p =>
      rw [Option.bind_some, Option.bind_some, List.getElem?_map]
      cases xs[p]? <;> rfl

theorem bound_indexValue {b : Option Int} (hb : ∀ n ∈ b, InRange n) : bound (indexValue b) = .ok b := by
  cases b with
  | none => rfl
  | some n => exact bound_int (hb n rfl)

/-- The elements at the positions of a slice. -/
theorem slice_list {xs : List Value} (h : (Item.slice start stop step).Known)
    (hps : positions? xs.length start stop step = some ps) :
    slice (.list xs) (indexValue start) (indexValue stop) (indexValue step) = .ok (.list (ps.filterMap (xs[·]?))) := by
  simp only [slice, bound_indexValue h.1, bound_indexValue h.2.1, bound_indexValue h.2.2, ok_bind, pick, hps]
  rfl

/-- Positions inside a list all yield an element. -/
theorem map_filterMap_getElem? (h : ∀ p ∈ ps, p < xs.length) : (ps.filterMap (xs[·]?)).map some = ps.map (xs[·]?) := by
  induction ps with
  | nil => rfl
  | cons p ps ih =>
    have hp := List.getElem?_eq_getElem (h p List.mem_cons_self)
    rw [List.filterMap_cons_some hp, List.map_cons, List.map_cons, hp, ih fun q hq => h q (List.mem_cons_of_mem _ hq)]

/-- What a slice takes depends on the length alone. -/
theorem pick_map (f : α → β) (xs : List α) (start stop step : Option Int) :
    pick (xs.map f) start stop step = (pick xs start stop step).map (List.map f) := by
  unfold pick
  rw [List.length_map]
  cases positions? xs.length start stop step with
  | none => rfl
  | some ps =>
    show Except.ok _ = Except.ok _
    rw [List.map_filterMap]
    simp only [List.getElem?_map]

/-- The slice from an index on begins with the element at the index. -/
theorem positions?_from (h : position? n i = some p) : ∃ ps, positions? n (some i) none none = some (p :: ps) := by
  obtain ⟨hp, hi⟩ := position?_eq_some h
  have hfirst : clamp n 0 n i = p := by
    show max 0 (min (n : Int) (fromEnd n i)) = p
    omega
  have hpositions : positions? n (some i) none none = some (ascending 1 n n (clamp n 0 n i)) := rfl
  rw [hpositions, hfirst]
  cases n with
  | zero => omega
  | succ n =>
    rw [ascending, if_pos (by omega), Int.toNat_natCast]
    exact ⟨_, rfl⟩

end

end Index

/-! ## Rows -/

namespace Render

theorem takeOut_eq_filterMap {α : Type} {xs : List α} {slots : List (Option α)} {ps : List Nat} (hps : ps.Nodup)
    (hfull : ∀ p ∈ ps, slots[p]? = xs[p]?.map some) : takeOut slots ps = ps.filterMap (xs[·]?) := by
  induction ps generalizing slots with
  | nil => rfl
  | cons p ps ih =>
    obtain ⟨hp, hps⟩ := List.nodup_cons.1 hps
    have hslot := hfull p List.mem_cons_self
    have hrest : ∀ q ∈ ps, slots[q]? = xs[q]?.map some := fun q hq => hfull q (List.mem_cons_of_mem _ hq)
    rw [takeOut, hslot]
    cases hx : xs[p]? with
    | none => rw [List.filterMap_cons_none hx]; exact ih hps hrest
    | some x =>
      -- The place that is emptied now is none of those to come.
      have hset : ∀ q ∈ ps, (slots.set p none)[q]? = xs[q]?.map some := fun q hq => by
        have hne : p ≠ q := fun he => hp (he ▸ hq)
        rw [List.getElem?_set_ne hne, hrest q hq]
      rw [List.filterMap_cons_some hx]
      exact congrArg (x :: ·) (ih hps hset)

/-- The rows as the value that an expression sees. -/
def rowList (rows : List Row) : Value := .list (rows.map Value.object)

/-- An index selects what the subscript takes from the list of rows, and null where that fails. -/
structure SelectsElement (rows : List Row) (i : Int) : Prop where
  found : ∀ v, Index.get (rowList rows) (.int i) = .ok v → select rows (some (.index i)) = v
  missing : select rows (some (.index i)) = .null ↔
    ∃ e, Index.get (rowList rows) (.int i) = .error e ∧ e.category = .indexError
  first : -(rows.length : Int) ≤ i → i < rows.length → ∃ v vs,
    Index.slice (rowList rows) (.int i) .null .null = .ok (.list (v :: vs)) ∧ select rows (some (.index i)) = v

/-- A slice selects what the expression takes from the list of rows: a row for every position. -/
structure SelectsSlice (rows : List Row) (start stop step : Option Int) : Prop where
  slice : Index.slice (rowList rows) (indexValue start) (indexValue stop) (indexValue step) =
    .ok (select rows (some (.slice start stop step)))
  all : ∃ ps taken, Index.positions? rows.length start stop step = some ps ∧
    select rows (some (.slice start stop step)) = rowList taken ∧ taken.map some = ps.map (rows[·]?)

/-- What an item selects is what an expression with the same bounds takes; a slice needs a step other than zero. -/
def Agrees (rows : List Row) : Item → Prop
  | .index i => SelectsElement rows i
  | .slice start stop step => step ≠ some 0 → SelectsSlice rows start stop step

section
variable {rows : List Row} {start stop step : Option Int} {i : Int}

theorem selectsElement (hi : InRange i) : SelectsElement rows i := by
  have hint := Value.int?_int hi
  cases hp : Index.position? rows.length i with
  | none =>
    have hget : Index.get (rowList rows) (.int i) = .error (.outOfRange .list) := by
      rw [rowList, Index.get, Index.element_int hint, List.length_map, hp]
      rfl
    have hselect : select rows (some (.index i)) = .null := by
      rw [select, hp]
      rfl
    refine ⟨fun v hv => ?_, ⟨fun _ => ⟨_, hget, rfl⟩, fun _ => hselect⟩, fun hlow hhigh => ?_⟩
    · rw [hget] at hv
      cases hv
    · obtain ⟨p, hsome⟩ := Index.position?_isSome hlow hhigh
      rw [hp] at hsome
      cases hsome
  | some p =>
    obtain ⟨row, hrow⟩ : ∃ row, rows[p]? = some row :=
      ⟨_, List.getElem?_eq_getElem (Index.position?_eq_some hp).1⟩
    have hvalue : (rows.map Value.object)[p]? = some (.object row) := by rw [List.getElem?_map, hrow]; rfl
    have hget : Index.get (rowList rows) (.int i) = .ok (.object row) := by
      rw [rowList, Index.get, Index.element_int hint, List.length_map, hp, Option.bind_some, hvalue]
    have hselect : select rows (some (.index i)) = .object row := by
      rw [select, hp, Option.bind_some, hrow]
    refine ⟨fun v hv => ?_, ⟨fun hnull => ?_, ?_⟩, fun _ _ => ?_⟩
    · rw [hget] at hv
      cases hv
      exact hselect
    · rw [hselect] at hnull
      cases hnull
    · rintro ⟨e, he, -⟩
      rw [hget] at he
      cases he
    · obtain ⟨ps, hps⟩ := Index.positions?_from hp
      have hknown : (Item.slice (some i) none none).Known := ⟨fun n hn => Option.some.inj hn ▸ hi, nofun, nofun⟩
      rw [← List.length_map Value.object] at hps
      have hslice : Index.slice (rowList rows) (.int i) .null .null =
          .ok (.list ((p :: ps).filterMap ((rows.map Value.object)[·]?))) := Index.slice_list hknown hps
      rw [List.filterMap_cons_some hvalue] at hslice
      exact ⟨_, _, hslice, hselect⟩

theorem selectsSlice (hknown : (Item.slice start stop step).Known) (hzero : step ≠ some 0) :
    SelectsSlice rows start stop step := by
  obtain ⟨ps, hps⟩ : ∃ ps, Index.positions? rows.length start stop step = some ps :=
    Option.ne_none_iff_exists'.1 fun hnone => hzero (Index.positions?_eq_none.1 hnone)
  obtain ⟨hdistinct, hinside⟩ := Index.positions?_sound hps
  have hselect : select rows (some (.slice start stop step)) = rowList (ps.filterMap (rows[·]?)) := by
    have hfull : ∀ p ∈ ps, (rows.map some)[p]? = rows[p]?.map some := fun p _ => List.getElem?_map
    rw [select, hps]
    exact congrArg rowList (takeOut_eq_filterMap hdistinct hfull)
  constructor
  · have hlength : (rows.map Value.object).length = rows.length := List.length_map _
    rw [rowList, Index.slice_list hknown (hlength ▸ hps), hselect, rowList, List.map_filterMap]
    simp only [List.getElem?_map]
  · exact ⟨ps, _, hps, hselect, Index.map_filterMap_getElem? hinside⟩

/-- Slicing a string and taking it apart into its characters may change places, failures included. -/
theorem characters_of_slice (s : String) (start stop step : Value) :
    (do Builtin.list.call [← Index.slice (.str s) start stop step]) =
      (do Index.slice (← Builtin.list.call [.str s]) start stop step) := by
  have hcall : ∀ s : String, Builtin.list.call [.str s] =
      .ok (.list (s.toList.map fun c => .str (String.singleton c))) := fun _ => rfl
  rw [hcall, ok_bind]
  unfold Index.slice
  cases Index.bound start with
  | error e => rfl
  | ok a =>
    cases Index.bound stop with
    | error e => rfl
    | ok b =>
      cases Index.bound step with
      | error e => rfl
      | ok c =>
        simp only [ok_bind, Index.pick_map]
        cases Index.pick s.toList a b c with
        | error e => rfl
        | ok cs =>
          show Builtin.list.call [.str (String.ofList cs)] = _
          rw [hcall, String.toList_ofList]
          rfl

/-- The character of a string at an index is the element of the list of its characters, and the failures are alike. -/
theorem character_at_index (s : String) (i : Value) :
    (Index.get (.str s) i).mapError EvalError.category =
      (do Index.get (← Builtin.list.call [.str s]) i).mapError EvalError.category :=
  Index.element_map .string .list (fun c => Value.str (String.singleton c)) s.toList i

/-- What an item selects is what the expression with its bounds takes from the list of rows, and a string is sliced and
indexed like the list of its characters. -/
theorem indexing_agrees {item : Item} (hitem : item.Known) (s : String) (start stop step i : Value) :
    Agrees rows item ∧
    (do Builtin.list.call [← Index.slice (.str s) start stop step]) =
      (do Index.slice (← Builtin.list.call [.str s]) start stop step) ∧
    (Index.get (.str s) i).mapError EvalError.category =
      (do Index.get (← Builtin.list.call [.str s]) i).mapError EvalError.category := by
  refine ⟨?_, characters_of_slice s start stop step, character_at_index s i⟩
  cases item with
  | index i => exact selectsElement hitem
  | slice start stop step => exact fun hzero => selectsSlice hitem hzero

/-- Every second row from the end on, and the character before the last of three, which take more bytes. -/
theorem indexing_agrees_backwards :
    let rows : List Row := [[("a", .int 1)], [("a", .int 2)], [("a", .int 3)]]
    let item : Item := .slice none none (some (-2))
    item.Known ∧ select rows (some item) = rowList [[("a", .int 3)], [("a", .int 1)]] ∧ Agrees rows item ∧
      (Index.get (.str "aé😀") (.int (-2))).mapError EvalError.category =
        (do Index.get (← Builtin.list.call [.str "aé😀"]) (.int (-2))).mapError EvalError.category := by
  intro rows item
  have hknown : item.Known := ⟨nofun, nofun, fun n hn => Option.some.inj hn ▸ by decide⟩
  obtain ⟨hrows, -, hcharacter⟩ := @indexing_agrees rows item hknown "aé😀" .null .null .null (.int (-2))
  exact ⟨hknown, rfl, hrows, hcharacter⟩

end

end Render

end MockSchema
