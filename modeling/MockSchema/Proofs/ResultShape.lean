/-
  MockSchema.Proofs.ResultShape — what the result of a node looks like.

  The plan of a node has the selection and the item that its expansion asks for (`plan_asks`). From there the shape of
  every result follows: rows, one row or null by the item, and no row with a null in it, with an empty key, or,
  under `__only__`, with a name that is not given out (`run_shape`).
-/

import Mathlib.Data.List.TakeWhile
import MockSchema.Proofs.Macro
import MockSchema.Proofs.Positions
import MockSchema.Proofs.ValueRows
import MockSchema.Proofs.WellFormed

namespace MockSchema

/-! ## Shapes -/

/-- The name that an entry of `__only__` gives out: `outer` of `outer:inner`, or the entry itself. -/
def givenName (entry : String) : String := String.ofList (entry.toList.takeWhile (· != ':'))

theorem givenName_name {s : String} (h : IsName s) : givenName s = s := by
  have hall : ∀ c ∈ s.toList, (c != ':') = true := fun c hc => bne_iff_ne.2 (h.ne hc (by decide))
  rw [givenName, List.takeWhile_eq_self_iff.2 hall, String.ofList_toList]

theorem givenName_pair {outer inner : String} (h : IsName outer) : givenName (outer ++ ":" ++ inner) = outer := by
  have hs : (outer ++ ":" ++ inner).toList = outer.toList ++ ':' :: inner.toList := by simp
  rw [givenName, hs, (takeWhile_colon h inner.toList).1, String.ofList_toList]

/-- What a row of a node's result is like. -/
structure Tidy (node row : Row) : Prop where
  distinct : (Dict.keys row).Nodup
  named : ∀ kv ∈ row, kv.1 ≠ ""
  present : ∀ kv ∈ row, kv.2 ≠ .null
  only : At node Keyword.only fun w => ∃ entries : List String, w = .list (entries.map .str) ∧
    ∀ kv ∈ row, ∃ entry ∈ entries, kv.1 = givenName entry

/-- What can be asked for by `__item__`. -/
inductive Shape where
  | rows
  | row
  | nothing
  deriving DecidableEq, Repr

/-- One index asks for a row, two or three for a slice; the slice with step zero is null. -/
def Shape.ofItem : Option Value → Shape
  | some (.list [_]) => row
  | some (.list [_, _, .int 0]) => nothing
  | _ => rows

def Shape.Fits (P : Row → Prop) : Shape → Value → Prop
  | rows, v => ∃ rows : List Row, v = .list (rows.map .object) ∧ ∀ row ∈ rows, P row
  | row, v => v = .null ∨ ∃ row, v = .object row ∧ P row
  | nothing, v => v = .null

/-! ## What a plan has from its node -/

namespace Planning

section
variable {α : Type} {key : String}

theorem check_returns (r : Except StructureError α) : Ensures (check key r) (fun a => r = .ok a) fun _ => True := by
  unfold check
  split
  · exact .pure rfl
  · exact .malformed trivial

theorem stringList_returns (node : Row) (key : String) : Ensures (stringList node key)
    (fun r => Dict.get? node key = r.map fun ss => .list (ss.map .str)) fun _ => True := by
  unfold stringList
  split
  · rename_i hn
    exact .pure hn
  · rename_i vs hv
    split
    · rename_i ss hss
      rw [strings?_eq] at hss
      subst hss
      exact .pure hv
    · exact .malformed trivial
  · exact .malformed trivial

/-- Under `__only__` the projection is that of the pairs which the entries are. -/
def Selects (node : Row) (p : Projection) : Prop :=
  At node Keyword.only fun w => ∃ entries pairs, w = .list (entries.map .str) ∧ namePairs entries = .ok pairs ∧
    p = ⟨.only (pairs.map (·.inner)), pairs.filter (·.outer.isSome)⟩

theorem projection_returns (node : Row) : Ensures (projection node) (Selects node) fun _ => True := by
  refine (stringList_returns node Keyword.only).bind fun only ho => (Ensures.any _).bind fun except _ =>
    (Ensures.any _).bind fun rename _ => ?_
  cases only with
  | none => exact (Ensures.any _).imp (fun _ _ => at_none ho) fun _ h => h
  | some entries =>
    dsimp only
    split
    · exact .malformed trivial
    · split
      · exact .malformed trivial
      · refine (check_returns _).bind fun pairs hp => .pure ?_
        exact (at_some ho).2 ⟨entries, pairs, rfl, hp, rfl⟩

/-- The item is what is read from `__item__`. -/
inductive Takes (node : Row) : Option Item → Prop
  | rows : Dict.get? node Keyword.item = none → Takes node none
  | item {w : Value} {i : Item} : Dict.get? node Keyword.item = some w → itemOf w = .ok i → Takes node (some i)

theorem item_returns (node : Row) : Ensures (item node) (Takes node) fun _ => True := by
  unfold item
  split
  · rename_i w hw
    exact (check_returns _).map fun i hi => .item hw hi
  · rename_i hn
    exact .pure (.rows hn)

/-- What the keywords of the node ask of the rows in the end. -/
structure Asks (node : Row) (frame : Frame) : Prop where
  projection : Selects node frame.projection
  item : Takes node frame.item

theorem frame_asks (node : Row) (b : Binding) : Ensures (frame node b) (Asks node) fun _ => True :=
  (Ensures.any _).bind fun _ _ => (Ensures.any _).bind fun _ _ => (Ensures.any _).bind fun _ _ =>
    (projection_returns node).bind fun _ hp => (item_returns node).bind fun _ hi => .pure ⟨hp, hi⟩

theorem planNode_asks {expand : Value → Row → Planner Plan} {node : Row} (hh : Dict.get? node Keyword.helper = none) :
    Ensures (planNode expand node) (fun p => Asks node p.frame) fun _ => True := by
  rw [planNode_plain _ hh]
  exact (Ensures.any _).bind fun b _ => (Ensures.any _).bind fun _ _ => (frame_asks node b).bind fun _ hf => .pure hf

end

/-- What is planned is a node with an expansion, and the plan asks what the keywords of that ask. -/
theorem plan_asks {src : Source} {v : Value} {c c' : Cache} {p : Plan} (h : plan src v c = (.ok p, c')) :
    ∃ node out, v = .object node ∧ Expands src .node node out ∧ Asks out p.frame := by
  cases v with
  | object node =>
    obtain ⟨⟨out, hout⟩, _⟩ := (plan_spec src node).ok h
    have hfree : Dict.get? out Keyword.helper = none := by
      cases hout.helperFree out rfl with
      | mk hh _ => exact hh
    have hplan : plan src (.object out) c = (.ok p, c') := by
      rcases hout.plan_agrees src c with ha | ⟨e, c'', he, _⟩
      · rw [← ha, h]
      · rw [h] at he; cases he
    refine ⟨node, out, rfl, hout, ?_⟩
    have hasks : Ensures (plan src (.object out)) (fun p => Asks out p.frame) fun _ => True := by
      rw [plan, planWithin_eq]
      exact planNode_asks hfree
    exact hasks.ok hplan
  | _ => cases h

theorem mem_namePairs {entries : List String} {pairs : List NamePair} (h : namePairs entries = .ok pairs) :
    ∀ pair ∈ pairs, ∃ entry ∈ entries, NamePair.ofText? entry = some pair := by
  induction entries generalizing pairs with
  | nil => cases h; exact fun _ hp => absurd hp List.not_mem_nil
  | cons entry entries ih =>
    simp only [namePairs] at h
    split at h
    · rename_i first hfirst
      obtain ⟨rest, hrest, h⟩ := bind_ok h
      cases h
      intro pair hp
      rcases List.mem_cons.1 hp with rfl | hp
      · exact ⟨entry, List.mem_cons_self, hfirst⟩
      · obtain ⟨e, he, hpair⟩ := ih hrest pair hp
        exact ⟨e, List.mem_cons_of_mem _ he, hpair⟩
    · cases h

end Planning

/-! ## Projected rows -/

namespace Projection

variable {p : Projection} {row : Row}

theorem nodup_filter {d : Row} (keep : String × Value → Bool) (h : (Dict.keys d).Nodup) :
    (Dict.keys (d.filter keep)).Nodup := h.sublist (List.filter_sublist.map _)

theorem nodup_apply (p : Projection) (row : Row) : (Dict.keys (p.apply row)).Nodup :=
  nodup_filter _ (Dict.nodup_overlay [] _ List.nodup_nil)

/-- A field that is left is one that was selected, under its new name. -/
theorem mem_apply {kv : String × Value} (h : kv ∈ p.apply row) :
    kv.1 ≠ "" ∧ kv.2 ≠ .null ∧ ∃ key, p.selects key = true ∧ kv.1 = p.nameOf key := by
  obtain ⟨hmem, hkept⟩ := List.mem_filter.1 h
  rw [Bool.and_eq_true, bne_iff_ne] at hkept
  refine ⟨hkept.1, fun hnull => ?_, ?_⟩
  · rw [hnull] at hkept
    exact absurd hkept.2 (by decide)
  · rcases Dict.mem_overlay hmem with hmem | hmem
    · cases hmem
    · obtain ⟨field, hfield, rfl⟩ := List.mem_map.1 hmem
      exact ⟨field.1, (List.mem_filter.1 hfield).2, rfl⟩

/-- The name that a selected field gets is one that the list gives out. -/
theorem nameOf_only {entries : List String} {pairs : List NamePair} {key : String}
    (hpairs : Planning.namePairs entries = .ok pairs)
    (hkey : (⟨.only (pairs.map (·.inner)), pairs.filter (·.outer.isSome)⟩ : Projection).selects key = true) :
    ∃ entry ∈ entries, (⟨.only (pairs.map (·.inner)), pairs.filter (·.outer.isSome)⟩ : Projection).nameOf key =
      givenName entry := by
  have hmem := Planning.mem_namePairs hpairs
  simp only [nameOf]
  split
  · -- the last pair that renames the field
    rename_i pair hfind
    have hpair : pair ∈ pairs ∧ pair.outer.isSome = true :=
      List.mem_filter.1 (List.mem_reverse.1 (List.mem_of_find?_eq_some hfind))
    obtain ⟨entry, hentry, htext⟩ := hmem pair hpair.1
    obtain ⟨outer, inner⟩ := pair
    obtain ⟨name, rfl⟩ := Option.isSome_iff_exists.1 hpair.2
    obtain ⟨hname, -, rfl⟩ := ofText?_pair.1 htext
    exact ⟨_, hentry, (givenName_pair hname).symm⟩
  · -- no pair renames it, so it is listed by its own name
    rename_i hfind
    have hlisted : key ∈ pairs.map (·.inner) := by simpa [selects] using hkey
    obtain ⟨pair, hpair, rfl⟩ := List.mem_map.1 hlisted
    obtain ⟨entry, hentry, htext⟩ := hmem pair hpair
    refine ⟨entry, hentry, ?_⟩
    obtain ⟨outer, inner⟩ := pair
    cases outer with
    | none =>
      obtain ⟨hname, rfl⟩ := ofText?_single.1 htext
      exact (givenName_name hname).symm
    | some name =>
      have hnone := List.find?_eq_none.1 hfind ⟨some name, inner⟩
        (List.mem_reverse.2 (List.mem_filter.2 ⟨hpair, rfl⟩))
      exact absurd (beq_self_eq_true inner) hnone

theorem apply_tidy {node : Row} (h : Planning.Selects node p) (row : Row) : Tidy node (p.apply row) where
  distinct := nodup_apply p row
  named := fun _ hkv => (mem_apply hkv).1
  present := fun _ hkv => (mem_apply hkv).2.1
  only := by
    refine At.imp h ?_
    rintro w ⟨entries, pairs, rfl, hpairs, hp⟩
    refine ⟨entries, rfl, fun kv hkv => ?_⟩
    obtain ⟨-, -, key, hkey, hname⟩ := mem_apply hkv
    rw [hp] at hkey hname
    obtain ⟨entry, hentry, hgiven⟩ := nameOf_only hpairs hkey
    exact ⟨entry, hentry, hname.trans hgiven⟩

end Projection

/-! ## Results -/

namespace Render

theorem mem_takeOut {α : Type} {slots : List (Option α)} {ps : List Nat} {x : α} (h : x ∈ takeOut slots ps) :
    some x ∈ slots := by
  induction ps generalizing slots with
  | nil => cases h
  | cons p ps ih =>
    rw [takeOut] at h
    split at h
    · rename_i y hy
      rcases List.mem_cons.1 h with rfl | h
      · exact List.mem_of_getElem? hy
      · rcases List.mem_or_eq_of_mem_set (ih h) with h | h
        · exact h
        · cases h
    · exact ih h

section
variable {P : Row → Prop} {rows : List Row}

theorem select_slice (h : ∀ row ∈ rows, P row) (start stop : Option Int) {step : Option Int} (hstep : step ≠ some 0) :
    Shape.rows.Fits P (select rows (some (.slice start stop step))) := by
  simp only [select]
  split
  · refine ⟨_, rfl, fun row hrow => ?_⟩
    obtain ⟨row', hrow', he⟩ := List.mem_map.1 (mem_takeOut hrow)
    cases he
    exact h _ hrow'
  · rename_i hnone
    exact absurd (Index.positions?_eq_none.1 hnone) hstep

theorem select_zero (start stop : Option Int) : select rows (some (.slice start stop (some 0))) = .null := by
  simp only [select, Index.positions?_eq_none.2]

theorem select_index (h : ∀ row ∈ rows, P row) (i : Int) : Shape.row.Fits P (select rows (some (.index i))) := by
  simp only [select]
  split
  · rename_i row hrow
    obtain ⟨n, -, hn⟩ := Option.bind_eq_some_iff.1 hrow
    exact Or.inr ⟨row, rfl, h row (List.mem_of_getElem? hn)⟩
  · exact Or.inl rfl

/-- What is selected is what the item asks for. -/
theorem select_fits {node : Row} {it : Option Item} (h : ∀ row ∈ rows, P row) (hit : Planning.Takes node it) :
    (Shape.ofItem (Dict.get? node Keyword.item)).Fits P (select rows it) := by
  cases hit with
  | rows hnone =>
    rw [hnone]
    exact ⟨rows, rfl, h⟩
  | item hw hi =>
    rw [hw]
    unfold Planning.itemOf at hi
    split at hi
    · split at hi
      · cases hi
      · rename_i n his
        cases hi
        rw [(Planning.indices?_some his).1]
        exact select_index h n
      · cases hi
      · rename_i start stop his
        cases hi
        rw [(Planning.indices?_some his).1]
        exact select_slice h start stop nofun
      · rename_i start stop step his
        cases hi
        rw [(Planning.indices?_some his).1]
        by_cases hstep : step = some 0
        · subst hstep
          exact select_zero start stop
        · have hrows : Shape.ofItem (some (.list ([start, stop, step].map indexValue))) = .rows := by
            cases step with
            | none => rfl
            | some n =>
              have hn : n ≠ 0 := fun e => hstep (by rw [e])
              simp only [List.map_cons, List.map_nil, indexValue, Shape.ofItem]
              split <;> simp_all
          rw [hrows]
          exact select_slice h start stop hstep
      · cases hi
    · cases hi

end

theorem run_selects {src : Source} {env : Env} {p : Plan} {w : Value} (h : run src env p = .ok w) :
    ∃ rows : List Row, w = select (rows.map p.frame.projection.apply) p.frame.item := by
  obtain ⟨frame, fields⟩ := p
  simp only [run] at h
  obtain ⟨_, _, h⟩ := bind_ok h
  obtain ⟨_, _, h⟩ := bind_ok h
  obtain ⟨rows, _, h⟩ := bind_ok h
  cases h
  exact ⟨rows, rfl⟩

/-- What a planned node yields, whatever the environment and the source: rows if the expanded node has no `__item__`, an
object or null for one index, rows for a slice, and null for a slice with step zero. The rows are tidy. And
it is nowhere decided what becomes of a row that is no object: however that is done, the outcome is the same. -/
theorem run_shape {src : Source} {v : Value} {c c' : Cache} {p : Plan} (h : Planning.plan src v c = (.ok p, c')) :
    ∃ node out, v = .object node ∧ Planning.Expands src .node node out ∧
      (∀ src' env w, run src' env p = .ok w →
        (Shape.ofItem (Dict.get? out Keyword.item)).Fits (Tidy out) w) ∧
      ∀ stray src' env, ValueRows.run stray src' env p = run src' env p := by
  obtain ⟨node, out, hv, hout, hasks⟩ := Planning.plan_asks h
  refine ⟨node, out, hv, hout, fun src' env w hw => ?_, fun stray src' env => ValueRows.run_eq stray p env⟩
  obtain ⟨rows, rfl⟩ := run_selects hw
  refine select_fits (fun row hrow => ?_) hasks.item
  obtain ⟨row, _, rfl⟩ := List.mem_map.1 hrow
  exact Projection.apply_tidy hasks.projection row

/-- One row with a field renamed and a null left out. -/
theorem run_shape_of_first :
    let src := (Memory.empty.insertEntity "E" (.list [.object [("a", .int 1)]])).source
    let v : Value := .object [("__from__", .str "E"), ("b", .str "null"),
      ("__only__", .list [.str "c:a", .str "b"]), ("__item__", .list [.int 0])]
    ∃ p c' node out, Planning.plan src v [] = (.ok p, c') ∧ v = .object node ∧ Planning.Expands src .node node out ∧
      (Shape.ofItem (Dict.get? out Keyword.item)).Fits (Tidy out) (.object [("c", .int 1)]) := by
  intro src v
  obtain ⟨p, c', h, hrun⟩ : ∃ p c', Planning.plan src v [] = (.ok p, c') ∧
      run src [] p = .ok (.object [("c", .int 1)]) := ⟨_, _, rfl, rfl⟩
  obtain ⟨node, out, hv, hout, hshape, _⟩ := run_shape h
  exact ⟨p, c', node, out, h, hv, hout, hshape src [] _ hrun⟩

end Render

end MockSchema
