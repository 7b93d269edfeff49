/-
  MockSchema.Proofs.RowByRow — the rows of an entity are treated one by one.

  A plan over an entity that neither orders its rows nor takes some of them, and in which no nested plan
  queries the entity again, builds, filters and projects each row by itself (`Streams.run_eq`). So what it
  comes to over two lists of rows, one after the other, is put together from what it comes to over each:
  both results, or the first failure (`run_append`). Without a filter there is one row for each of the entity's.
-/

import Mathlib.Data.List.Forall2
import MockSchema.Proofs.Confinement
import MockSchema.Proofs.Runs

namespace MockSchema

/-- The source with these rows as an entity, and else as it is. -/
def Source.holding (src : Source) (name : String) (rows : List Row) : Source :=
  { src with entity := fun n => if n = name then .ok rows else src.entity n }

/-- The entities that the nested plans query. -/
def Plan.nestedEntities (p : Plan) : List String := collectFields Frame.entities (fun _ => []) p.fields

namespace Render

/-! ## Rows one after another -/

section
variable {build : Row → Result Row} {keep : Row → Result Bool}

theorem keepRows_append (xs ys : List Row) : keepRows build keep (xs ++ ys) = (do
    let a ← keepRows build keep xs
    let b ← keepRows build keep ys
    return a ++ b) := by
  induction xs with
  | nil =>
    show keepRows build keep ys = (keepRows build keep ys >>= fun b => pure ([] ++ b))
    simp
  | cons x xs ih =>
    simp only [List.cons_append, keepRows, ih, bind_assoc, pure_bind]
    refine bind_congr fun row => bind_congr fun kept => bind_congr fun a => bind_congr fun b => ?_
    cases kept <;> rfl

/-- Where every row is kept there is one for each, in their order. -/
theorem keepRows_all (hk : ∀ row, keep row = .ok true) {rows outs : List Row}
    (h : keepRows build keep rows = .ok outs) : List.Forall₂ (fun row out => build row = .ok out) rows outs := by
  induction rows generalizing outs with
  | nil => cases h; exact .nil
  | cons row rows ih =>
    obtain ⟨out, hb, h⟩ := bind_ok h
    obtain ⟨kept, hkept, h⟩ := bind_ok h
    obtain ⟨rest, hrest, h⟩ := bind_ok h
    rw [hk] at hkept
    cases hkept
    cases h
    exact .cons hb (ih hrest)

theorem keepRows_one {row out : Row} (hb : build row = .ok out) (hk : keep out = .ok true) :
    keepRows build keep [row] = .ok [out] := by
  simp only [keepRows, hb]
  show (keep out >>= fun kept => _) = _
  rw [hk]
  rfl

end

/-! ## Plans over an entity -/

/-- The plan takes the entity's rows as they come, and no plan nested in it queries the entity. -/
structure Streams (p : Plan) (name : String) : Prop where
  entity : ∃ rowName, p.frame.binding = .entity rowName name
  sort : p.frame.sort = none
  reverse : p.frame.reverse = none
  item : p.frame.item = none
  nested : name ∉ p.nestedEntities

section
variable {src : Source} {env : Env} {p : Plan} {name : String}

/-- What the plan makes of these rows. -/
def rowsOf (src : Source) (env : Env) (p : Plan) (rows : List Row) : Result (List Row) :=
  (keepRows (build src env p.rowName p.fields) (keeps env p.frame) rows).map (List.map p.frame.projection.apply)

theorem Streams.run_eq (h : Streams p name) (rows : List Row) :
    run (src.holding name rows) env p = (rowsOf src env p rows).map fun rows => .list (rows.map .object) := by
  obtain ⟨frame, fields⟩ := p
  obtain ⟨rowName, hb⟩ := h.entity
  have hb : frame.binding = .entity rowName name := hb
  have hs : frame.sort = none := h.sort
  have hr : frame.reverse = none := h.reverse
  have hi : frame.item = none := h.item
  have hcand : candidates (src.holding name rows) env frame.binding = .ok rows := by
    simp [candidates, hb, Source.holding]
  have hbuild : build (src.holding name rows) env frame.binding.rowName fields =
      build src env frame.binding.rowName fields := by
    funext row
    refine build_agree _ fields (fun _ _ => rfl) (fun n hn => ?_) row
    have hne : n ≠ name := fun e => h.nested (e ▸ hn)
    simp [Source.holding, hne]
  have hord : ∀ rows, ordered env frame rows = .ok rows := by
    intro rows
    simp only [ordered, isReversed, hs, hr]
    rfl
  simp only [run, hcand, hbuild, rowsOf, Plan.rowName, Plan.frame, Plan.fields, hi, select]
  show (keepRows (build src env frame.binding.rowName fields) (keeps env frame) rows >>= fun rows => _) = _
  cases keepRows (build src env frame.binding.rowName fields) (keeps env frame) rows with
  | error e => rfl
  | ok kept =>
    show (ordered env frame kept >>= fun rows => _) = _
    rw [hord]
    rfl

theorem Streams.run_ok_iff (h : Streams p name) {rows : List Row} {v : Value} :
    run (src.holding name rows) env p = .ok v ↔
      ∃ outs, rowsOf src env p rows = .ok outs ∧ v = .list (outs.map .object) := by
  rw [h.run_eq]
  cases rowsOf src env p rows with
  | error e => simp [Except.map]
  | ok outs => simp [Except.map, eq_comm]

theorem Streams.run_error_iff (h : Streams p name) {rows : List Row} {e : SchemaError} :
    run (src.holding name rows) env p = .error e ↔ rowsOf src env p rows = .error e := by
  rw [h.run_eq]
  cases rowsOf src env p rows <;> simp [Except.map]

theorem rowsOf_append (src : Source) (env : Env) (p : Plan) (r1 r2 : List Row) :
    rowsOf src env p (r1 ++ r2) = (do
      let a ← rowsOf src env p r1
      let b ← rowsOf src env p r2
      return a ++ b) := by
  unfold rowsOf
  rw [keepRows_append]
  cases keepRows (build src env p.rowName p.fields) (keeps env p.frame) r1 with
  | error e => rfl
  | ok a =>
    cases keepRows (build src env p.rowName p.fields) (keeps env p.frame) r2 with
    | error e => rfl
    | ok b => exact congrArg Except.ok (List.map_append ..)

/-- Without a filter, each row is what the plan makes of it alone. -/
theorem rowsOf_all (hf : p.frame.filter = none) {rows outs : List Row} (h : rowsOf src env p rows = .ok outs) :
    List.Forall₂ (fun row out => rowsOf src env p [row] = .ok [out]) rows outs := by
  have hk : ∀ row, keeps env p.frame row = .ok true := fun row => by simp only [keeps, hf]
  unfold rowsOf at h
  cases hr : keepRows (build src env p.rowName p.fields) (keeps env p.frame) rows with
  | error e => rw [hr] at h; cases h
  | ok built =>
    rw [hr] at h
    cases h
    refine List.forall₂_map_right_iff.2 ((keepRows_all hk hr).imp fun row out hb => ?_)
    rw [rowsOf, keepRows_one hb (hk out)]
    rfl

end

/-- The rows of an entity are treated one by one, whatever comes before and after them: over two lists of rows, one
after the other, the results are put together, and the first failure is the failure. What is returned
is a list of rows; without a filter it has one for each row of the entity, which is that row's result. -/
theorem run_append (src : Source) (env : Env) (p : Plan) (name : String) (h : Streams p name)
    (r1 r2 : List Row) :
    (∀ a1 a2, run (src.holding name r1) env p = .ok (.list a1) → run (src.holding name r2) env p = .ok (.list a2) →
      run (src.holding name (r1 ++ r2)) env p = .ok (.list (a1 ++ a2))) ∧
    (∀ e, run (src.holding name r1) env p = .error e → run (src.holding name (r1 ++ r2)) env p = .error e) ∧
    (∀ v e, run (src.holding name r1) env p = .ok v → run (src.holding name r2) env p = .error e →
      run (src.holding name (r1 ++ r2)) env p = .error e) ∧
    (∀ rows v, run (src.holding name rows) env p = .ok v → ∃ outs, v = .list outs ∧
      (p.frame.filter = none →
        outs.length = rows.length ∧
        List.Forall₂ (fun row out => run (src.holding name [row]) env p = .ok (.list [out])) rows outs)) := by
  refine ⟨?_, ?_, ?_, ?_⟩
  · intro a1 a2 h1 h2
    obtain ⟨o1, ho1, ha1⟩ := h.run_ok_iff.1 h1
    obtain ⟨o2, ho2, ha2⟩ := h.run_ok_iff.1 h2
    cases ha1
    cases ha2
    have happ : rowsOf src env p (r1 ++ r2) = .ok (o1 ++ o2) := by rw [rowsOf_append, ho1, ho2]; rfl
    exact h.run_ok_iff.2 ⟨o1 ++ o2, happ, by rw [List.map_append]⟩
  · intro e he
    rw [h.run_error_iff] at he ⊢
    rw [rowsOf_append, he]
    rfl
  · intro v e hv he
    obtain ⟨o1, ho1, _⟩ := h.run_ok_iff.1 hv
    rw [h.run_error_iff] at he ⊢
    rw [rowsOf_append, ho1, he]
    rfl
  · intro rows v hv
    obtain ⟨outs, ho, rfl⟩ := h.run_ok_iff.1 hv
    refine ⟨_, rfl, fun hf => ?_⟩
    have hall := rowsOf_all hf ho
    have hrun : List.Forall₂ (fun row out => run (src.holding name [row]) env p = .ok (.list [.object out])) rows outs :=
      hall.imp fun row out hrow => h.run_ok_iff.2 ⟨[out], hrow, rfl⟩
    exact ⟨by rw [List.length_map, hall.length_eq], List.forall₂_map_right_iff.2 hrun⟩

/-- A plan that adds a field to each row, over two rows. -/
theorem run_append_singletons :
    let p : Plan := .mk ⟨.entity none "E", none, none, none, ⟨.all, []⟩, none⟩
      [.mk "v" (.plain "v") [.formula ⟨"it['x']", .index (.name "it") (.literal (.str "x"))⟩]]
    let src := Memory.empty.source
    Streams p "E" ∧
      run (src.holding "E" [[("x", .int 1)], [("x", .int 2)]]) [] p =
        .ok (.list [.object [("x", .int 1), ("v", .int 1)], .object [("x", .int 2), ("v", .int 2)]]) := by
  intro p src
  have h : Streams p "E" := ⟨⟨none, rfl⟩, rfl, rfl, rfl, List.not_mem_nil⟩
  have h1 : run (src.holding "E" [[("x", .int 1)]]) [] p = .ok (.list [.object [("x", .int 1), ("v", .int 1)]]) := rfl
  have h2 : run (src.holding "E" [[("x", .int 2)]]) [] p = .ok (.list [.object [("x", .int 2), ("v", .int 2)]]) := rfl
  exact ⟨h, (run_append src [] p "E" h [[("x", .int 1)]] [[("x", .int 2)]]).1 _ _ h1 h2⟩

end Render

end MockSchema
