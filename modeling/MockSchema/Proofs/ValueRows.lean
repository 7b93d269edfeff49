/-
  MockSchema.Proofs.ValueRows — running a plan on rows that may be any values.

  The rows of a run are objects by their type. Here a row is a value, from the rows to start from to the
  result. What a row that is no object becomes where a field is merged into it, and where it is projected, is left
  open (`Stray`). Whatever that is, the outcome is that of the plan (`run_eq`): there is no such row,
  because the rows that a run starts from are objects, and a merge and a projection keep them so.
-/

import MockSchema.Schema.Render

namespace MockSchema.Order

variable {α β ε : Type} (cmp : β → β → Except ε Ordering) (f : α → β)

theorem place_map (x : α) (ys : List α) :
    place cmp (f x) (ys.map f) = List.map f <$> place (fun a b => cmp (f a) (f b)) x ys := by
  induction ys with
  | nil => rfl
  | cons y ys ih =>
    simp only [List.map_cons, place, ih, map_bind]
    refine bind_congr fun o => ?_
    cases o with
    | lt => simp only [map_bind, bind_map_left, map_pure, List.map_cons]
    | eq => rfl
    | gt => rfl

/-- A sort looks at nothing but what it compares. -/
theorem sort_map (xs : List α) :
    sort cmp (xs.map f) = List.map f <$> sort (fun a b => cmp (f a) (f b)) xs := by
  have hfold : ∀ sorted : List α, (xs.map f).foldlM (fun sorted x => place cmp x sorted) (sorted.map f) =
      List.map f <$> xs.foldlM (fun sorted x => place (fun a b => cmp (f a) (f b)) x sorted) sorted := by
    induction xs with
    | nil => intro sorted; rfl
    | cons x xs ih =>
      intro sorted
      simp only [List.map_cons, List.foldlM_cons, place_map, bind_map_left, ih, map_bind]
  have hstart := hfold []
  rw [List.map_nil] at hstart
  simp only [sort, hstart, bind_map_left, map_bind, map_pure, List.map_reverse]

end MockSchema.Order

namespace MockSchema.Render.ValueRows

/-- What is done with a row that is no object. -/
structure Stray where
  merge : Field → Value → Value → Result Value
  project : Projection → Value → Value

def withRow (env : Env) (rowName : Option String) (row : Value) : Scope := fun name =>
  if name = Env.it ∨ rowName = some name then some row else Dict.get? env name

def enter (env : Env) (rowName : Option String) (row : Value) : Env :=
  let env := env.bind Env.it row
  match rowName with
  | some a => env.bind a row
  | none => env

def candidates (src : Source) (env : Env) (b : Binding) : Result (List Value) :=
  match b with
  | .fresh => .ok [.object []]
  | .name _ =>
    match Dict.get? env Env.it with
    | none => .ok [.object []]
    | some .null => .ok [.object []]
    | some (.object row) => .ok [.object row]
    | some v => .error ⟨.node (.rowNotObject v.typeName), [Keyword.name]⟩
  | .entity _ name =>
    match src.entity name with
    | .ok rows => .ok (rows.map .object)
    | .error e => .error ⟨.store e, [Keyword.entity]⟩

def keeps (env : Env) (frame : Frame) (row : Value) : Result Bool :=
  match frame.filter with
  | none => .ok true
  | some f => evaluated Keyword.filter (f.test (withRow env frame.binding.rowName row))

def keepRows (build : Value → Result Value) (keep : Value → Result Bool) : List Value → Result (List Value)
  | [] => .ok []
  | row :: rows => do
    let row ← build row
    let kept ← keep row
    let rest ← keepRows build keep rows
    return if kept then row :: rest else rest

/-- Rows with the keys that they are sorted by. -/
def keyed (env : Env) (rowName : Option String) (sort : Formula) : List Value → Result (List (Value × Value))
  | [] => .ok []
  | row :: rows => do
    let key ← evaluated Keyword.sort (sort.eval (withRow env rowName row))
    return (key, row) :: (← keyed env rowName sort rows)

def compareKeys (reversed : Bool) (a b : Value × Value) : Except EvalError Ordering :=
  (Value.order a.1 b.1).map fun o => if reversed then o.swap else o

def ordered (env : Env) (frame : Frame) (rows : List Value) : Result (List Value) := do
  let reversed ← isReversed env frame
  match frame.sort with
  | none => return if reversed then rows.reverse else rows
  | some sort =>
    let ks ← keyed env frame.binding.rowName sort rows
    let ks ← evaluated Keyword.sort (Order.sort (compareKeys reversed) ks)
    return ks.map (·.2)

def select (rows : List Value) : Option Item → Value
  | none => .list rows
  | some (.index i) =>
    match (Index.position? rows.length i).bind (rows[·]?) with
    | some row => row
    | none => .null
  | some (.slice start stop step) =>
    match Index.positions? rows.length start stop step with
    | some ps => .list (takeOut (rows.map some) ps)
    | none => .null

variable (stray : Stray)

def merge (field : Field) (row v : Value) : Result Value :=
  match row with
  | .object row => .object <$> Render.merge field row v
  | row => stray.merge field row v

def project (p : Projection) (row : Value) : Value :=
  match row with
  | .object row => .object (p.apply row)
  | row => stray.project p row

mutual

def run (src : Source) (env : Env) : Plan → Result Value
  | .mk frame fields => do
    let rows ← candidates src env frame.binding
    let rows ← keepRows (build src env frame.binding.rowName fields) (keeps env frame) rows
    let rows ← ordered env frame rows
    return select (rows.map (project stray frame.projection)) frame.item
  termination_by structural p => p

def build (src : Source) (env : Env) (rowName : Option String) : List Field → Value → Result Value
  | [], row => .ok row
  | .mk key target rules :: fields, row => do
    let v ← lastOf src env rowName key row rules .null
    let row ← merge stray (.mk key target rules) row v
    build src env rowName fields row
  termination_by structural fields => fields

def lastOf (src : Source) (env : Env) (rowName : Option String) (key : String) (row : Value) :
    List Rule → Value → Result Value
  | [], v => .ok v
  | rule :: rules, _ => do
    let v ← valueOf src env rowName key row rule
    lastOf src env rowName key row rules v
  termination_by structural rules => rules

def valueOf (src : Source) (env : Env) (rowName : Option String) (key : String) (row : Value) :
    Rule → Result Value
  | .formula f => evaluated key (f.eval (withRow env rowName row))
  | .node p => inside key (run src (enter env rowName row) p)
  termination_by structural rule => rule

end

/-! ## Each phase on objects -/

section
variable {src : Source} {env : Env} {frame : Frame} {rowName : Option String}

theorem candidates_eq (b : Binding) :
    candidates src env b = List.map .object <$> Render.candidates src env b := by
  cases b with
  | fresh => rfl
  | name n =>
    simp only [candidates, Render.candidates]
    cases Dict.get? env Env.it with
    | none => rfl
    | some v => cases v <;> rfl
  | entity a n =>
    simp only [candidates, Render.candidates]
    cases src.entity n <;> rfl

theorem keepRows_eq {build : Value → Result Value} {keep : Value → Result Bool} {buildRow : Row → Result Row}
    {keepRow : Row → Result Bool} (hb : ∀ row, build (.object row) = .object <$> buildRow row)
    (hk : ∀ row, keep (.object row) = keepRow row) (rows : List Row) :
    keepRows build keep (rows.map .object) = List.map .object <$> Render.keepRows buildRow keepRow rows := by
  induction rows with
  | nil => rfl
  | cons row rows ih =>
    simp only [List.map_cons, keepRows, Render.keepRows, hb, hk, ih, bind_map_left, map_bind, map_pure]
    refine bind_congr fun row => bind_congr fun kept => bind_congr fun rest => ?_
    cases kept <;> rfl

/-- A row with its key as one with a value for a row. -/
def ofKeyed (k : Keyed) : Value × Value := (k.key, .object k.row)

theorem keyed_eq (sort : Formula) (rows : List Row) :
    keyed env rowName sort (rows.map .object) = List.map ofKeyed <$> Render.keyed env rowName sort rows := by
  induction rows with
  | nil => rfl
  | cons row rows ih =>
    simp only [List.map_cons, keyed, Render.keyed, ih, bind_map_left, map_bind, map_pure]
    rfl

theorem evaluated_map {α β : Type} (f : α → β) (key : String) (r : Except EvalError α) :
    evaluated key (f <$> r) = f <$> evaluated key r := by cases r <;> rfl

theorem ordered_eq (rows : List Row) :
    ordered env frame (rows.map .object) = List.map .object <$> Render.ordered env frame rows := by
  simp only [ordered, Render.ordered, map_bind]
  refine bind_congr fun reversed => ?_
  cases frame.sort with
  | none => cases reversed <;> simp only [Bool.false_eq_true, if_false, if_true, map_pure, List.map_reverse]
  | some sort =>
    simp only [keyed_eq, bind_map_left, map_bind, map_pure, Order.sort_map, evaluated_map, List.map_map]
    rfl

theorem takeOut_map {α β : Type} (f : α → β) (slots : List (Option α)) (ps : List Nat) :
    takeOut (slots.map (Option.map f)) ps = (takeOut slots ps).map f := by
  induction ps generalizing slots with
  | nil => rfl
  | cons p ps ih =>
    have hset := ih (slots.set p none)
    rw [List.map_set] at hset
    rw [takeOut, takeOut, List.getElem?_map]
    cases slots[p]? with
    | none => exact ih slots
    | some slot =>
      cases slot with
      | none => exact ih slots
      | some x => exact congrArg (f x :: ·) hset

theorem select_eq (rows : List Row) (it : Option Item) : select (rows.map .object) it = Render.select rows it := by
  cases it with
  | none => rfl
  | some it =>
    cases it with
    | index i =>
      simp only [select, Render.select, List.length_map, List.getElem?_map]
      cases Index.position? rows.length i with
      | none => rfl
      | some n =>
        simp only [Option.bind_some]
        cases rows[n]? <;> rfl
    | slice start stop step =>
      have hslots : (rows.map Value.object).map some = (rows.map some).map (Option.map Value.object) :=
        List.map_map.trans (List.map_map (g := Option.map Value.object) (f := some)).symm
      cases h : Index.positions? rows.length start stop step with
      | none => simp only [select, Render.select, List.length_map, h]
      | some ps => simp only [select, Render.select, List.length_map, h, hslots, takeOut_map]

end

/-! ## Runs -/

section
variable {src : Source}

mutual

/-- By induction on the plan: a row that is built from an object is one. -/
theorem run_eq : ∀ (p : Plan) (env : Env), run stray src env p = Render.run src env p
  | .mk frame fields, env => by
    have hbuild := build_eq fields env frame.binding.rowName
    have hkeep : ∀ row, keeps env frame (.object row) = Render.keeps env frame row := fun _ => rfl
    simp only [run, Render.run, candidates_eq, keepRows_eq hbuild hkeep, ordered_eq, bind_map_left]
    refine bind_congr fun rows => bind_congr fun kept => bind_congr fun sorted => ?_
    rw [← select_eq, List.map_map, List.map_map]
    rfl
  termination_by structural p => p

theorem build_eq : ∀ (fields : List Field) (env : Env) (rowName : Option String) (row : Row),
    build stray src env rowName fields (.object row) = .object <$> Render.build src env rowName fields row
  | [], _, _, _ => rfl
  | .mk key target rules :: fields, env, rowName, row => by
    simp only [build, Render.build, lastOf_eq rules env rowName key row, merge, bind_map_left, map_bind,
      build_eq fields env rowName]
  termination_by structural fields => fields

theorem lastOf_eq : ∀ (rules : List Rule) (env : Env) (rowName : Option String) (key : String) (row : Row) (v : Value),
    lastOf stray src env rowName key (.object row) rules v = Render.lastOf src env rowName key row rules v
  | [], _, _, _, _, _ => rfl
  | rule :: rules, env, rowName, key, row, v => by
    simp only [lastOf, Render.lastOf, valueOf_eq rule env rowName key row, lastOf_eq rules env rowName key row]
  termination_by structural rules => rules

theorem valueOf_eq : ∀ (rule : Rule) (env : Env) (rowName : Option String) (key : String) (row : Row),
    valueOf stray src env rowName key (.object row) rule = Render.valueOf src env rowName key row rule
  | .formula f, env, rowName, key, row => by
    simp only [valueOf, Render.valueOf]
    rfl
  | .node p, env, rowName, key, row => by
    have henter : enter env rowName (.object row) = env.enter rowName row := by cases rowName <;> rfl
    simp only [valueOf, Render.valueOf, henter, run_eq p]
  termination_by structural rule => rule

end

end

end MockSchema.Render.ValueRows
