/-
  MockSchema.Proofs.Scoping — names are lexically scoped.

  A nested plan runs in an environment that the plan around it has made for the row that it was building. In this module
  it runs inside levels, the innermost first: each is a plan around it, by the name that it gives its rows, and the row
  that it was building when it came to the field. A name is that of the current row, or else of the row of the nearest
  level of that name, or else the root environment has a value for it (`Lexical.scope`). No other environment is made.

  A run inside levels has the same outcome as the one in the environment that was passed on (`run_within`), and the two
  see the same names in every plan that a run reaches (`reaches_scoped`). Nothing is asked of the names: they may be
  used more than once, be `it`, or be names that the root environment has values for.
-/

import MockSchema.Proofs.Confinement
import MockSchema.Schema.Render

namespace MockSchema.Render.Lexical

/-- A plan around the current one: the name that it gives its rows, and the row that it is building. -/
structure Level where
  rowName : Option String
  row : Row

section
variable (root : Env) (levels : List Level)

/-! ## Names -/

/-- A name outside of the plan itself: the nearest level of that name, or else the root. -/
def outward : Scope := fun x =>
  match levels.find? fun level => level.rowName == some x with
  | some level => some (.object level.row)
  | none => Dict.get? root x

/-- What the fields, the filter and the sort key of a plan see that is building this row. -/
def scope (rowName : Option String) (row : Row) : Scope := fun x =>
  if x = Env.it ∨ rowName = some x then some (.object row) else outward root levels x

/-- What the flag of a plan sees, which concerns none of its rows. -/
def detached : Scope := fun x => if x = Env.it then none else outward root levels x

/-! ## Runs inside levels -/

/-- A plan that gives a name to the row around it starts from the row of the innermost level. -/
def candidates (src : Source) (b : Binding) : Result (List Row) :=
  match b, levels with
  | .name _, level :: _ => .ok [level.row]
  | b, _ => Render.candidates src root b

def keeps (frame : Frame) (row : Row) : Result Bool :=
  match frame.filter with
  | none => .ok true
  | some f => evaluated Keyword.filter (f.test (scope root levels frame.binding.rowName row))

def isReversed (frame : Frame) : Result Bool :=
  match frame.reverse with
  | none => .ok false
  | some (.flag b) => .ok b
  | some (.formula f) => evaluated Keyword.reverse (f.test (detached root levels))

def keyed (rowName : Option String) (sort : Formula) : List Row → Result (List Keyed)
  | [] => .ok []
  | row :: rows => do
    let key ← evaluated Keyword.sort (sort.eval (scope root levels rowName row))
    return ⟨key, row⟩ :: (← keyed rowName sort rows)

def ordered (frame : Frame) (rows : List Row) : Result (List Row) := do
  let reversed ← isReversed root levels frame
  match frame.sort with
  | none => return if reversed then rows.reverse else rows
  | some sort =>
    let ks ← keyed root levels frame.binding.rowName sort rows
    let ks ← evaluated Keyword.sort (Order.sort (compareKeys reversed) ks)
    return ks.map (·.row)

end

mutual

def run (src : Source) (root : Env) (levels : List Level) : Plan → Result Value
  | .mk frame fields => do
    let rows ← candidates root levels src frame.binding
    let rows ← keepRows (build src root levels frame.binding.rowName fields) (keeps root levels frame) rows
    let rows ← ordered root levels frame rows
    return select (rows.map frame.projection.apply) frame.item
  termination_by structural p => p

def build (src : Source) (root : Env) (levels : List Level) (rowName : Option String) : List Field → Row → Result Row
  | [], row => .ok row
  | .mk key target rules :: fields, row => do
    let v ← lastOf src root levels rowName key row rules .null
    let row ← merge (.mk key target rules) row v
    build src root levels rowName fields row
  termination_by structural fields => fields

def lastOf (src : Source) (root : Env) (levels : List Level) (rowName : Option String) (key : String) (row : Row) :
    List Rule → Value → Result Value
  | [], v => .ok v
  | rule :: rules, _ => do
    let v ← valueOf src root levels rowName key row rule
    lastOf src root levels rowName key row rules v
  termination_by structural rules => rules

/-- The plan of a node runs inside one more level, that of the row as it is then. -/
def valueOf (src : Source) (root : Env) (levels : List Level) (rowName : Option String) (key : String) (row : Row) :
    Rule → Result Value
  | .formula f => evaluated key (f.eval (scope root levels rowName row))
  | .node p => inside key (run src root (⟨rowName, row⟩ :: levels) p)
  termination_by structural rule => rule

end

/-! ## The environment inside levels -/

/-- The environment that a plan inside these levels is given. -/
def within (root : Env) (levels : List Level) : Env :=
  levels.foldr (fun level env => env.enter level.rowName level.row) root

section
variable {root : Env} {levels : List Level} {src : Source}

theorem get?_within_cons (level : Level) (x : String) :
    Dict.get? (within root (level :: levels)) x = (within root levels).withRow level.rowName level.row x :=
  congrFun ((within root levels).scope_enter level.rowName level.row) x

/-- By induction on the levels. The name `it` is the row of the innermost of them, whatever its name is. -/
theorem get?_within {x : String} (hx : x ≠ Env.it) : Dict.get? (within root levels) x = outward root levels x := by
  induction levels with
  | nil => rfl
  | cons level levels ih =>
    rw [get?_within_cons, Env.withRow, ih]
    by_cases hname : level.rowName = some x
    · simp only [outward, List.find?_cons, hname, or_true, if_true, BEq.rfl]
    · simp only [outward, List.find?_cons, hx, hname, or_self, if_false, beq_eq_false_iff_ne.2 hname]

/-- The nearer of two rows of one name hides the other, and the value that the root has for it. -/
example :
    let row (n : Int) : Row := [("n", .int n)]
    let levels : List Level := [⟨some "b", row 3⟩, ⟨some "a", row 2⟩, ⟨some "a", row 1⟩]
    Dict.get? (within [("a", .null)] levels) "a" = some (.object (row 2)) := rfl

theorem withRow_within (rowName : Option String) (row : Row) :
    (within root levels).withRow rowName row = scope root levels rowName row := by
  funext x
  by_cases hx : x = Env.it
  · rw [Env.withRow, scope, if_pos (Or.inl hx), if_pos (Or.inl hx)]
  · rw [Env.withRow, scope, get?_within hx]

theorem withoutRow_within : (within root levels).withoutRow = detached root levels := by
  funext x
  by_cases hx : x = Env.it
  · rw [Env.withoutRow, detached, if_pos hx, if_pos hx]
  · rw [Env.withoutRow, detached, get?_within hx]

/-! ## Each phase -/

section
variable {frame : Frame}

theorem candidates_within (b : Binding) :
    Render.candidates src (within root levels) b = candidates root levels src b := by
  cases levels with
  | nil => cases b <;> rfl
  | cons level levels =>
    cases b with
    | fresh => rfl
    | entity rowName name => rfl
    | name n =>
      have hit : Dict.get? (within root (level :: levels)) Env.it = some (.object level.row) := by
        rw [get?_within_cons, Env.withRow, if_pos (Or.inl rfl)]
      simp only [Render.candidates, hit, candidates]

theorem keeps_within : Render.keeps (within root levels) frame = keeps root levels frame := by
  funext row
  unfold Render.keeps keeps
  cases frame.filter with
  | none => rfl
  | some f => exact congrArg (fun s => evaluated Keyword.filter (f.test s)) (withRow_within _ row)

theorem isReversed_within : Render.isReversed (within root levels) frame = isReversed root levels frame := by
  unfold Render.isReversed isReversed
  cases frame.reverse with
  | none => rfl
  | some r =>
    cases r with
    | flag b => rfl
    | formula f => exact congrArg (fun s => evaluated Keyword.reverse (f.test s)) withoutRow_within

theorem keyed_within (rowName : Option String) (sort : Formula) (rows : List Row) :
    Render.keyed (within root levels) rowName sort rows = keyed root levels rowName sort rows := by
  induction rows with
  | nil => rfl
  | cons row rows ih => rw [Render.keyed, keyed, withRow_within, ih]

theorem ordered_within (rows : List Row) :
    Render.ordered (within root levels) frame rows = ordered root levels frame rows := by
  unfold Render.ordered ordered
  rw [isReversed_within]
  refine bind_congr fun reversed => ?_
  cases frame.sort with
  | none => rfl
  | some sort => simp only [keyed_within]

end

/-! ## Runs -/

mutual

/-- By induction on the plan, for all levels: a nested plan has one more. -/
theorem run_within : ∀ (p : Plan) (levels : List Level), Render.run src (within root levels) p = run src root levels p
  | .mk frame fields, levels => by
    have hbuild : Render.build src (within root levels) frame.binding.rowName fields =
        build src root levels frame.binding.rowName fields := funext (build_within fields levels _)
    simp only [Render.run, run, candidates_within, hbuild, keeps_within, ordered_within]
  termination_by structural p => p

theorem build_within : ∀ (fields : List Field) (levels : List Level) (rowName : Option String) (row : Row),
    Render.build src (within root levels) rowName fields row = build src root levels rowName fields row
  | [], _, _, _ => rfl
  | .mk key target rules :: fields, levels, rowName, row => by
    simp only [Render.build, build, lastOf_within rules levels, build_within fields levels]
  termination_by structural fields => fields

theorem lastOf_within : ∀ (rules : List Rule) (levels : List Level) (rowName : Option String) (key : String) (row : Row)
    (v : Value), Render.lastOf src (within root levels) rowName key row rules v =
      lastOf src root levels rowName key row rules v
  | [], _, _, _, _, _ => rfl
  | rule :: rules, levels, rowName, key, row, v => by
    simp only [Render.lastOf, lastOf, valueOf_within rule levels, lastOf_within rules levels]
  termination_by structural rules => rules

theorem valueOf_within : ∀ (rule : Rule) (levels : List Level) (rowName : Option String) (key : String) (row : Row),
    Render.valueOf src (within root levels) rowName key row rule = valueOf src root levels rowName key row rule
  | .formula f, levels, rowName, key, row => by
    simp only [Render.valueOf, valueOf, withRow_within]
  | .node p, levels, rowName, key, row => by
    simp only [Render.valueOf, valueOf]
    rw [← run_within p]
    rfl
  termination_by structural rule => rule

end

/-! ## Plans that a run reaches -/

/-- The plans that a run of the outermost one may come to, each by a rule of a field of the one before. The row of a
level is one that its plan has built as far as that field. -/
inductive Reaches (src : Source) (root : Env) (outermost : Plan) : List Level → Env → Plan → Prop
  | outermost : Reaches src root outermost [] root outermost
  | nested {levels : List Level} {env : Env} {frame : Frame} (before : List Field) {after : List Field} {key : String}
      {target : Target} {rules : List Rule} {inner : Plan} {rows : List Row} {start row : Row} :
      Reaches src root outermost levels env (.mk frame (before ++ .mk key target rules :: after)) →
      .node inner ∈ rules → Render.candidates src env frame.binding = .ok rows → start ∈ rows →
      Render.build src env frame.binding.rowName before start = .ok row →
      Reaches src root outermost (⟨frame.binding.rowName, row⟩ :: levels) (env.enter frame.binding.rowName row) inner

theorem Reaches.env_eq {outermost p : Plan} {env : Env} (h : Reaches src root outermost levels env p) :
    env = within root levels := by
  induction h with
  | outermost => rfl
  | nested _ _ _ _ _ _ ih => rw [ih]; rfl

/-- Names are lexically scoped. In a plan that a run reaches, the expressions about a row see the scope of this row
inside the levels, and the flag sees what there is outside of the plan; so the plan comes to what it does inside
the levels. -/
theorem reaches_scoped {outermost p : Plan} {env : Env} (h : Reaches src root outermost levels env p) :
    (∀ row, env.withRow p.rowName row = scope root levels p.rowName row) ∧
      env.withoutRow = detached root levels ∧ Render.run src env p = run src root levels p := by
  rw [h.env_eq]
  exact ⟨fun row => withRow_within p.rowName row, withoutRow_within, run_within p levels⟩

/-- A plan with the name `query` and one inside it with the name `a`, where the root has values for both names. -/
theorem reaches_scoped_of_root_names :
    let frame (b : Binding) : Frame := ⟨b, none, none, none, ⟨.all, []⟩, none⟩
    let inner : Plan := .mk (frame (.entity (some "a") "E")) []
    let outermost : Plan := .mk (frame (.name "query"))
      [.mk "n" (.plain "n") [.formula ⟨"1", .literal (.int 1)⟩], .mk "m" (.plain "m") [.node inner]]
    let root : Env := [("a", .null), ("query", .int 0)]
    let row : Row := [("n", .int 1)]
    let env := root.enter (some "query") row
    Reaches Memory.empty.source root outermost [⟨some "query", row⟩] env inner ∧
      env.withRow inner.rowName [] "query" = some (.object row) ∧
      env.withRow inner.rowName [] "a" = some (.object []) ∧
      env.withoutRow "a" = some .null ∧ env.withoutRow Env.it = none := by
  intro frame inner outermost root row env
  have hreaches : Reaches Memory.empty.source root outermost [⟨some "query", row⟩] env inner :=
    .nested [.mk "n" (.plain "n") [.formula ⟨"1", .literal (.int 1)⟩]] .outermost (List.mem_singleton_self _) rfl
      (List.mem_singleton_self []) rfl
  obtain ⟨hrow, hflag, -⟩ := reaches_scoped hreaches
  rw [hrow, hflag]
  exact ⟨hreaches, rfl, rfl, rfl, rfl⟩

end

end MockSchema.Render.Lexical
