/-
  MockSchema.Proofs.Confinement — what the value of a plan depends on.

  An expression sees the names that occur in it (`Expr.names`), a plan those in its expressions and in the
  ones of the plans nested in it (`Plan.names`), besides `it`. A plan queries the entities that it and the
  plans nested in it are bound to (`Plan.entities`). Nothing else of an environment or a source makes a
  difference to what running it comes to: the value and the failure are the same (`run_confined`).

  A nested plan runs in an environment in which the row's names are bound anew. Its scope there is the one
  that the row's own expressions have (`Env.scope_enter`), so agreement on names is passed on.
-/

import MockSchema.Schema.Render

namespace MockSchema

/-! ## Names in an expression -/

namespace Expr

mutual

def names : Expr → List String
  | .literal _ => []
  | .name n => [n]
  | .list items => namesAll items
  | .dict entries => namesPairs entries
  | .unary _ e => names e
  | .binary _ a b => names a ++ names b
  | .and a b => names a ++ names b
  | .or a b => names a ++ names b
  | .compare first links => names first ++ namesLinks links
  | .conditional c yes no => names c ++ (names yes ++ names no)
  | .index target i => names target ++ names i
  | .slice target start stop step => names target ++ (namesBound start ++ (namesBound stop ++ namesBound step))
  | .member target _ => names target
  | .call _ args => namesAll args
  termination_by structural e => e

def namesAll : List Expr → List String
  | [] => []
  | e :: es => names e ++ namesAll es
  termination_by structural es => es

def namesPairs : List (Expr × Expr) → List String
  | [] => []
  | (k, v) :: kvs => names k ++ (names v ++ namesPairs kvs)
  termination_by structural kvs => kvs

def namesLinks : List (Relation × Expr) → List String
  | [] => []
  | (_, e) :: links => names e ++ namesLinks links
  termination_by structural links => links

def namesBound : Option Expr → List String
  | none => []
  | some e => names e
  termination_by structural e => e

end

section
variable {s s' : Scope}

mutual

/-- Scopes that agree on the names in an expression give it the same value. -/
theorem eval_agree : ∀ e : Expr, (∀ n ∈ e.names, s n = s' n) → e.eval s = e.eval s'
  | .literal _, _ => rfl
  | .name n, h => by simp only [eval, h n (List.mem_singleton_self n)]
  | .list items, h => by simp only [eval, evalAll_agree items h]
  | .dict entries, h => by simp only [eval, evalPairs_agree entries h]
  | .unary op e, h => by simp only [eval, eval_agree e h]
  | .binary op a b, h => by
    obtain ⟨ha, hb⟩ := List.forall_mem_append.1 h
    simp only [eval, eval_agree a ha, eval_agree b hb]
  | .and a b, h => by
    obtain ⟨ha, hb⟩ := List.forall_mem_append.1 h
    simp only [eval, eval_agree a ha, eval_agree b hb]
  | .or a b, h => by
    obtain ⟨ha, hb⟩ := List.forall_mem_append.1 h
    simp only [eval, eval_agree a ha, eval_agree b hb]
  | .compare first links, h => by
    obtain ⟨hf, hl⟩ := List.forall_mem_append.1 h
    simp only [eval, eval_agree first hf, evalLinks_agree links hl]
  | .conditional c yes no, h => by
    obtain ⟨hc, h⟩ := List.forall_mem_append.1 h
    obtain ⟨hy, hn⟩ := List.forall_mem_append.1 h
    simp only [eval, eval_agree c hc, eval_agree yes hy, eval_agree no hn]
  | .index target i, h => by
    obtain ⟨ht, hi⟩ := List.forall_mem_append.1 h
    simp only [eval, eval_agree target ht, eval_agree i hi]
  | .slice target start stop step, h => by
    obtain ⟨ht, h⟩ := List.forall_mem_append.1 h
    obtain ⟨ha, h⟩ := List.forall_mem_append.1 h
    obtain ⟨hb, hc⟩ := List.forall_mem_append.1 h
    simp only [eval, eval_agree target ht, evalBound_agree start ha, evalBound_agree stop hb,
      evalBound_agree step hc]
  | .member target _, h => by simp only [eval, eval_agree target h]
  | .call f args, h => by simp only [eval, evalAll_agree args h]
  termination_by structural e => e

theorem evalAll_agree : ∀ es : List Expr, (∀ n ∈ namesAll es, s n = s' n) → evalAll s es = evalAll s' es
  | [], _ => rfl
  | e :: es, h => by
    obtain ⟨he, hes⟩ := List.forall_mem_append.1 h
    simp only [evalAll, eval_agree e he, evalAll_agree es hes]
  termination_by structural es => es

theorem evalPairs_agree : ∀ kvs : List (Expr × Expr), (∀ n ∈ namesPairs kvs, s n = s' n) →
    evalPairs s kvs = evalPairs s' kvs
  | [], _ => rfl
  | (k, v) :: kvs, h => by
    obtain ⟨hk, h⟩ := List.forall_mem_append.1 h
    obtain ⟨hv, hkvs⟩ := List.forall_mem_append.1 h
    simp only [evalPairs, eval_agree k hk, eval_agree v hv, evalPairs_agree kvs hkvs]
  termination_by structural kvs => kvs

theorem evalLinks_agree : ∀ links : List (Relation × Expr), (∀ n ∈ namesLinks links, s n = s' n) →
    ∀ left, evalLinks s left links = evalLinks s' left links
  | [], _, _ => rfl
  | (r, e) :: links, h, left => by
    obtain ⟨he, hl⟩ := List.forall_mem_append.1 h
    simp only [evalLinks, eval_agree e he, evalLinks_agree links hl]
  termination_by structural links => links

theorem evalBound_agree : ∀ e : Option Expr, (∀ n ∈ namesBound e, s n = s' n) → evalBound s e = evalBound s' e
  | none, _ => rfl
  | some e, h => eval_agree e h
  termination_by structural e => e

end

end

end Expr

/-! ## Names and entities of a plan -/

def Formula.names (f : Formula) : List String := f.tree.names

def Reverse.names : Reverse → List String
  | flag _ => []
  | formula f => f.names

/-- The names in a frame's own expressions. -/
def Frame.names (frame : Frame) : List String :=
  frame.filter.elim [] Formula.names ++ (frame.sort.elim [] Formula.names ++ frame.reverse.elim [] Reverse.names)

def Frame.entities (frame : Frame) : List String :=
  match frame.binding with
  | .entity _ name => [name]
  | _ => []

section
variable {α : Type} (ofFrame : Frame → List α) (ofFormula : Formula → List α)

mutual

/-- What there is in a plan, from its frame and the formulas of its rules, the plans nested in it included. -/
def Plan.collect : Plan → List α
  | .mk frame fields => ofFrame frame ++ collectFields fields
  termination_by structural p => p

def collectFields : List Field → List α
  | [] => []
  | .mk _ _ rules :: fields => collectRules rules ++ collectFields fields
  termination_by structural fields => fields

def collectRules : List Rule → List α
  | [] => []
  | rule :: rules => Rule.collect rule ++ collectRules rules
  termination_by structural rules => rules

def Rule.collect : Rule → List α
  | .formula f => ofFormula f
  | .node p => Plan.collect p
  termination_by structural rule => rule

end

end

def Plan.names (p : Plan) : List String := p.collect Frame.names Formula.names

def Plan.entities (p : Plan) : List String := p.collect Frame.entities fun _ => []

/-! ## Environments that agree -/

namespace Env

/-- The scope of a nested plan's environment is the one of the row around it. -/
theorem scope_enter (env : Env) (rowName : Option String) (row : Row) :
    (env.enter rowName row).scope = env.withRow rowName row := by
  funext n
  cases rowName with
  | none =>
    simp only [scope, enter, bind, withRow, Dict.get?_put, reduceCtorEq, or_false]
    by_cases hn : n = it
    · rw [if_pos hn.symm, if_pos hn]
    · rw [if_neg (Ne.symm hn), if_neg hn]
  | some a =>
    simp only [scope, enter, bind, withRow, Dict.get?_put, Option.some.injEq]
    by_cases ha : a = n
    · rw [if_pos ha, if_pos (Or.inr ha)]
    · rw [if_neg ha]
      by_cases hn : n = it
      · rw [if_pos hn.symm, if_pos (Or.inl hn)]
      · rw [if_neg (Ne.symm hn), if_neg (not_or.2 ⟨hn, ha⟩)]

/-- The environments give these names, and `it`, the same values. -/
structure Agree (names : List String) (env env' : Env) : Prop where
  it : Dict.get? env it = Dict.get? env' it
  names : ∀ n ∈ names, Dict.get? env n = Dict.get? env' n

section
variable {names names' : List String} {env env' : Env}

theorem Agree.withRow (h : ∀ n ∈ names, Dict.get? env n = Dict.get? env' n) (rowName : Option String) (row : Row) :
    ∀ n ∈ names, env.withRow rowName row n = env'.withRow rowName row n := by
  intro n hn
  simp only [Env.withRow, h n hn]

theorem Agree.withoutRow (h : ∀ n ∈ names, Dict.get? env n = Dict.get? env' n) :
    ∀ n ∈ names, env.withoutRow n = env'.withoutRow n := by
  intro n hn
  simp only [Env.withoutRow, h n hn]

/-- In the environments of a nested plan `it` is the row, whatever it was around it. -/
theorem Agree.enter (h : ∀ n ∈ names, Dict.get? env n = Dict.get? env' n) (rowName : Option String) (row : Row) :
    Agree names (env.enter rowName row) (env'.enter rowName row) := by
  have hw : ∀ n, env.withRow rowName row n = env'.withRow rowName row n →
      Dict.get? (env.enter rowName row) n = Dict.get? (env'.enter rowName row) n := by
    intro n hn
    have he := congrFun (env.scope_enter rowName row) n
    have he' := congrFun (env'.scope_enter rowName row) n
    exact he.trans (hn.trans he'.symm)
  refine ⟨hw _ ?_, fun n hn => hw n (Agree.withRow h rowName row n hn)⟩
  simp only [Env.withRow, true_or, if_true]

end

end Env

namespace Render

variable {src src' : Source} {env env' : Env}

theorem candidates_agree {frame : Frame} (hit : Dict.get? env Env.it = Dict.get? env' Env.it)
    (he : ∀ name ∈ frame.entities, src.entity name = src'.entity name) :
    candidates src env frame.binding = candidates src' env' frame.binding := by
  unfold Frame.entities at he
  cases hb : frame.binding with
  | fresh => rfl
  | name n => simp only [candidates, hit]
  | entity rowName name =>
    rw [hb] at he
    simp only [candidates, he name (List.mem_singleton_self name)]

section
variable {frame : Frame}

theorem keeps_agree (h : ∀ n ∈ frame.names, Dict.get? env n = Dict.get? env' n) :
    keeps env frame = keeps env' frame := by
  funext row
  unfold keeps
  cases hf : frame.filter with
  | none => rfl
  | some f =>
    have hn : ∀ n ∈ f.names, Dict.get? env n = Dict.get? env' n := fun n hn =>
      h n (List.mem_append_left _ (by rw [hf]; exact hn))
    simp only [Formula.test, Formula.eval, Expr.eval_agree f.tree (Env.Agree.withRow hn _ row)]

theorem isReversed_agree (h : ∀ n ∈ frame.names, Dict.get? env n = Dict.get? env' n) :
    isReversed env frame = isReversed env' frame := by
  unfold isReversed
  split
  · rfl
  · rfl
  · rename_i f hr
    have hn : ∀ n ∈ f.names, Dict.get? env n = Dict.get? env' n := fun n hn =>
      h n (List.mem_append_right _ (List.mem_append_right _ (by rw [hr]; exact hn)))
    simp only [Formula.test, Formula.eval, Expr.eval_agree f.tree (Env.Agree.withoutRow hn)]

theorem keyed_agree {sort : Formula} (rowName : Option String)
    (h : ∀ n ∈ sort.names, Dict.get? env n = Dict.get? env' n) (rows : List Row) :
    keyed env rowName sort rows = keyed env' rowName sort rows := by
  induction rows with
  | nil => rfl
  | cons row rows ih =>
    simp only [keyed, Formula.eval, Expr.eval_agree sort.tree (Env.Agree.withRow h rowName row), ih]

theorem ordered_agree (h : ∀ n ∈ frame.names, Dict.get? env n = Dict.get? env' n) (rows : List Row) :
    ordered env frame rows = ordered env' frame rows := by
  unfold ordered
  rw [isReversed_agree h]
  cases hs : frame.sort with
  | none => rfl
  | some sort =>
    have hn : ∀ n ∈ sort.names, Dict.get? env n = Dict.get? env' n := fun n hn =>
      h n (List.mem_append_right _ (List.mem_append_left _ (by rw [hs]; exact hn)))
    simp only [keyed_agree _ hn]

end

mutual

/-- By induction on the plan, for all environments: those of the nested plans are others. -/
theorem run_agree : ∀ (p : Plan) {env env' : Env}, Env.Agree p.names env env' →
    (∀ name ∈ p.entities, src.entity name = src'.entity name) → run src env p = run src' env' p
  | .mk frame fields, env, env', h, he => by
    obtain ⟨hframe, hfields⟩ := List.forall_mem_append.1 h.names
    obtain ⟨hown, hnested⟩ := List.forall_mem_append.1 he
    have hbuild : build src env frame.binding.rowName fields = build src' env' frame.binding.rowName fields :=
      funext fun row => build_agree _ fields hfields hnested row
    simp only [run, candidates_agree h.it hown, hbuild, keeps_agree hframe, ordered_agree hframe]
  termination_by structural p => p

theorem build_agree {env env' : Env} (rowName : Option String) : ∀ fields : List Field,
    (∀ n ∈ collectFields Frame.names Formula.names fields, Dict.get? env n = Dict.get? env' n) →
    (∀ name ∈ collectFields Frame.entities (fun _ => []) fields, src.entity name = src'.entity name) →
    ∀ row, build src env rowName fields row = build src' env' rowName fields row
  | [], _, _, _ => rfl
  | .mk key target rules :: fields, h, he, row => by
    obtain ⟨hrules, hfields⟩ := List.forall_mem_append.1 h
    obtain ⟨herules, hefields⟩ := List.forall_mem_append.1 he
    simp only [build, lastOf_agree rowName key row rules hrules herules, build_agree rowName fields hfields hefields]
  termination_by structural fields => fields

theorem lastOf_agree {env env' : Env} (rowName : Option String) (key : String) (row : Row) : ∀ rules : List Rule,
    (∀ n ∈ collectRules Frame.names Formula.names rules, Dict.get? env n = Dict.get? env' n) →
    (∀ name ∈ collectRules Frame.entities (fun _ => []) rules, src.entity name = src'.entity name) →
    ∀ v, lastOf src env rowName key row rules v = lastOf src' env' rowName key row rules v
  | [], _, _, _ => rfl
  | rule :: rules, h, he, v => by
    obtain ⟨hrule, hrules⟩ := List.forall_mem_append.1 h
    obtain ⟨herule, herules⟩ := List.forall_mem_append.1 he
    simp only [lastOf, valueOf_agree rowName key row rule hrule herule,
      lastOf_agree rowName key row rules hrules herules]
  termination_by structural rules => rules

theorem valueOf_agree {env env' : Env} (rowName : Option String) (key : String) (row : Row) : ∀ rule : Rule,
    (∀ n ∈ rule.collect Frame.names Formula.names, Dict.get? env n = Dict.get? env' n) →
    (∀ name ∈ rule.collect Frame.entities (fun _ => []), src.entity name = src'.entity name) →
    valueOf src env rowName key row rule = valueOf src' env' rowName key row rule
  | .formula f, h, _ => by
    have hn : ∀ n ∈ f.names, Dict.get? env n = Dict.get? env' n := h
    simp only [valueOf, Formula.eval, Expr.eval_agree f.tree (Env.Agree.withRow hn rowName row)]
  | .node p, h, he => by
    simp only [valueOf, run_agree p (Env.Agree.enter h rowName row) he]
  termination_by structural rule => rule

end

/-- What a plan comes to depends on `it`, on the names in its expressions and on the entities it is bound to,
those of the plans nested in it included, and on nothing else. -/
theorem run_confined (p : Plan) (hit : Dict.get? env Env.it = Dict.get? env' Env.it)
    (hn : ∀ n ∈ p.names, Dict.get? env n = Dict.get? env' n)
    (he : ∀ name ∈ p.entities, src.entity name = src'.entity name) : run src env p = run src' env' p :=
  run_agree p ⟨hit, hn⟩ he

/-- The value of `y` and the rows of `F` make no difference to a plan over `E` that looks at `x`. -/
theorem run_confined_to_used :
    let p : Plan := .mk ⟨.entity (some "a") "E", none, none, none, ⟨.all, []⟩, none⟩
      [.mk "v" (.plain "v") [.formula ⟨"[x, a]", .list [.name "x", .name "a"]⟩]]
    let env : Env := [("x", .int 1), ("y", .int 2)]
    let env' : Env := [("y", .null), ("x", .int 1)]
    let m := Memory.empty.insertEntity "E" (.list [.object []])
    let m' := m.insertEntity "F" (.list [.object [("z", .null)]])
    Dict.get? env Env.it = Dict.get? env' Env.it ∧ (∀ n ∈ p.names, Dict.get? env n = Dict.get? env' n) ∧
      (∀ name ∈ p.entities, m.source.entity name = m'.source.entity name) ∧
      run m.source env p = run m'.source env' p := by
  intro p env env' m m'
  have hit : Dict.get? env Env.it = Dict.get? env' Env.it := rfl
  have hn : ∀ n ∈ p.names, Dict.get? env n = Dict.get? env' n := by
    intro n hn
    have hn : n ∈ ["x", "a"] := hn
    rcases List.mem_cons.1 hn with rfl | hn
    · rfl
    · rw [List.mem_singleton.1 hn]; rfl
  have he : ∀ name ∈ p.entities, m.source.entity name = m'.source.entity name := by
    intro name hname
    rw [List.mem_singleton.1 hname]; rfl
  exact ⟨hit, hn, he, run_confined p hit hn he⟩

end Render

end MockSchema
