/-
  MockSchema.Proofs.StructuralFailure — which structural failures come from the node alone.

  A failure is structural by its code, and two of the causes with that code are found at a value: a current row that
  is no object, and a value that cannot be spliced (`OfValue`). Planning never fails so, and a run fails
  structurally in no other way. The other structural failures are the planner's, and what is planned depends
  on the node and on the helpers (`plan_congr`), so they come back with every environment and all entities
  (`apply_structural`). A current row that is no object never does: it is the `it` of the environment itself,
  as inside a node there is always a row.
-/

import MockSchema.Proofs.FailurePath
import MockSchema.Proofs.SharedCache
import MockSchema.Proofs.Termination

open Relation (ReflTransGen)

namespace MockSchema

/-- A value of the run is at fault: the current row, or what a field splices. -/
def StructureError.OfValue : StructureError → Prop
  | .rowNotObject _ => True
  | .badSplice _ => True
  | _ => False

def SchemaError.OfValue (e : SchemaError) : Prop :=
  match e.cause with
  | .node e => e.OfValue
  | _ => False

theorem SchemaError.OfNode.not_ofValue {e : SchemaError} (h : e.OfNode) : ¬ e.OfValue := by
  obtain ⟨cause, trail⟩ := e
  cases cause with
  | node e => cases e <;> first | exact id | exact h.elim
  | expression e => exact id
  | store e => exact id

/-- What is bound to `it`, if anything is, can stand as the current row. -/
def Env.HasRow (env : Env) : Prop := ∀ v, Dict.get? env Env.it = some v → v = .null ∨ ∃ row, v = .object row

theorem Env.hasRow_enter (env : Env) (rowName : Option String) (row : Row) : (env.enter rowName row).HasRow := by
  intro v hv
  have hit : Dict.get? (env.enter rowName row) Env.it = some (.object row) := by
    cases rowName with
    | none => simp only [enter, bind, Dict.get?_put, if_true]
    | some a => simp only [enter, bind, Dict.get?_put, if_true, ite_self]
  rw [hit] at hv
  cases hv
  exact Or.inr ⟨row, rfl⟩

/-! ## Planning -/

namespace Planning

/-- No failure is found at a value. -/
abbrev Blind {α : Type} (p : Planner α) : Prop := Ensures p (fun _ => True) fun e => ¬ e.OfValue

theorem Composed.blind {α : Type} {p : Planner α} (h : Composed p) : Blind p := by
  induction h with
  | checks h => exact h.ensures.imp (fun _ h => h) fun _ he => he.2.not_ofValue
  | cycle _ => exact .throw id
  | missing _ => exact .throw id
  | notObject => exact .throw id
  | bind _ _ ih ihf => exact ih.bind fun a _ => ihf a
  | inside _ _ ih => exact ih.inside fun _ he => he

theorem plan_blind (src : Source) (v : Value) : Blind (plan src v) := (plan_composed src v).blind

/-! ## The same helpers -/

section
variable {src src' : Source}

theorem Step.congr (h : src.expand = src'.expand) {s s' : Names × Row} (hs : Step src s s') : Step src' s s' := by
  cases hs with
  | expand hh ho hm => exact .expand hh ho (h ▸ hm)
  | nested hh hn => exact .nested hh hn

/-- Sources with the same helpers give a value the same plan. The planner's way looks at no entity, so the plans of
the one solve the recursion of the other, and that has one solution. -/
theorem plan_congr (h : ∀ name, src.helper name = src'.helper name) (v : Value) : plan src v = plan src' v := by
  have hexpand : src.expand = src'.expand := by
    funext name node
    rw [Source.expand, Source.expand, h]
  cases v with
  | object node =>
    have hsolves : Solves src node (planned src') := by
      intro s hs
      have hstep : ∀ s s', Step src s s' → Step src' s s' := fun _ _ hstep => hstep.congr hexpand
      have hs' : ReflTransGen (Step src') ([], node) s := hs.lift id hstep
      have hown : expandHelper src (planned src') s.1 = expandHelper src' (planned src') s.1 := by
        funext helper node
        unfold expandHelper
        rw [hexpand]
      rw [hown]
      exact planned_solves src' node s hs'
    exact (planned_solves src node).unique hsolves ((Room.start src).acc node) .refl
  | _ => rfl

end

end Planning

/-! ## Runs -/

/-- A failure of a run in this environment: it is not structural, or a splice failed, or there is no row. -/
inductive SchemaError.OfRun (env : Env) (e : SchemaError) : Prop
  | data : e.cause.isStructural = false → OfRun env e
  | splice {type : String} : e.cause = .node (.badSplice type) → OfRun env e
  | noRow {type : String} :
      e.cause = .node (.rowNotObject type) → e.trail = [Keyword.name] → ¬ env.HasRow → OfRun env e

namespace SchemaError

variable {env env' : Env} {e : SchemaError}

/-- A failure in a nested node is not for want of a row. -/
theorem OfRun.inside (h : e.OfRun env) (hrow : env.HasRow) (key : String) : (e.inside key).OfRun env' := by
  cases h with
  | data h => exact .data h
  | splice h => exact .splice h
  | noRow _ _ hn => exact absurd hrow hn

theorem OfRun.ofValue (h : e.OfRun env) (hs : e.cause.isStructural = true) : e.OfValue := by
  cases h with
  | data h => rw [hs] at h; cases h
  | splice h => simp only [OfValue, h, StructureError.OfValue]
  | noRow h _ _ => simp only [OfValue, h, StructureError.OfValue]

end SchemaError

namespace Render

section
variable {src : Source} {env : Env} {e : SchemaError}

theorem FailedAt.ofRun {key : String} (h : FailedAt key e) : e.OfRun env := by
  obtain ⟨cause, rfl⟩ := h
  exact .data rfl

theorem candidates_ofRun {b : Binding} (h : candidates src env b = .error e) : e.OfRun env := by
  cases b with
  | fresh => cases h
  | name n =>
    simp only [candidates] at h
    split at h
    · cases h
    · cases h
    · cases h
    · rename_i v hnull hobject hv
      cases h
      refine .noRow rfl rfl fun hrow => ?_
      rcases hrow v hv with rfl | ⟨row, rfl⟩
      · exact hnull rfl
      · exact hobject row rfl
  | entity a n =>
    simp only [candidates] at h
    split at h <;> cases h
    exact .data rfl

theorem merge_ofRun {field : Field} {row : Row} {v : Value} (h : merge field row v = .error e) : e.OfRun env := by
  unfold merge at h
  split at h <;> cases h
  exact .splice rfl

end

section
variable {src : Source}

mutual

/-- By induction on the plan, for all environments: those of the nested plans have a row. -/
theorem run_ofRun : ∀ (p : Plan) {env : Env} {e : SchemaError}, run src env p = .error e → e.OfRun env
  | .mk _ fields, _, _, h =>
    run_error (fun _ => candidates_ofRun) (fun _ _ _ => FailedAt.ofRun) (fun _ _ _ => build_ofRun fields) h
  termination_by structural p => p

theorem build_ofRun : ∀ (fields : List Field) {env : Env} {rowName : Option String} {row : Row} {e : SchemaError},
    build src env rowName fields row = .error e → e.OfRun env
  | [], _, _, _, _, h => by cases h
  | .mk key target rules :: fields, env, rowName, row, e, h => by
    simp only [build] at h
    rcases bind_error h with h | ⟨v, _, h⟩
    · exact lastOf_ofRun rules h
    · rcases bind_error h with h | ⟨row', _, h⟩
      · exact merge_ofRun h
      · exact build_ofRun fields h
  termination_by structural fields => fields

theorem lastOf_ofRun : ∀ (rules : List Rule) {env : Env} {rowName : Option String} {key : String} {row : Row}
    {v : Value} {e : SchemaError}, lastOf src env rowName key row rules v = .error e → e.OfRun env
  | [], _, _, _, _, _, _, h => by cases h
  | rule :: rules, env, rowName, key, row, v, e, h => by
    simp only [lastOf] at h
    rcases bind_error h with h | ⟨w, _, h⟩
    · exact valueOf_ofRun rule h
    · exact lastOf_ofRun rules h
  termination_by structural rules => rules

theorem valueOf_ofRun : ∀ (rule : Rule) {env : Env} {rowName : Option String} {key : String} {row : Row}
    {e : SchemaError}, valueOf src env rowName key row rule = .error e → e.OfRun env
  | .formula f, env, rowName, key, row, e, h => by
    simp only [valueOf] at h
    exact (evaluated_error h).ofRun
  | .node p, env, rowName, key, row, e, h => by
    simp only [valueOf] at h
    obtain ⟨e', he', rfl⟩ := inside_error h
    exact (run_ofRun p he').inside (env.hasRow_enter rowName row) key
  termination_by structural rule => rule

end

end

/-! ## Failures of a value -/

theorem apply_error {src : Source} {env : Env} {v : Value} {c : Cache} {e : SchemaError}
    (h : (apply src env v c).1 = .error e) :
    (∃ c₁, Planning.plan src v c = (.error e, c₁)) ∨
      ∃ p c₁, Planning.plan src v c = (.ok p, c₁) ∧ run src env p = .error e := by
  unfold apply at h
  rcases hp : Planning.plan src v c with ⟨r, c₁⟩
  rw [hp] at h
  cases r with
  | error e' => cases h; exact Or.inl ⟨c₁, rfl⟩
  | ok p => exact Or.inr ⟨p, c₁, rfl, h⟩

/-- What the planner fails with does not depend on the environment, nor on the entities of the source, nor on what is
in the cache. -/
theorem apply_unplanned {src src' : Source} (hsame : ∀ name, src.helper name = src'.helper name) {v : Value}
    {c c' c₁ : Cache} {e : SchemaError} (hc : c.Sound) (hc' : c'.Sound)
    (h : Planning.plan src v c = (.error e, c₁)) (env' : Env) : (apply src' env' v c').1 = .error e := by
  have hfresh : (Planning.plan src' v c').1 = .error e := by
    rw [← Planning.plan_congr hsame v, (Planning.plan_fresh src v c' hc').1, ← (Planning.plan_fresh src v c hc).1, h]
  unfold apply
  rcases hp : Planning.plan src' v c' with ⟨r, c₂⟩
  rw [hp] at hfresh
  cases hfresh
  rfl

/-- A structural failure that is not found at a value is the failure with every environment, and over every source with
the same helpers. It is found at a value exactly when the node has a plan, so that the failure is the run's.
For want of a row a value fails at its own `__name__` only, and then never where `it` is a row. -/
theorem apply_structural {src src' : Source} (hsame : ∀ name, src.helper name = src'.helper name) {env : Env}
    {v : Value} {c c' : Cache} (hc : c.Sound) (hc' : c'.Sound) {e : SchemaError}
    (h : (apply src env v c).1 = .error e) (hs : e.cause.isStructural = true) :
    (¬ e.OfValue → ∀ env', (apply src' env' v c').1 = .error e) ∧
    (e.OfValue ↔ ∃ p c₁, Planning.plan src v c = (.ok p, c₁)) ∧
    ∀ type, e.cause = .node (.rowNotObject type) → e.trail = [Keyword.name] ∧ ¬ env.HasRow ∧
      ∀ env', env'.HasRow → (apply src' env' v c').1 ≠ .error e := by
  refine ⟨fun hn env' => ?_, ⟨fun hv => ?_, ?_⟩, fun type htype => ?_⟩
  · rcases apply_error h with ⟨c₁, hp⟩ | ⟨p, c₁, _, hrun⟩
    · exact apply_unplanned hsame hc hc' hp env'
    · exact absurd ((run_ofRun p hrun).ofValue hs) hn
  · rcases apply_error h with ⟨c₁, hp⟩ | ⟨p, c₁, hp, _⟩
    · exact absurd hv ((Planning.plan_blind src v).error hp)
    · exact ⟨p, c₁, hp⟩
  · rintro ⟨p, c₁, hp⟩
    rcases apply_error h with ⟨c₂, hp'⟩ | ⟨_, _, _, hrun⟩
    · rw [hp] at hp'; cases hp'
    · exact (run_ofRun _ hrun).ofValue hs
  · have hrow : ∀ {src₁ : Source} {env₁ : Env} {c₁ : Cache}, (apply src₁ env₁ v c₁).1 = .error e →
        e.trail = [Keyword.name] ∧ ¬ env₁.HasRow := by
      intro src₁ env₁ c₁ h₁
      rcases apply_error h₁ with ⟨c₂, hp⟩ | ⟨p, _, _, hrun⟩
      · refine absurd ?_ ((Planning.plan_blind src₁ v).error hp)
        simp only [SchemaError.OfValue, htype, StructureError.OfValue]
      · cases run_ofRun p hrun with
        | data hd => rw [hs] at hd; cases hd
        | splice hsplice => rw [htype] at hsplice; cases hsplice
        | noRow _ ht hn => exact ⟨ht, hn⟩
    obtain ⟨ht, hn⟩ := hrow h
    exact ⟨ht, hn, fun env' henv' h' => (hrow h').2 henv'⟩

/-- A template without a rule in one of its fields, under two environments and over different entities. -/
theorem apply_structural_in_template :
    let m := Memory.empty.insertHelper "h" (.object [("x", .list [])])
    let src := m.source
    let src' := (m.insertEntity "E" (.list [.object []])).source
    let v : Value := .object [("__from__", .str "E"), ("a", .object [("__helper__", .str "h")])]
    let e : SchemaError := ⟨.node .noRules, ["a", "x"]⟩
    (∀ name, src.helper name = src'.helper name) ∧ Cache.Sound [] ∧ (apply src [] v []).1 = .error e ∧
      e.cause.isStructural = true ∧ ¬ e.OfValue ∧ (apply src' [("it", .int 1)] v []).1 = .error e := by
  intro m src src' v e
  have hsame : ∀ name, src.helper name = src'.helper name := fun _ => rfl
  have h : (apply src [] v []).1 = .error e := rfl
  have hn : ¬ e.OfValue := id
  exact ⟨hsame, Cache.sound_empty, h, rfl, hn,
    (apply_structural hsame Cache.sound_empty Cache.sound_empty h rfl).1 hn [("it", .int 1)]⟩

/-- Structural by its code, and gone with another environment: a current row that is a number, and a number that is
spliced. -/
theorem structural_at_a_value :
    let src := Memory.empty.source
    let named : Value := .object [("__name__", .str "me"), ("x", .str "1")]
    let spliced : Value := .object [("**p", .str "x")]
    ((∃ e, (apply src [("it", .int 3)] named []).1 = .error e ∧ e.cause.isStructural = true) ∧
      (apply src [] named []).1 = .ok (.list [.object [("x", .int 1)]])) ∧
    (∃ e, (apply src [("x", .int 1)] spliced []).1 = .error e ∧ e.cause.isStructural = true) ∧
      (apply src [("x", .null)] spliced []).1 = .ok (.list [.object []]) := by
  intro src named spliced
  exact ⟨⟨⟨⟨.node (.rowNotObject "int"), ["__name__"]⟩, rfl, rfl⟩, rfl⟩,
    ⟨⟨.node (.badSplice "int"), ["**p"]⟩, rfl, rfl⟩, rfl⟩

end Render

end MockSchema
