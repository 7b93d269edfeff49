/-
  MockSchema.Proofs.Composition — what planning is made of.

  Planning comes down to checks of keywords and failures over helpers, one after another and inside the fields of nodes
  (`Composed`): so for every part of a node and, through the helpers, for every expansion (`plan_composed`). What
  each of these steps keeps to is then true of the whole plan, by induction on the steps and without another look at nodes.
-/

import MockSchema.Proofs.Reopening

namespace MockSchema.Planning

/-- Checks of keywords and failures over helpers, one after another and in the fields of nodes. -/
inductive Composed : {α : Type} → Planner α → Prop
  | checks {α : Type} {K : String → Prop} {p : Planner α} : Checks K p → Composed p
  | cycle {α : Type} (chain : List String) : Composed (malformed Keyword.helper (.helperCycle chain) : Planner α)
  | missing {α : Type} (e : StoreError) : Composed (throw ⟨.store e, [Keyword.helper]⟩ : Planner α)
  | notObject {α : Type} : Composed (throw ⟨.node .notObject, []⟩ : Planner α)
  | bind {α β : Type} {p : Planner α} {f : α → Planner β} : Composed p → (∀ a, Composed (f a)) → Composed (p >>= f)
  | inside {α : Type} {p : Planner α} (key : String) : Composed p → Composed (Planning.inside key p)

section
variable {α β : Type} {p : Planner α}

theorem Composed.pure (a : α) : Composed (pure a : Planner α) := .checks (K := fun _ => True) (.pure a)

/-- What is wrong with a node by itself, at any key. -/
theorem Composed.malformed {key : String} {e : StructureError} (he : e.OfNode) : Composed (malformed key e : Planner α) :=
  .checks (Checks.malformed (K := fun _ => True) trivial he)

theorem Composed.map {f : α → β} (h : Composed p) : Composed (f <$> p) := by
  rw [map_eq_pure_bind]
  exact h.bind fun a => .pure (f a)

end

/-! ## The parts of a node -/

section
variable {expand : Value → Row → Planner Plan} {key : String}

theorem planNode_composed (hexp : ∀ helper node, Composed (expand helper node)) {node : Row}
    (hf : Composed (planFields expand node)) : Composed (planNode expand node) := by
  cases hh : Dict.get? node Keyword.helper with
  | some helper =>
    rw [planNode_helper _ hh]
    exact hexp helper node
  | none =>
    rw [planNode_plain _ hh]
    exact (Composed.checks (checks_binding node)).bind fun b => hf.bind fun _ =>
      (Composed.checks (checks_frame node b)).bind fun _ => .pure _

theorem planFields_cons_composed {v : Value} {fields : Row} (hv : Composed (planValue expand key v))
    (hf : Composed (planFields expand fields)) : Composed (planFields expand ((key, v) :: fields)) := by
  rw [planFields_cons]
  split
  · exact hf
  · exact (Composed.checks (checks_targetOf key)).bind fun _ => hv.bind fun _ => hf.bind fun _ => .pure _

theorem planValue_list_composed {vs : List Value} (h : Composed (planRules expand key vs)) :
    Composed (planValue expand key (.list vs)) := by
  cases vs with
  | nil => exact .malformed trivial
  | cons v vs => exact h

theorem planRule_leaf_composed {v : Value} (hn : ∀ node, v ≠ .object node) : Composed (planRule expand key v) := by
  cases v with
  | object node => exact absurd rfl (hn node)
  | str s => exact .checks (checks_expression key _).map
  | _ => exact .malformed trivial

theorem planPart_composed (hexp : ∀ helper node, Composed (expand helper node)) :
    ∀ (p : Part) (x : p.Carrier) (key : String), Composed (planPart expand key p x) :=
  Part.Closed.all
    { node := fun hf key => planNode_composed hexp (hf key)
      noFields := fun _ => .pure _
      field := fun hv hf key => planFields_cons_composed (hv _) (hf key)
      list := fun h key => planValue_list_composed (h key)
      single := fun hl h key => by
        rw [planPart, planValue_single _ _ hl]
        exact (h key).map
      object := fun {node} h key => by
        rw [planPart, planRule_object]
        exact .inside key (Composed.map (h key))
      leaf := fun hn _ => planRule_leaf_composed hn
      noRules := fun _ => .pure _
      rule := fun hv hvs key => Composed.bind (hv key) fun _ => Composed.bind (hvs key) fun _ => .pure _ }

end

/-! ## Expansions -/

section
variable {src : Source}

theorem expandHelper_composed {next : Names → Row → Planner Plan} (hnext : ∀ opened node, Composed (next opened node))
    (opened : Names) (helper : Value) (node : Row) : Composed (expandHelper src next opened helper node) := by
  unfold expandHelper
  split
  · split
    · exact .cycle _
    · split
      · exact hnext _ _
      · exact .missing _
  · exact .malformed trivial

theorem planWithin_composed (n : Nat) (opened : Names) (node : Row) : Composed (planWithin src n opened node) := by
  induction n generalizing opened node with
  | zero => exact planPart_composed (expandHelper_composed (fun _ _ => .cycle _) opened) .node node ""
  | succ n ih => exact planPart_composed (expandHelper_composed ih opened) .node node ""

end

theorem plan_composed (src : Source) (v : Value) : Composed (plan src v) := by
  cases v with
  | object node => exact planWithin_composed _ [] node
  | _ => exact .notObject

end MockSchema.Planning
