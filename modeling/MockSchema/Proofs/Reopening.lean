/-
  MockSchema.Proofs.Reopening — the way of the planner through a schema, and what it comes to.

  `Step` is one step of the planner from a node to one that it plans on its way, with the helpers
  that are open then; `Reopens` says that some way of steps ends at a node that names an open one.
  A planner that returns has planned a node with an expansion and reopened nothing; one that fails
  with a cycle has reopened a helper (`planWithin_spec`).

  The fuel of `planWithin` is never what stops it: the open helpers are distinct helpers of the source,
  so while one more can be opened there is fuel for it (`Room`).
-/

import Mathlib.Data.List.Perm.Subperm
import Mathlib.Logic.Relation
import MockSchema.Proofs.Expansion
import MockSchema.Proofs.Outcome

open Relation (ReflTransGen)

namespace MockSchema.Planning

/-! ## The way of the planner -/

/-- From the helpers open and a node to those and a node that is planned next. -/
inductive Step (src : Source) : Names × Row → Names × Row → Prop
  | expand {opened : Names} {name : String} {node merged : Row} :
      Dict.get? node Keyword.helper = some (.str name) → name ∉ opened →
      src.expand name node = .ok merged → Step src (opened, node) (opened ++ [name], merged)
  | nested {opened : Names} {node sub : Row} :
      Dict.get? node Keyword.helper = none → Nested node sub → Step src (opened, node) (opened, sub)

/-- Some way from here ends at a node that names a helper open there. -/
def Reopens (src : Source) (opened : Names) (node : Row) : Prop :=
  ∃ opened' sub name, ReflTransGen (Step src) (opened, node) (opened', sub) ∧
    Dict.get? sub Keyword.helper = some (.str name) ∧ name ∈ opened'

section
variable {src : Source} {opened : Names} {node merged : Row} {name : String}

theorem Reopens.here (hh : Dict.get? node Keyword.helper = some (.str name)) (ho : name ∈ opened) :
    Reopens src opened node :=
  ⟨opened, node, name, .refl, hh, ho⟩

theorem reopens_expand (hh : Dict.get? node Keyword.helper = some (.str name)) (ho : name ∉ opened)
    (hm : src.expand name node = .ok merged) :
    Reopens src opened node ↔ Reopens src (opened ++ [name]) merged := by
  constructor
  · rintro ⟨opened', sub, name', hw, hs, hn⟩
    rcases hw.cases_head with he | ⟨_, hstep, hw⟩
    · cases he
      rw [hh] at hs; cases hs
      exact absurd hn ho
    · cases hstep with
      | expand hh' _ hm' =>
        rw [hh] at hh'; cases hh'
        rw [hm] at hm'; cases hm'
        exact ⟨opened', sub, name', hw, hs, hn⟩
      | nested hh' _ => rw [hh] at hh'; cases hh'
  · rintro ⟨opened', sub, name', hw, hs, hn⟩
    exact ⟨opened', sub, name', .head (.expand hh ho hm) hw, hs, hn⟩

theorem reopens_plain (hh : Dict.get? node Keyword.helper = none) :
    Reopens src opened node ↔ ∃ sub, Nested node sub ∧ Reopens src opened sub := by
  constructor
  · rintro ⟨opened', sub, name', hw, hs, hn⟩
    rcases hw.cases_head with he | ⟨_, hstep, hw⟩
    · cases he
      rw [hh] at hs; cases hs
    · cases hstep with
      | expand hh' _ _ => rw [hh] at hh'; cases hh'
      | nested _ hsub => exact ⟨_, hsub, opened', sub, name', hw, hs, hn⟩
  · rintro ⟨sub', hsub, opened', sub, name', hw, hs, hn⟩
    exact ⟨opened', sub, name', .head (.nested hh hsub) hw, hs, hn⟩

end

/-! ## Fuel -/

theorem expand_known {src : Source} {name : String} {node merged : Row}
    (hm : src.expand name node = .ok merged) : name ∈ src.helperNames := by
  unfold Source.expand at hm
  cases ht : src.helper name with
  | error e => rw [ht] at hm; cases hm
  | ok t => exact src.helper_known name t ht

/-- The open helpers are distinct helpers of the source, and `n` more can be opened. -/
structure Room (src : Source) (n : Nat) (opened : Names) : Prop where
  nodup : opened.Nodup
  known : opened ⊆ src.helperNames
  enough : src.helperNames.length ≤ n + opened.length

theorem Room.start (src : Source) : Room src src.helperNames.length [] where
  nodup := .nil
  known := List.nil_subset _
  enough := Nat.le_refl _

section
variable {src : Source} {n : Nat} {opened : Names} {name : String} {node merged : Row}

theorem Room.expand (h : Room src (n + 1) opened) (ho : name ∉ opened)
    (hm : src.expand name node = .ok merged) : Room src n (opened ++ [name]) where
  nodup := by
    rw [List.nodup_append]
    refine ⟨h.nodup, by simp, ?_⟩
    rintro a ha b hb rfl
    rw [List.mem_singleton] at hb
    exact ho (hb ▸ ha)
  known := by
    intro a ha
    rcases List.mem_append.1 ha with ha | ha
    · exact h.known ha
    · rw [List.mem_singleton.1 ha]; exact expand_known hm
  enough := by
    have := h.enough
    simp only [List.length_append, List.length_singleton]
    omega

/-- Without fuel every helper of the source is open. -/
theorem Room.full (h : Room src 0 opened) (hm : src.expand name node = .ok merged) : name ∈ opened := by
  have hp : opened.Perm src.helperNames :=
    (List.subperm_of_subset h.nodup h.known).perm_of_length_le (by have := h.enough; omega)
  exact hp.mem_iff.2 (expand_known hm)

end

/-! ## The planners of the parts -/

/-- How `planWithin` plans a node that names a helper. -/
def expander (src : Source) : Nat → Names → Value → Row → Planner Plan
  | 0, opened => expandHelper src (fun opened _ => malformed Keyword.helper (.helperCycle opened)) opened
  | n + 1, opened => expandHelper src (planWithin src n) opened

theorem planWithin_eq (src : Source) (n : Nat) (opened : Names) (node : Row) :
    planWithin src n opened node = planNode (expander src n opened) node := by
  cases n <;> rfl

theorem planNode_helper (expand : Value → Row → Planner Plan) {node : Row} {helper : Value}
    (hh : Dict.get? node Keyword.helper = some helper) : planNode expand node = expand helper node := by
  unfold planNode
  rw [hh]

theorem planNode_plain (expand : Value → Row → Planner Plan) {node : Row}
    (hh : Dict.get? node Keyword.helper = none) : planNode expand node = (do
      let b ← binding node
      let fields ← planFields expand node
      return .mk (← frame node b) fields) := by
  unfold planNode
  rw [hh]

/-- The rules of a field. -/
def planValue (expand : Value → Row → Planner Plan) (key : String) : Value → Planner (List Rule)
  | .list [] => malformed key .noRules
  | .list (v :: vs) => planRules expand key (v :: vs)
  | v => (fun r => [r]) <$> planRule expand key v

theorem planValue_single (expand : Value → Row → Planner Plan) (key : String) {v : Value}
    (hv : ∀ vs, v ≠ .list vs) : planValue expand key v = (fun r => [r]) <$> planRule expand key v := by
  cases v with
  | list vs => exact absurd rfl (hv vs)
  | _ => rfl

theorem planFields_cons (expand : Value → Row → Planner Plan) (key : String) (v : Value) (fields : Row) :
    planFields expand ((key, v) :: fields) =
      if isKeyword key then planFields expand fields
      else do
        let target ← targetOf key
        let rules ← planValue expand key v
        return .mk key target rules :: (← planFields expand fields) := by
  cases v with
  | list vs => cases vs <;> rfl
  | _ => rfl

theorem planRule_object (expand : Value → Row → Planner Plan) (key : String) (node : Row) :
    planRule expand key (.object node) = inside key (.node <$> planNode expand node) := by
  simp only [planRule, planNode]
  split
  · rfl
  · simp only [map_bind, map_pure]

/-- The planner of a part, in the field `key`. -/
def planPart (expand : Value → Row → Planner Plan) (key : String) : (p : Part) → p.Carrier → Planner p.Outcome
  | .node, node => planNode expand node
  | .fields, fields => planFields expand fields
  | .value, v => planValue expand key v
  | .rule, v => planRule expand key v
  | .rules, vs => planRules expand key vs

/-! ## What a planner comes to -/

/-- What is returned is for a part with an expansion, none of whose nodes reopens a helper; a cycle
is a helper reopened. -/
def Spec {α : Type} (src : Source) (opened : Names) (p : Part) (x : p.Carrier) (q : Planner α) : Prop :=
  Ensures q (fun _ => (∃ y, Expands src p x y) ∧ ∀ sub, Holds p x sub → ¬ Reopens src opened sub)
    fun e => e.IsCycle → ∃ sub, Holds p x sub ∧ Reopens src opened sub

section
variable {src : Source} {opened : Names} {expand : Value → Row → Planner Plan}

/-- What plans the nodes that name a helper comes to what it should. -/
def Opens (src : Source) (opened : Names) (expand : Value → Row → Planner Plan) : Prop :=
  ∀ helper node, Dict.get? node Keyword.helper = some helper → Spec src opened .node node (expand helper node)

theorem planNode_spec {node : Row} (hexp : Opens src opened expand)
    (hf : Spec src opened .fields node (planFields expand node)) :
    Spec src opened .node node (planNode expand node) := by
  cases hh : Dict.get? node Keyword.helper with
  | some helper =>
    rw [planNode_helper _ hh]
    exact hexp helper node hh
  | none =>
    rw [planNode_plain _ hh]
    refine (checks_binding node).acyclic.bind fun b _ => ?_
    refine Ensures.bind (hf.imp (fun _ h => h) fun e he hc => ?_) ?_
    · exact ⟨node, rfl, (reopens_plain hh).2 (he hc)⟩
    · rintro fields ⟨⟨out, hout⟩, hsub⟩
      refine (checks_frame node b).acyclic.bind fun f _ => .pure ⟨⟨out, .plain hh hout⟩, ?_⟩
      rintro _ rfl h
      obtain ⟨sub, hn, hr⟩ := (reopens_plain hh).1 h
      exact hsub sub hn hr

theorem planRule_object_spec {key : String} {node : Row}
    (h : Spec src opened .node node (planNode expand node)) :
    Spec src opened .rule (.object node) (planRule expand key (.object node)) := by
  rw [planRule_object]
  refine Ensures.inside (Ensures.map h ?_) ?_
  · rintro _ ⟨⟨out, hout⟩, hr⟩
    refine ⟨⟨_, .object hout⟩, ?_⟩
    rintro sub hs
    cases hs
    exact hr node rfl
  · intro e he hc
    obtain ⟨sub, rfl, hr⟩ := he hc
    exact ⟨node, rfl, hr⟩

theorem planRules_cons_spec {key : String} {v : Value} {vs : List Value}
    (hv : Spec src opened .rule v (planRule expand key v))
    (hvs : Spec src opened .rules vs (planRules expand key vs)) :
    Spec src opened .rules (v :: vs) (planRules expand key (v :: vs)) := by
  simp only [planRules]
  refine Ensures.bind (hv.imp (fun _ h => h) ?_) ?_
  · intro e he hc
    obtain ⟨sub, hs, hr⟩ := he hc
    exact ⟨sub, List.mem_cons.2 (Or.inl hs.symm), hr⟩
  · rintro r ⟨⟨w, hw⟩, hsub⟩
    refine Ensures.bind (hvs.imp (fun _ h => h) ?_) ?_
    · intro e he hc
      obtain ⟨sub, hs, hr⟩ := he hc
      exact ⟨sub, List.mem_cons_of_mem _ hs, hr⟩
    · rintro rs ⟨⟨ws, hws⟩, hsubs⟩
      refine .pure ⟨⟨_, .rule hw hws⟩, fun sub hs => ?_⟩
      rcases List.mem_cons.1 hs with hs | hs
      · exact hsub sub hs.symm
      · exact hsubs sub hs

theorem planValue_list_spec {key : String} {vs : List Value}
    (h : Spec src opened .rules vs (planRules expand key vs)) :
    Spec src opened .value (.list vs) (planValue expand key (.list vs)) := by
  cases vs with
  | nil => exact .malformed fun h => absurd h id
  | cons v vs =>
    refine h.imp ?_ ?_
    · rintro _ ⟨⟨ws, hws⟩, hsub⟩
      exact ⟨⟨_, .list hws⟩, fun sub hs => hsub sub (holds_list.1 hs)⟩
    · intro e he hc
      obtain ⟨sub, hs, hr⟩ := he hc
      exact ⟨sub, holds_list.2 hs, hr⟩

theorem planValue_single_spec {key : String} {v : Value} (hl : ∀ vs, v ≠ .list vs)
    (hv : Spec src opened .rule v (planRule expand key v)) :
    Spec src opened .value v (planValue expand key v) := by
  rw [planValue_single _ _ hl]
  refine (Ensures.map hv ?_).imp (fun _ h => h) ?_
  · rintro _ ⟨⟨w, hw⟩, hsub⟩
    exact ⟨⟨_, .single hl hw⟩, fun sub hs => hsub sub ((holds_single hl).1 hs)⟩
  · intro e he hc
    obtain ⟨sub, hs, hr⟩ := he hc
    exact ⟨sub, (holds_single hl).2 hs, hr⟩

theorem planFields_cons_spec {key : String} {v : Value} {fields : Row}
    (hv : Spec src opened .value v (planValue expand key v))
    (hf : Spec src opened .fields fields (planFields expand fields)) :
    Spec src opened .fields ((key, v) :: fields) (planFields expand ((key, v) :: fields)) := by
  rw [planFields_cons]
  split
  · rename_i hk
    refine hf.imp ?_ ?_
    · rintro _ ⟨⟨out, hout⟩, hsub⟩
      refine ⟨⟨_, .keyword hk hout⟩, fun sub hs => ?_⟩
      rcases holds_cons.1 hs with ⟨hk', _⟩ | hs
      · rw [hk] at hk'; cases hk'
      · exact hsub sub hs
    · intro e he hc
      obtain ⟨sub, hs, hr⟩ := he hc
      exact ⟨sub, holds_cons.2 (Or.inr hs), hr⟩
  · rename_i hk
    rw [Bool.not_eq_true] at hk
    refine (checks_targetOf key).acyclic.bind fun target _ => ?_
    refine Ensures.bind (hv.imp (fun _ h => h) ?_) ?_
    · intro e he hc
      obtain ⟨sub, hs, hr⟩ := he hc
      exact ⟨sub, holds_cons.2 (Or.inl ⟨hk, hs⟩), hr⟩
    · rintro rules ⟨⟨w, hw⟩, hsub⟩
      refine Ensures.bind (hf.imp (fun _ h => h) ?_) ?_
      · intro e he hc
        obtain ⟨sub, hs, hr⟩ := he hc
        exact ⟨sub, holds_cons.2 (Or.inr hs), hr⟩
      · rintro rest ⟨⟨out, hout⟩, hsubs⟩
        refine .pure ⟨⟨_, .field hk hw hout⟩, fun sub hs => ?_⟩
        rcases holds_cons.1 hs with ⟨_, hs⟩ | hs
        · exact hsub sub hs
        · exact hsubs sub hs

theorem planRule_leaf_spec {key : String} {v : Value} (hn : ∀ node, v ≠ .object node) :
    Spec src opened .rule v (planRule expand key v) := by
  cases v with
  | object node => exact absurd rfl (hn node)
  | str s =>
    simp only [planRule]
    exact (checks_expression key _).acyclic.map fun _ _ => ⟨⟨_, .leaf hn⟩, fun sub h => absurd h (hn sub)⟩
  | _ => exact .malformed fun h => absurd h id

theorem planPart_spec (hexp : Opens src opened expand) : ∀ (p : Part) (x : p.Carrier) (key : String),
    Spec src opened p x (planPart expand key p x) :=
  Part.Closed.all
    { node := fun hf key => planNode_spec hexp (hf key)
      noFields := fun _ => .pure ⟨⟨[], .noFields⟩, fun sub h => by simp [Holds] at h⟩
      field := fun hv hf key => planFields_cons_spec (hv _) (hf key)
      list := fun h key => planValue_list_spec (h key)
      single := fun hl h key => planValue_single_spec hl (h key)
      object := fun h key => planRule_object_spec (h key)
      leaf := fun hn _ => planRule_leaf_spec hn
      noRules := fun _ => .pure ⟨⟨[], .noRules⟩, fun sub h => by cases h⟩
      rule := fun hv hvs key => planRules_cons_spec (hv key) (hvs key) }

end

section
variable {src : Source} {opened : Names}

theorem expandHelper_spec {next : Names → Row → Planner Plan} {helper : Value} {node : Row}
    (hh : Dict.get? node Keyword.helper = some helper)
    (hnext : ∀ name merged, name ∉ opened → src.expand name node = .ok merged →
      Spec src (opened ++ [name]) .node merged (next (opened ++ [name]) merged)) :
    Spec src opened .node node (expandHelper src next opened helper node) := by
  unfold expandHelper
  split
  · rename_i name
    split
    · rename_i ho
      exact .malformed fun _ => ⟨node, rfl, .here hh (by simpa using ho)⟩
    · rename_i ho
      have ho : name ∉ opened := by simpa using ho
      split
      · rename_i merged hm
        refine (hnext name merged ho hm).imp ?_ ?_
        · rintro _ ⟨⟨out, hout⟩, hsub⟩
          refine ⟨⟨out, .helper hh hm hout⟩, ?_⟩
          rintro _ rfl hr
          exact hsub merged rfl ((reopens_expand hh ho hm).1 hr)
        · intro e he hc
          obtain ⟨_, rfl, hr⟩ := he hc
          exact ⟨node, rfl, (reopens_expand hh ho hm).2 hr⟩
      · exact .throw fun h => absurd h id
  · exact .malformed fun h => absurd h id

theorem expander_opens (n : Nat) : ∀ {opened : Names}, Room src n opened →
    Opens src opened (expander src n opened) := by
  induction n with
  | zero =>
    intro opened hroom helper node hh
    exact expandHelper_spec hh fun name merged ho hm => absurd (hroom.full hm) ho
  | succ n ih =>
    intro opened hroom helper node hh
    refine expandHelper_spec hh fun name merged ho hm => ?_
    have hexp := ih (hroom.expand ho hm)
    rw [planWithin_eq]
    exact planPart_spec hexp .node merged ""

theorem planWithin_spec {n : Nat} (hroom : Room src n opened) (node : Row) :
    Spec src opened .node node (planWithin src n opened node) := by
  rw [planWithin_eq]
  exact planPart_spec (expander_opens n hroom) .node node ""

end

theorem plan_spec (src : Source) (node : Row) : Spec src [] .node node (plan src (.object node)) :=
  planWithin_spec (Room.start src) node

end MockSchema.Planning
