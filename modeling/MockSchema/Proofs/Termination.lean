/-
  MockSchema.Proofs.Termination — planning ends, for every node and every source.

  A way of the planner opens a helper of the source that is not open yet, or goes on to a smaller node, so
  there is no endless way (`Room.acc`): the measure is the number of helpers still to be opened and, for
  as long as that stays, the size of the node. `planWithin` counts these helpers. The count never shows:
  along the way its plans are those of the recursion without one (`planned_eq`), and no other function
  solves that recursion (`Solves.unique`).

  `Endless` is about the expansion alone, with no helper refused: a node whose references never come to
  an end. Such a node has no expansion, so it has no plan.
-/

import Mathlib.Order.WellFounded
import MockSchema.Proofs.Reopening

open Relation (ReflTransGen)

namespace MockSchema.Planning

/-! ## Ways end -/

theorem Ruled.size_lt {v : Value} {sub : Row} (h : Ruled v sub) : sizeOf sub < sizeOf v := by
  rcases h with rfl | ⟨vs, rfl, hvs⟩
  · simp
  · have hlt := List.sizeOf_lt_of_mem hvs
    simp only [Value.object.sizeOf_spec] at hlt
    simp only [Value.list.sizeOf_spec]
    omega

theorem Nested.size_lt {node sub : Row} (h : Nested node sub) : sizeOf sub < sizeOf node := by
  obtain ⟨kv, hkv, _, hr⟩ := h
  have hlt := List.sizeOf_lt_of_mem hkv
  have hv := hr.size_lt
  obtain ⟨key, v⟩ := kv
  simp only [Prod.mk.sizeOf_spec] at hlt hv
  omega

section
variable {src : Source} {n : Nat} {opened : Names}

/-- Ways that open no helper end because nodes get smaller. -/
theorem acc_of_expand (h : ∀ name node merged, name ∉ opened → src.expand name node = .ok merged →
    Acc (fun s' s => Step src s s') (opened ++ [name], merged)) (node : Row) :
    Acc (fun s' s => Step src s s') (opened, node) := by
  induction hs : sizeOf node using Nat.strongRecOn generalizing node with
  | ind size ih =>
    refine .intro _ fun s' hstep => ?_
    cases hstep with
    | expand _ ho hm => exact h _ _ _ ho hm
    | nested _ hsub => exact ih _ (hs ▸ hsub.size_lt) _ rfl

theorem Room.acc (hroom : Room src n opened) (node : Row) :
    Acc (fun s' s => Step src s s') (opened, node) := by
  induction n generalizing opened node with
  | zero => exact acc_of_expand (fun name node merged ho hm => absurd (hroom.full hm) ho) node
  | succ n ih => exact acc_of_expand (fun name node merged ho hm => ih (hroom.expand ho hm) merged) node

/-- The open helpers are helpers of the source. -/
theorem Step.known {s s' : Names × Row} (h : Step src s s')
    (ho : ∀ name ∈ s.1, ∃ template, src.helper name = .ok template) :
    ∀ name ∈ s'.1, ∃ template, src.helper name = .ok template := by
  cases h with
  | @expand opened name node merged _ _ hm =>
    intro a ha
    rcases List.mem_append.1 ha with ha | ha
    · exact ho a ha
    · rw [List.mem_singleton.1 ha]
      unfold Source.expand at hm
      cases ht : src.helper name with
      | error e => rw [ht] at hm; cases hm
      | ok template => exact ⟨template, rfl⟩
  | nested _ _ => exact ho

theorem Step.room {s s' : Names × Row} (h : Step src s s') (hroom : ∃ n, Room src n s.1) :
    ∃ n, Room src n s'.1 := by
  obtain ⟨n, hroom⟩ := hroom
  cases h with
  | expand _ ho hm =>
    cases n with
    | zero => exact absurd (hroom.full hm) ho
    | succ n => exact ⟨n, hroom.expand ho hm⟩
  | nested _ _ => exact ⟨n, hroom⟩

/-- What a step does: it opens one more helper, or goes on to a smaller node. -/
theorem Step.smaller {s s' : Names × Row} (h : Step src s s') :
    (∃ name, name ∉ s.1 ∧ s'.1 = s.1 ++ [name]) ∨ (s'.1 = s.1 ∧ sizeOf s'.2 < sizeOf s.2) := by
  cases h with
  | expand _ ho _ => exact Or.inl ⟨_, ho, rfl⟩
  | nested _ hsub => exact Or.inr ⟨rfl, hsub.size_lt⟩

/-- What holds along the way from a node. -/
theorem way_invariant {node : Row} {s : Names × Row} (h : ReflTransGen (Step src) ([], node) s) :
    (∃ n, Room src n s.1) ∧ ∀ name ∈ s.1, ∃ template, src.helper name = .ok template := by
  induction h with
  | refl => exact ⟨⟨_, Room.start src⟩, fun name h => by cases h⟩
  | tail _ hstep ih => exact ⟨hstep.room ih.1, hstep.known ih.2⟩

end

/-! ## The recursion without a count -/

section
variable {src : Source} {expand expand' : Value → Row → Planner Plan}

theorem planRules_congr {key : String} {vs : List Value}
    (h : ∀ sub, Holds .rules vs sub → planNode expand sub = planNode expand' sub) :
    planRules expand key vs = planRules expand' key vs := by
  induction vs with
  | nil => rfl
  | cons v vs ih =>
    have hv : planRule expand key v = planRule expand' key v := by
      cases v with
      | object node => rw [planRule_object, planRule_object, h node (List.mem_cons_self ..)]
      | _ => rfl
    have hvs := ih fun sub hs => h sub (List.mem_cons_of_mem _ hs)
    simp only [planRules, hv, hvs]

theorem planValue_congr {key : String} {v : Value}
    (h : ∀ sub, Holds .value v sub → planNode expand sub = planNode expand' sub) :
    planValue expand key v = planValue expand' key v := by
  cases v with
  | list vs =>
    cases vs with
    | nil => rfl
    | cons v vs => exact planRules_congr fun sub hs => h sub (holds_list.2 hs)
  | object node =>
    have hn := h node (Or.inl rfl)
    simp only [planValue, planRule_object, hn]
  | _ => rfl

/-- The plans of the fields depend on those of the nodes that they hold. -/
theorem planFields_congr {fields : Row}
    (h : ∀ sub, Nested fields sub → planNode expand sub = planNode expand' sub) :
    planFields expand fields = planFields expand' fields := by
  induction fields with
  | nil => rfl
  | cons kv fields ih =>
    obtain ⟨key, v⟩ := kv
    have hf := ih fun sub hs => h sub (holds_cons.2 (Or.inr hs))
    rw [planFields_cons, planFields_cons, hf]
    by_cases hk : isKeyword key = true
    · rw [if_pos hk, if_pos hk]
    · have hv : planValue expand key v = planValue expand' key v :=
        planValue_congr fun sub hs => h sub (holds_cons.2 (Or.inl ⟨by simpa using hk, hs⟩))
      rw [if_neg hk, if_neg hk, hv]

theorem expandHelper_congr {next next' : Names → Row → Planner Plan} {opened : Names} {helper : Value}
    {node : Row} (h : ∀ name merged, helper = .str name → name ∉ opened → src.expand name node = .ok merged →
      next (opened ++ [name]) merged = next' (opened ++ [name]) merged) :
    expandHelper src next opened helper node = expandHelper src next' opened helper node := by
  unfold expandHelper
  split
  · rename_i name
    split
    · rfl
    · rename_i ho
      split
      · rename_i merged hm
        exact h name merged rfl (by simpa using ho) hm
      · rfl
  · rfl

end

/-- What is planned when these helpers are open, with the count that is left then. -/
def planned (src : Source) (opened : Names) (node : Row) : Planner Plan :=
  planWithin src (src.helperNames.length - opened.length) opened node

/-- While one more helper can be opened there is a count for it. -/
theorem planned_eq {src : Source} {n : Nat} {opened : Names} (hroom : Room src n opened) (node : Row) :
    planned src opened node = planNode (expandHelper src (planned src) opened) node := by
  have hleft : Room src (src.helperNames.length - opened.length) opened :=
    ⟨hroom.nodup, hroom.known, by omega⟩
  have hexp : expander src (src.helperNames.length - opened.length) opened =
      expandHelper src (planned src) opened := by
    funext helper node
    cases hn : src.helperNames.length - opened.length with
    | zero =>
      rw [hn] at hleft
      simp only [expander]
      exact expandHelper_congr fun name merged _ ho hm => absurd (hleft.full hm) ho
    | succ n =>
      refine expandHelper_congr fun name merged _ ho hm => ?_
      have hlen : src.helperNames.length - (opened ++ [name]).length = n := by
        rw [List.length_append, List.length_singleton]
        omega
      unfold planned
      rw [hlen]
  rw [← hexp]
  exact planWithin_eq src _ opened node

/-- Along the way from the node, `next` plans a node by the rules for one node, with itself for what a helper
stands for: the recursion as it is, without a count. -/
def Solves (src : Source) (node : Row) (next : Names → Row → Planner Plan) : Prop :=
  ∀ s, ReflTransGen (Step src) ([], node) s → next s.1 s.2 = planNode (expandHelper src next s.1) s.2

theorem planned_solves (src : Source) (node : Row) : Solves src node (planned src) := by
  intro s hs
  obtain ⟨n, hroom⟩ := (way_invariant hs).1
  exact planned_eq hroom s.2

/-- Two solutions agree along the way. By induction on the ways that go on from a state: a node's plan is made of
those of its steps. -/
theorem Solves.unique {src : Source} {node : Row} {next next' : Names → Row → Planner Plan}
    (h : Solves src node next) (h' : Solves src node next') {s : Names × Row}
    (hacc : Acc (fun s' s => Step src s s') s) (hs : ReflTransGen (Step src) ([], node) s) :
    next s.1 s.2 = next' s.1 s.2 := by
  induction hacc with
  | intro s _ ih =>
    obtain ⟨opened, sub⟩ := s
    rw [h _ hs, h' _ hs]
    cases hh : Dict.get? sub Keyword.helper with
    | some helper =>
      rw [planNode_helper _ hh, planNode_helper _ hh]
      refine expandHelper_congr fun name merged hname ho hm => ?_
      have hstep : Step src (opened, sub) (opened ++ [name], merged) := .expand (hname ▸ hh) ho hm
      exact ih _ hstep (hs.tail hstep)
    | none =>
      have hfields : planFields (expandHelper src next opened) sub =
          planFields (expandHelper src next' opened) sub := by
        refine planFields_congr fun inner hn => ?_
        have hstep : Step src (opened, sub) (opened, inner) := .nested hh hn
        have hinner := hs.tail hstep
        rw [← h _ hinner, ← h' _ hinner]
        exact ih _ hstep hinner
      rw [planNode_plain _ hh, planNode_plain _ hh, hfields]

/-! ## References without an end -/

/-- From a node to what it stands for, or to a node in one of its fields, whatever is open. -/
inductive Unfolds (src : Source) : Row → Row → Prop
  | expand {name : String} {node merged : Row} :
      Dict.get? node Keyword.helper = some (.str name) → src.expand name node = .ok merged →
      Unfolds src node merged
  | nested {node sub : Row} :
      Dict.get? node Keyword.helper = none → Nested node sub → Unfolds src node sub

/-- The node's references can be followed for ever. -/
def Endless (src : Source) (node : Row) : Prop :=
  ∃ way : ℕ → Row, way 0 = node ∧ ∀ i, Unfolds src (way i) (way (i + 1))

/-- What has an expansion comes to an end. -/
theorem Expands.acc {src : Source} {p : Part} {x y : p.Carrier} (h : Expands src p x y) :
    ∀ sub, Holds p x sub → Acc (fun t s => Unfolds src s t) sub := by
  induction h with
  | @helper node merged out name hh hm _ ih =>
    intro sub hs
    cases hs
    refine .intro _ fun t ht => ?_
    cases ht with
    | expand hh' hm' =>
      rw [hh] at hh'; cases hh'
      rw [hm] at hm'; cases hm'
      exact ih merged rfl
    | nested hh' _ => rw [hh] at hh'; cases hh'
  | @plain node out hh _ ih =>
    intro sub hs
    cases hs
    refine .intro _ fun t ht => ?_
    cases ht with
    | expand hh' _ => rw [hh] at hh'; cases hh'
    | nested _ hn => exact ih t hn
  | noFields => intro sub hs; simp [Holds] at hs
  | keyword hk _ ih =>
    intro sub hs
    rcases holds_cons.1 hs with ⟨hk', _⟩ | hs
    · rw [hk] at hk'; cases hk'
    · exact ih sub hs
  | field _ _ _ ihv ih =>
    intro sub hs
    rcases holds_cons.1 hs with ⟨_, hs⟩ | hs
    · exact ihv sub hs
    · exact ih sub hs
  | list _ ih => intro sub hs; exact ih sub (holds_list.1 hs)
  | single hv _ ih => intro sub hs; exact ih sub ((holds_single hv).1 hs)
  | object _ ih => intro sub hs; cases hs; exact ih _ rfl
  | leaf hv => intro sub hs; exact absurd hs (hv _)
  | noRules => intro sub hs; cases hs
  | rule _ _ ihv ih =>
    intro sub hs
    rcases List.mem_cons.1 hs with hs | hs
    · exact ihv sub hs.symm
    · exact ih sub hs

theorem Endless.no_expansion {src : Source} {node out : Row} (h : Endless src node) :
    ¬ Expands src .node node out := by
  intro he
  have hn : ¬ Acc (fun t s => Unfolds src s t) node := not_acc_iff_exists_descending_chain.2 h
  exact hn (he.acc node rfl)

/-! ## Planning ends -/

/-- No way of the planner goes on for ever. The helpers open along it are distinct helpers of the source, and
between two expansions nodes get smaller. So the planner's recursion has one solution there, which is
the plan; and a node whose references never come to an end has none. -/
theorem plan_terminates (src : Source) (node : Row) :
    (¬ ∃ way : ℕ → Names × Row, way 0 = ([], node) ∧ ∀ i, Step src (way i) (way (i + 1))) ∧
    (∀ s, ReflTransGen (Step src) ([], node) s →
      s.1.Nodup ∧ (∀ name ∈ s.1, ∃ template, src.helper name = .ok template) ∧
      ∀ s', Step src s s' →
        (∃ name, name ∉ s.1 ∧ s'.1 = s.1 ++ [name]) ∨ (s'.1 = s.1 ∧ sizeOf s'.2 < sizeOf s.2)) ∧
    ((∃ next, Solves src node next) ∧
      ∀ next, Solves src node next → next [] node = plan src (.object node)) ∧
    (Endless src node → ∀ c, ∃ e c', plan src (.object node) c = (.error e, c')) := by
  have hacc := (Room.start src).acc node
  refine ⟨fun h => not_acc_iff_exists_descending_chain.2 h hacc, fun s hs => ?_, ⟨?_, ?_⟩, ?_⟩
  · obtain ⟨⟨n, hroom⟩, ho⟩ := way_invariant hs
    exact ⟨hroom.nodup, ho, fun s' => Step.smaller⟩
  · exact ⟨planned src, planned_solves src node⟩
  · intro next h
    exact h.unique (planned_solves src node) hacc .refl
  · intro h c
    rcases hp : plan src (.object node) c with ⟨r, c'⟩
    cases r with
    | error e => exact ⟨e, c', rfl⟩
    | ok p =>
      obtain ⟨⟨out, hout⟩, _⟩ := (plan_spec src node).ok hp
      exact absurd hout h.no_expansion

/-- A template with itself in one of its fields has no plan. -/
theorem self_nested_never_planned :
    let src := (Memory.empty.insertHelper "h" (.object [("x", .object [("__helper__", .str "h")])])).source
    Endless src [("__helper__", .str "h")] ∧
      ∃ e c', plan src (.object [("__helper__", .str "h")]) [] = (.error e, c') := by
  intro src
  have hup : Unfolds src [("__helper__", .str "h")] [("x", .object [("__helper__", .str "h")])] := .expand rfl rfl
  have hdown : Unfolds src [("x", .object [("__helper__", .str "h")])] [("__helper__", .str "h")] :=
    .nested rfl ⟨_, List.mem_singleton_self _, rfl, Or.inl rfl⟩
  have h : Endless src [("__helper__", .str "h")] := by
    refine ⟨fun i => if i % 2 = 0 then [("__helper__", .str "h")] else [("x", .object [("__helper__", .str "h")])],
      rfl, fun i => ?_⟩
    rcases Nat.mod_two_eq_zero_or_one i with hi | hi
    · have hi' : (i + 1) % 2 = 1 := by omega
      simpa [hi, hi'] using hup
    · have hi' : (i + 1) % 2 = 0 := by omega
      simpa [hi, hi'] using hdown
  exact ⟨h, (plan_terminates src _).2.2.2 h []⟩

end MockSchema.Planning
