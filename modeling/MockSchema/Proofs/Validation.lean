/-
  MockSchema.Proofs.Validation — planning accepts exactly the well-formed nodes.

  `Decides p P Q`: from every sound cache, `p` returns a value with `Q` if `P` holds and fails with a structural
  error if it does not; the cache stays sound. Each check of the planner decides what `WellFormed` asks of
  its keyword, and this goes through the steps of a planner one by one. A node without helpers, at any
  depth, is planned just when it is well formed, and its plan mirrors it (`plan_exact`).
-/

import MockSchema.Proofs.Reopening
import MockSchema.Proofs.WellFormed

namespace MockSchema

/-! ## Sound caches -/

/-- Each text is kept with what it compiles to. -/
def Cache.Sound (c : Cache) : Prop := ∀ s f, Dict.get? c s = some f → Formula.compile s = .ok f

theorem Cache.sound_empty : Cache.Sound [] := fun _ _ h => by cases h

/-- Through a sound cache a text compiles to what it compiles to without one. -/
theorem Cache.Sound.compile {c : Cache} (h : c.Sound) (s : String) :
    ∃ c' : Cache, c'.Sound ∧ c.compile s = (Formula.compile s, c') := by
  unfold Cache.compile
  cases hg : Dict.get? c s with
  | some f => exact ⟨c, h, by rw [h s f hg]⟩
  | none =>
    cases hf : Formula.compile s with
    | error e => exact ⟨c, h, rfl⟩
    | ok f =>
      refine ⟨Dict.put c s f, fun t g hg => ?_, rfl⟩
      rw [Dict.get?_put] at hg
      split at hg
      · rename_i hst
        cases hg
        rw [← hst, hf]
      · exact h t g hg

namespace Planning

/-! ## Deciding -/

section
variable {α β : Type} {p : Planner α} {P P' : Prop} {Q : α → Prop}

/-- A value is returned with `Q` where `P` holds; where it does not, the failure is structural. -/
def Verdict (P : Prop) (Q : α → Prop) : Except SchemaError α → Prop
  | .ok a => P ∧ Q a
  | .error e => ¬ P ∧ e.cause.isStructural = true

def Decides (p : Planner α) (P : Prop) (Q : α → Prop) : Prop :=
  ∀ c : Cache, c.Sound → (p c).2.Sound ∧ Verdict P Q (p c).1

theorem Decides.pure {a : α} (hP : P) (hQ : Q a) : Decides (pure a) P Q := fun _ hc => ⟨hc, hP, hQ⟩

theorem Decides.malformed {key : String} {e : StructureError} (hP : ¬ P) :
    Decides (malformed key e : Planner α) P Q := fun _ hc => ⟨hc, hP, rfl⟩

theorem Decides.bind {f : α → Planner β} {R : β → Prop} (h : Decides p P Q)
    (h' : ∀ a, Q a → Decides (f a) P' R) : Decides (p >>= f) (P ∧ P') R := by
  intro c hc
  obtain ⟨hc', hp⟩ := h c hc
  rw [run_bind]
  rcases hr : p c with ⟨r, c'⟩
  rw [hr] at hc' hp
  cases r with
  | error e => exact ⟨hc', fun hP => hp.1 hP.1, hp.2⟩
  | ok a =>
    obtain ⟨hP, hQ⟩ := hp
    obtain ⟨hc'', hf⟩ := h' a hQ c' hc'
    refine ⟨hc'', ?_⟩
    show Verdict (P ∧ P') R (f a c').1
    cases hs : (f a c').1 with
    | ok b => rw [hs] at hf; exact ⟨⟨hP, hf.1⟩, hf.2⟩
    | error e => rw [hs] at hf; exact ⟨fun hP' => hf.1 hP'.2, hf.2⟩

theorem Decides.imp {R : α → Prop} (h : Decides p P Q) (hP : P ↔ P') (hQ : ∀ a, Q a → R a) :
    Decides p P' R := by
  intro c hc
  obtain ⟨hc', hp⟩ := h c hc
  refine ⟨hc', ?_⟩
  cases hr : (p c).1 with
  | ok a => rw [hr] at hp; exact ⟨hP.1 hp.1, hQ a hp.2⟩
  | error e => rw [hr] at hp; exact ⟨fun h' => hp.1 (hP.2 h'), hp.2⟩

/-- Nothing is decided after `p`. -/
theorem Decides.last {f : α → Planner β} {R : β → Prop} (h : Decides p P Q)
    (h' : ∀ a, Q a → Decides (f a) True R) : Decides (p >>= f) P R :=
  (h.bind h').imp (and_iff_left trivial) fun _ h => h

theorem Decides.map {f : α → β} {R : β → Prop} (h : Decides p P Q) (h' : ∀ a, Q a → R (f a)) :
    Decides (f <$> p) P R := by
  rw [map_eq_pure_bind]
  exact h.last fun a ha => .pure trivial (h' a ha)

theorem Decides.map_any {f : α → β} (h : Decides p P Q) : Decides (f <$> p) P fun _ => True :=
  h.map fun _ _ => trivial

theorem Decides.inside {key : String} (h : Decides p P Q) : Decides (inside key p) P Q := by
  intro c hc
  have hp := h c hc
  rw [run_inside]
  rcases hr : p c with ⟨r, c'⟩
  rw [hr] at hp
  cases r <;> exact hp

theorem Decides.check {key : String} {r : Except StructureError α} (h : (∃ a, r = .ok a) ↔ P) :
    Decides (check key r) P fun a => r = .ok a := by
  unfold Planning.check
  split
  · rename_i a
    exact .pure (h.1 ⟨a, rfl⟩) rfl
  · refine .malformed fun hP => ?_
    obtain ⟨a, ha⟩ := h.2 hP
    cases ha

end

/-! ## Checks of keywords -/

theorem compile_decides (key s : String) :
    Decides (compile key s) (∃ f, Formula.compile s = .ok f) fun f => Formula.compile s = .ok f := by
  intro c hc
  obtain ⟨c', hc', hr⟩ := hc.compile s
  rw [run_compile, hr]
  cases hf : Formula.compile s with
  | ok f => exact ⟨hc', ⟨f, rfl⟩, rfl⟩
  | error e => exact ⟨hc', (fun h => by obtain ⟨f, h⟩ := h; cases h), rfl⟩

theorem expression_decides (key : String) (v : Value) :
    Decides (expression key v) (TextOf IsExpression v) fun f => ∃ s, v = .str s ∧ Formula.compile s = .ok f := by
  unfold expression
  split
  · rename_i s
    split
    · rename_i hb
      refine .malformed ?_
      intro h
      obtain ⟨t, ht, hne, _⟩ := h
      cases ht
      rw [Text.isBlankText_eq_false_iff.2 hne] at hb
      cases hb
    · rename_i hb
      refine (compile_decides key s).imp ⟨fun hf => ⟨s, rfl, ?_, hf⟩, ?_⟩ fun f hf => ⟨s, rfl, hf⟩
      · exact Text.isBlankText_eq_false_iff.1 (by simpa using hb)
      · intro h
        obtain ⟨t, ht, _, hf⟩ := h
        cases ht
        exact hf
  · rename_i hv
    exact .malformed fun ⟨s, hs, _⟩ => hv s hs

theorem optionalExpression_decides (node : Row) (key : String) :
    Decides (optionalExpression node key) (At node key (TextOf IsExpression)) fun _ => True := by
  unfold optionalExpression
  split
  · rename_i v hv
    exact (expression_decides key v).map_any.imp (at_some hv).symm fun _ h => h
  · rename_i hn
    exact .pure (at_none hn) trivial

theorem bound_of_name {node : Row} {v : Value} (hn : Dict.get? node Keyword.name = some v)
    (he : Dict.get? node Keyword.entity = none) : Bound node ↔ TextOf IsName v :=
  ⟨fun h => h.name v hn, fun h => ⟨(at_some hn).2 h, at_none he, by simp [has_none he]⟩⟩

theorem bound_of_entity {node : Row} {v : Value} (hn : Dict.get? node Keyword.name = none)
    (he : Dict.get? node Keyword.entity = some v) : Bound node ↔ TextOf (fun s => IsName s ∨ IsPair s) v :=
  ⟨fun h => h.entity v he, fun h => ⟨at_none hn, (at_some he).2 h, by simp [has_none hn]⟩⟩

theorem binding_decides (node : Row) : Decides (binding node) (Bound node) fun _ => True := by
  unfold binding
  split
  · rename_i hn he
    exact .malformed fun h => h.apart ⟨has_some hn, has_some he⟩
  · rename_i n hn he
    have hb : Bound node ↔ isName n = true := by rw [bound_of_name hn he, textOf_str, isName_iff]
    split
    · rename_i hw; exact .pure (hb.2 hw) trivial
    · rename_i hw; exact .malformed fun h => hw (hb.1 h)
  · rename_i v hv hn he
    refine .malformed fun h => ?_
    obtain ⟨s, hs, _⟩ := (bound_of_name hn he).1 h
    exact hv s hs
  · rename_i s hn he
    have hb : Bound node ↔ (NamePair.ofText? s).isSome = true := by
      rw [bound_of_entity hn he, textOf_str, ofText?_isSome]
    split
    · rename_i hp; exact .pure (hb.2 (by rw [hp]; rfl)) trivial
    · rename_i hp; exact .malformed fun h => by have := hb.1 h; rw [hp] at this; cases this
  · rename_i v hv hn he
    refine .malformed fun h => ?_
    obtain ⟨s, hs, _⟩ := (bound_of_entity hn he).1 h
    exact hv s hs
  · rename_i hn he
    exact .pure ⟨at_none hn, at_none he, by simp [has_none hn]⟩ trivial

theorem reverse_decides (node : Row) : Decides (reverse node)
    (At node Keyword.reverse fun v => (∃ b, v = .bool b) ∨ TextOf IsExpression v) fun _ => True := by
  unfold reverse
  split
  · rename_i hn; exact .pure (at_none hn) trivial
  · rename_i b hb; exact .pure ((at_some hb).2 (Or.inl ⟨b, rfl⟩)) trivial
  · rename_i s hs
    refine (expression_decides Keyword.reverse (.str s)).map_any.imp ?_ fun _ h => h
    rw [at_some hs]
    exact ⟨Or.inr, fun h => h.resolve_left fun hb => by obtain ⟨b, hb⟩ := hb; cases hb⟩
  · rename_i v hb hs hv
    refine .malformed fun h => ?_
    rcases (at_some hv).1 h with ⟨b, e⟩ | ⟨s, e, _⟩
    · exact hb b e
    · exact hs s e

/-! ## Projections -/

theorem stringList_decides (node : Row) (key : String) :
    Decides (stringList node key) (At node key (TextsOf fun _ => True))
      fun r => Dict.get? node key = r.map fun ss => .list (ss.map .str) := by
  unfold stringList
  split
  · rename_i hn; exact .pure (at_none hn) hn
  · rename_i vs hv
    split
    · rename_i ss hss
      rw [strings?_eq] at hss
      subst hss
      exact .pure ((at_some hv).2 ⟨ss, rfl, fun _ _ => trivial⟩) hv
    · rename_i hns
      refine .malformed fun h => ?_
      obtain ⟨ss, hss, _⟩ := (at_some hv).1 h
      rw [strings?_eq.2 (Value.list.inj hss)] at hns
      cases hns
  · rename_i v hl hv
    refine .malformed fun h => ?_
    obtain ⟨ss, hss, _⟩ := (at_some hv).1 h
    exact hl _ hss

section
variable {node : Row}

/-- The strings that the node lists under a key are all like this. -/
theorem at_strings {key : String} {r : Option (List String)} {P : String → Prop}
    (h : Dict.get? node key = r.map fun ss => .list (ss.map .str)) :
    At node key (TextsOf P) ↔ ∀ ss, r = some ss → ∀ s ∈ ss, P s := by
  cases r with
  | none => exact ⟨fun _ ss hss => (by cases hss), fun _ => at_none h⟩
  | some ss =>
    rw [at_some h, textsOf_list]
    exact ⟨fun hs _ e => by cases e; exact hs, fun hs => hs ss rfl⟩

theorem has_strings {key : String} {r : Option (List String)}
    (h : Dict.get? node key = r.map fun ss => .list (ss.map .str)) : Dict.has node key = r.isSome := by
  rw [Dict.has, h]
  cases r <;> rfl

theorem projected_of_only {only : List String}
    (ho : Dict.get? node Keyword.only = some (.list (only.map .str)))
    (he : Dict.get? node Keyword.except = none) (hr : Dict.get? node Keyword.rename = none) :
    Projected node ↔ ∀ s ∈ only, IsName s ∨ IsPair s := by
  have honly : At node Keyword.only (TextsOf fun s => IsName s ∨ IsPair s) ↔ ∀ s ∈ only, IsName s ∨ IsPair s :=
    (at_some ho).trans textsOf_list
  rw [← honly]
  exact ⟨fun h => h.only, fun h => ⟨h, at_none he, at_none hr, fun _ => ⟨has_none he, has_none hr⟩⟩⟩

theorem projected_without_only {except rename : Option (List String)} (ho : Dict.get? node Keyword.only = none)
    (he : Dict.get? node Keyword.except = except.map fun ss => .list (ss.map .str))
    (hr : Dict.get? node Keyword.rename = rename.map fun ss => .list (ss.map .str)) :
    Projected node ↔ (∀ ss, except = some ss → ∀ s ∈ ss, IsName s) ∧ ∀ s ∈ rename.getD [], IsPair s := by
  have hpairs : (∀ s ∈ rename.getD [], IsPair s) ↔ At node Keyword.rename (TextsOf IsPair) := by
    rw [at_strings hr]
    cases rename <;> simp
  rw [hpairs, ← at_strings he]
  refine ⟨fun h => ⟨h.except, h.rename⟩, fun h => ⟨at_none ho, h.1, h.2, fun hh => ?_⟩⟩
  rw [has_none ho] at hh
  cases hh

theorem projection_decides (node : Row) : Decides (projection node) (Projected node) fun _ => True := by
  unfold projection
  -- Each list is read before any is looked into, so what is decided in the end says that all are lists.
  refine ((stringList_decides node Keyword.only).bind fun only ho =>
    (stringList_decides node Keyword.except).bind fun except he =>
    (stringList_decides node Keyword.rename).bind fun rename hr => ?_).imp
      ⟨fun h => h.2.2.2, fun h => ⟨h.only.imp fun _ => TextsOf.texts, h.except.imp fun _ => TextsOf.texts,
        h.rename.imp fun _ => TextsOf.texts, h⟩⟩ fun _ h => h
  cases only with
  | some only =>
    have hboth : ∀ {key}, Dict.has node key = true → (Projected node → Dict.has node key = false) →
        ¬ Projected node := by
      intro key hh hn hp
      rw [hn hp] at hh
      cases hh
    cases except with
    | some _ => exact .malformed (hboth (has_strings he) fun h => (h.alone (has_strings ho)).1)
    | none =>
      cases rename with
      | some _ => exact .malformed (hboth (has_strings hr) fun h => (h.alone (has_strings ho)).2)
      | none =>
        exact (Decides.check (namePairs_ok.trans (projected_of_only ho he hr).symm)).last fun _ _ =>
          .pure trivial trivial
  | none =>
    refine Decides.imp (P := (∀ ss, except = some ss → ∀ s ∈ ss, IsName s) ∧ ∀ s ∈ rename.getD [], IsPair s)
      ?_ (projected_without_only ho he hr).symm fun _ h => h
    have hrename : ∀ selection : Selection, Decides (do
        let renames ← check Keyword.rename (renamePairs (rename.getD []))
        return (⟨selection, renames⟩ : Projection)) (∀ s ∈ rename.getD [], IsPair s) fun _ => True :=
      fun selection => (Decides.check renamePairs_ok).last fun _ _ => .pure trivial trivial
    dsimp only
    cases except with
    | none =>
      have hall : ∀ ss, (none : Option (List String)) = some ss → ∀ s ∈ ss, IsName s := fun _ h => by cases h
      have hsel : Decides (pure Selection.all) _ fun _ => True := .pure hall trivial
      exact hsel.bind fun selection _ => hrename selection
    | some ss =>
      refine ((Decides.check exceptNames_ok).map_any.imp ?_ fun _ h => h).bind fun selection _ => hrename selection
      exact ⟨fun h _ e => by cases e; exact h, fun h => h ss rfl⟩

end

theorem item_decides (node : Row) : Decides (item node) (At node Keyword.item IsItem) fun _ => True := by
  unfold item
  split
  · rename_i v hv
    exact (Decides.check (itemOf_ok.trans (at_some hv).symm)).map_any
  · rename_i hn
    exact .pure (at_none hn) trivial

theorem frame_decides (node : Row) (b : Binding) : Decides (frame node b) (Framed node) fun _ => True := by
  refine ((optionalExpression_decides node Keyword.filter).bind fun _ _ =>
    (optionalExpression_decides node Keyword.sort).bind fun _ _ => (reverse_decides node).bind fun _ _ =>
    (projection_decides node).bind fun _ _ => (item_decides node).last fun _ _ => .pure trivial trivial).imp ?_
      fun _ h => h
  constructor
  · intro h
    obtain ⟨hf, hs, hr, hp, hi⟩ := h
    exact ⟨hf, hs, hr, hp, hi⟩
  · intro h
    obtain ⟨hf, hs, hr, hp, hi⟩ := h
    exact ⟨hf, hs, hr, hp, hi⟩

theorem targetOf_decides (key : String) : Decides (targetOf key) (IsFieldKey key) (Addresses key) := by
  unfold targetOf
  split
  · rename_i t ht
    exact .pure ⟨t, target_some.1 ht⟩ (target_some.1 ht)
  · rename_i hn
    refine .malformed ?_
    intro h
    obtain ⟨t, ht⟩ := h
    rw [target_some.2 ht] at hn
    cases hn

/-! ## Nodes -/

/-- What is asked of a part. -/
def Fits : (p : Part) → p.Carrier → Prop
  | .node, node => WellFormed node
  | .fields, fields => ∀ kv ∈ fields, isKeyword kv.1 = false → IsFieldKey kv.1 ∧ WellRuled kv.2
  | .value, v => WellRuled v
  | .rule, v => IsRule v
  | .rules, vs => ∀ v ∈ vs, IsRule v

/-- The planner decides what is asked of the part, and what it returns mirrors it. -/
abbrev Validates (p : Part) (x : p.Carrier) (q : Planner p.Outcome) : Prop := Decides q (Fits p x) (Mirrors p x)

section
variable {expand : Value → Row → Planner Plan}

theorem planNode_validates {node : Row} (hh : Dict.get? node Keyword.helper = none)
    (hf : Validates .fields node (planFields expand node)) : Validates .node node (planNode expand node) := by
  rw [planNode_plain _ hh]
  refine ((binding_decides node).bind fun b _ => Decides.bind hf fun fields hm =>
    (frame_decides node b).last fun f _ => .pure trivial (.node hm)).imp ?_ fun _ h => h
  constructor
  · intro h
    obtain ⟨hb, hf, hfr⟩ := h
    exact .mk hb (fun kv hkv hk => (hf kv hkv hk).1) (fun kv hkv hk => (hf kv hkv hk).2) hfr
  · intro h
    obtain ⟨hb, hk, hv, hfr⟩ := h
    exact ⟨hb, fun kv hkv h => ⟨hk kv hkv h, hv kv hkv h⟩, hfr⟩

theorem planRule_object_validates {key : String} {node : Row}
    (h : Validates .node node (planNode expand node)) :
    Validates .rule (.object node) (planRule expand key (.object node)) := by
  rw [planRule_object]
  refine (Decides.map h fun p hp => .object hp).inside.imp ⟨.node, fun hr => ?_⟩ fun _ h => h
  cases hr with
  | node hn => exact hn

theorem planRule_leaf_validates {key : String} {v : Value} (hn : ∀ node, v ≠ .object node) :
    Validates .rule v (planRule expand key v) := by
  cases v with
  | object node => exact absurd rfl (hn node)
  | str s =>
    simp only [planRule]
    refine ((expression_decides key (.str s)).map fun f hf => ?_).imp ?_ fun _ h => h
    · obtain ⟨t, ht, hf⟩ := hf
      cases ht
      exact .expression hf
    · rw [textOf_str]
      refine ⟨.expression, fun hr => ?_⟩
      cases hr with
      | expression he => exact he
  | _ => exact .malformed fun hr => by cases hr

theorem planRules_cons_validates {key : String} {v : Value} {vs : List Value}
    (hv : Validates .rule v (planRule expand key v)) (hvs : Validates .rules vs (planRules expand key vs)) :
    Validates .rules (v :: vs) (planRules expand key (v :: vs)) := by
  simp only [planRules]
  refine (Decides.bind hv fun r hr => Decides.last hvs fun rs hrs => .pure trivial (.rule hr hrs)).imp ?_ fun _ h => h
  exact List.forall_mem_cons.symm

theorem planValue_list_validates {key : String} {vs : List Value}
    (h : Validates .rules vs (planRules expand key vs)) :
    Validates .value (.list vs) (planValue expand key (.list vs)) := by
  have hfit : WellRuled (.list vs) ↔ vs ≠ [] ∧ ∀ v ∈ vs, IsRule v := by
    constructor
    · intro h
      cases h with
      | one hr => cases hr
      | list hne hall => exact ⟨hne, hall⟩
    · intro h
      exact .list h.1 h.2
  cases vs with
  | nil => exact .malformed fun h => (hfit.1 h).1 rfl
  | cons v vs =>
    refine h.imp ?_ fun rules hm => .list hm
    exact ⟨fun h => hfit.2 ⟨List.cons_ne_nil _ _, h⟩, fun h => (hfit.1 h).2⟩

theorem planValue_single_validates {key : String} {v : Value} (hl : ∀ vs, v ≠ .list vs)
    (hv : Validates .rule v (planRule expand key v)) : Validates .value v (planValue expand key v) := by
  rw [planValue_single _ _ hl]
  refine (Decides.map hv fun rule hm => .single hm).imp ⟨.one, fun h => ?_⟩ fun _ h => h
  cases h with
  | one hr => exact hr
  | list _ _ => exact absurd rfl (hl _)

theorem planFields_cons_validates {key : String} {v : Value} {fields : Row}
    (hv : isKeyword key = false → Validates .value v (planValue expand key v))
    (hf : Validates .fields fields (planFields expand fields)) :
    Validates .fields ((key, v) :: fields) (planFields expand ((key, v) :: fields)) := by
  rw [planFields_cons]
  split
  · rename_i hk
    refine hf.imp ?_ fun rest hm => .keyword hk hm
    simp [Fits, hk]
  · rename_i hk
    have hk : isKeyword key = false := by simpa using hk
    refine ((targetOf_decides key).bind fun target ht => Decides.bind (hv hk) fun rules hr =>
      Decides.last hf fun rest hm => .pure trivial (.field hk ht hr hm)).imp ?_ fun _ h => h
    simp [Fits, hk, and_assoc]

/-- Where no node names a helper, whatever would plan one that does is not asked. -/
theorem planPart_validates : ∀ (p : Part) (x : p.Carrier), (∀ sub, Holds p x sub → HelperFree sub) →
    ∀ key, Validates p x (planPart expand key p x) :=
  Part.Closed.all
    { node := fun {node} hf h key => by
        cases h node rfl with
        | mk hh hn => exact planNode_validates hh (hf hn key)
      noFields := fun _ _ => .pure (fun _ h => by cases h) .noFields
      field := fun hv hf h key => planFields_cons_validates
        (fun hk => hv (fun sub hs => h sub (holds_cons.2 (Or.inl ⟨hk, hs⟩))) _)
        (hf (fun sub hs => h sub (holds_cons.2 (Or.inr hs))) key)
      list := fun hvs h key => planValue_list_validates (hvs (fun sub hs => h sub (holds_list.2 hs)) key)
      single := fun hl hv h key =>
        planValue_single_validates hl (hv (fun sub hs => h sub ((holds_single hl).2 hs)) key)
      object := fun hn h key => planRule_object_validates (hn (fun sub hs => h sub (hs ▸ rfl)) key)
      leaf := fun hn _ _ => planRule_leaf_validates hn
      noRules := fun _ _ => .pure (fun _ h => by cases h) .noRules
      rule := fun hv hvs h key => planRules_cons_validates
        (hv (fun sub hs => h sub (List.mem_cons.2 (Or.inl hs.symm))) key)
        (hvs (fun sub hs => h sub (List.mem_cons_of_mem _ hs)) key) }

end

theorem plan_decides (src : Source) {v : Value} (hv : ∀ node, v = .object node → HelperFree node) :
    Decides (plan src v) (∃ node, v = .object node ∧ WellFormed node)
      fun p => ∃ node, v = .object node ∧ Mirrors .node node p := by
  cases v with
  | object node =>
    show Decides (planWithin src src.helperNames.length [] node) _ _
    rw [planWithin_eq]
    have hfree : ∀ sub, Holds .node node sub → HelperFree sub := fun sub hs => hs ▸ hv node rfl
    have hnode : Validates .node node (planNode (expander src src.helperNames.length []) node) :=
      planPart_validates .node node hfree ""
    refine Decides.imp hnode ⟨fun hw => ⟨node, rfl, hw⟩, fun h => ?_⟩ fun p hm => ⟨node, rfl, hm⟩
    obtain ⟨node', h, hw⟩ := h
    cases h
    exact hw
  | _ => exact fun c hc => ⟨hc, fun h => (by obtain ⟨node, h, _⟩ := h; cases h), rfl⟩

/-! ## Validation is exact -/

theorem code_of_isStructural {e : SchemaError} (h : e.cause.isStructural = true) :
    e.cause.code = "PQL_SYNTAX_ERROR" ∨ e.cause.code = "PQL_STRUCTURE_ERROR" := by
  unfold SchemaCause.isStructural at h
  split at h
  · rename_i he; exact Or.inl (by rw [he]; rfl)
  · rename_i he; exact Or.inr (by rw [he]; rfl)
  · cases h

/-- A value in which no node names a helper has a plan just if it is a well-formed node, through whatever sound
cache; the plan then mirrors it. Otherwise planning fails for its syntax or its structure, and the cache stays
sound either way. -/
theorem plan_exact (src : Source) (v : Value) (c : Cache) (hc : c.Sound)
    (hv : ∀ node, v = .object node → HelperFree node) :
    ((∃ p c', plan src v c = (.ok p, c')) ↔ ∃ node, v = .object node ∧ WellFormed node) ∧
    (∀ p c', plan src v c = (.ok p, c') →
      ∃ node, v = .object node ∧ Mirrors .node node p ∧ p.fields.map Field.key = fieldKeys node) ∧
    (∀ e c', plan src v c = (.error e, c') →
      e.cause.code = "PQL_SYNTAX_ERROR" ∨ e.cause.code = "PQL_STRUCTURE_ERROR") ∧
    (plan src v c).2.Sound := by
  obtain ⟨hsound, hverdict⟩ := plan_decides src hv c hc
  rcases hp : plan src v c with ⟨r, c'⟩
  rw [hp] at hsound hverdict
  cases r with
  | ok p =>
    obtain ⟨hw, node, hobj, hm⟩ := hverdict
    refine ⟨⟨fun _ => hw, fun _ => ⟨p, c', rfl⟩⟩, fun p' _ h => ?_, fun _ _ h => (by cases h), hsound⟩
    cases h
    cases hm with
    | node hf => exact ⟨node, hobj, .node hf, hf.keys⟩
  | error e =>
    obtain ⟨hw, hs⟩ := hverdict
    refine ⟨⟨fun h => ?_, fun h => absurd h hw⟩, fun _ _ h => (by cases h), fun e' _ h => ?_, hsound⟩
    · obtain ⟨p, _, h⟩ := h
      cases h
    · cases h
      exact code_of_isStructural hs

/-- The planner tells that a node is well formed. -/
theorem well_formed_by_planning :
    let node : Row := [("a", .list [.str "1", .object [("__from__", .str "x:E"), ("__item__", .list [.int 0])]])]
    Cache.Sound [] ∧ HelperFree node ∧ WellFormed node := by
  intro node
  have hinner : HelperFree [("__from__", .str "x:E"), ("__item__", .list [.int 0])] := by
    refine .mk rfl ?_
    intro sub hs
    obtain ⟨kv, hkv, hk, _⟩ := hs
    simp only [List.mem_cons, List.not_mem_nil, or_false] at hkv
    rcases hkv with rfl | rfl <;> cases hk
  have hfree : HelperFree node := by
    refine .mk rfl ?_
    intro sub hs
    obtain ⟨kv, hkv, _, hr⟩ := hs
    rw [List.mem_singleton.1 hkv] at hr
    rcases hr with hr | ⟨vs, hr, hs⟩
    · cases hr
    · cases hr
      simp only [List.mem_cons, reduceCtorEq, Value.object.injEq, List.not_mem_nil, or_false, false_or] at hs
      rw [hs]
      exact hinner
  have hnode : ∀ node', Value.object node = .object node' → HelperFree node' := fun _ h => by cases h; exact hfree
  obtain ⟨_, h, hw⟩ := (plan_exact Memory.empty.source (.object node) [] Cache.sound_empty hnode).1.1 ⟨_, _, rfl⟩
  cases h
  exact ⟨Cache.sound_empty, hfree, hw⟩

end Planning

end MockSchema
