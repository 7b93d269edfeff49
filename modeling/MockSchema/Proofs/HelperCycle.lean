/-
  MockSchema.Proofs.HelperCycle — which nodes are refused as helper cycles.

  `Refers src a b`: the template of `a` names `b`, at its top or in a node inside it. The planner
  does not look at this graph. It refuses a node that names a helper while that is open, and a helper stays
  open while its template is planned with the naming node's own fields laid over it: a node in one
  of these fields may name the helper once more without any cycle
  (`own_field_refused`). `cycle_refused` says when exactly a node is refused; where the graph
  has no cycle, that takes a node that names a helper and has another such node in its
  own fields.
-/

import MockSchema.Proofs.Macro

open Relation (ReflTransGen TransGen)

namespace MockSchema

namespace Planning

/-- A node under a template's keys names the helper that the template names. -/
theorem get?_overTemplate (template node : Row) :
    Dict.get? (overTemplate template node) Keyword.helper = Dict.get? template Keyword.helper := by
  refine Dict.get?_overlay_of_not_mem _ fun h => ?_
  obtain ⟨kv, hkv, hkey⟩ := List.mem_map.1 h
  have hne := (List.mem_filter.1 hkv).2
  rw [hkey] at hne
  exact absurd hne (by decide)

theorem nested_overTemplate {template node sub : Row} (h : Nested (overTemplate template node) sub) :
    Nested template sub ∨ Nested node sub := by
  obtain ⟨kv, hkv, hs⟩ := h
  rcases Dict.mem_overlay hkv with hkv | hkv
  · exact Or.inl ⟨kv, hkv, hs⟩
  · exact Or.inr ⟨kv, (List.mem_filter.1 hkv).1, hs⟩

/-! ## References -/

/-- The node names `name`, or a node inside it does. -/
def Mentions (node : Row) (name : String) : Prop :=
  ∃ sub, ReflTransGen Nested node sub ∧ Dict.get? sub Keyword.helper = some (.str name)

def Refers (src : Source) (a b : String) : Prop :=
  ∃ template, src.helper a = .ok template ∧ Mentions template b

def Cyclic (src : Source) : Prop := ∃ a, TransGen (Refers src) a a

/-- In it is a node that names a helper over fields of its own that mention one. -/
def LaysOver (node : Row) : Prop :=
  ∃ sub a inner b, ReflTransGen Nested node sub ∧ Dict.get? sub Keyword.helper = some (.str a) ∧
    Nested sub inner ∧ Mentions inner b

theorem Mentions.nested {node sub : Row} {name : String} (hn : Nested node sub) (h : Mentions sub name) :
    Mentions node name := by
  obtain ⟨sub', hw, hh⟩ := h
  exact ⟨sub', .head hn hw, hh⟩

theorem LaysOver.nested {node sub : Row} (hn : Nested node sub) (h : LaysOver sub) : LaysOver node := by
  obtain ⟨sub', a, inner, b, hw, h⟩ := h
  exact ⟨sub', a, inner, b, .head hn hw, h⟩

section
variable {node template : Row} {a b : String}

/-- Where a node's own fields mention no helper, what it mentions under a template is the template's. -/
theorem mentions_overTemplate (ha : Dict.get? node Keyword.helper = some (.str a)) (ho : ¬ LaysOver node)
    (h : Mentions (overTemplate template node) b) : Mentions template b := by
  obtain ⟨sub, hw, hh⟩ := h
  rcases hw.cases_head with rfl | ⟨inner, hn, hw⟩
  · rw [get?_overTemplate] at hh
    exact ⟨template, .refl, hh⟩
  · rcases nested_overTemplate hn with hn | hn
    · exact ⟨sub, .head hn hw, hh⟩
    · exact absurd ⟨node, a, inner, b, .refl, ha, hn, sub, hw, hh⟩ ho

theorem laysOver_overTemplate (ha : Dict.get? node Keyword.helper = some (.str a)) (ho : ¬ LaysOver node)
    (h : LaysOver (overTemplate template node)) : LaysOver template := by
  obtain ⟨sub, b, inner, d, hw, hh, hn, hm⟩ := h
  rcases hw.cases_head with rfl | ⟨sub', hn', hw⟩
  · rw [get?_overTemplate] at hh
    rcases nested_overTemplate hn with hn | hn
    · exact ⟨template, b, inner, d, .refl, hh, hn, hm⟩
    · exact absurd ⟨node, a, inner, d, .refl, ha, hn, hm⟩ ho
  · rcases nested_overTemplate hn' with hn' | hn'
    · exact ⟨sub, b, inner, d, .head hn' hw, hh, hn, hm⟩
    · exact absurd (LaysOver.nested hn' ⟨sub, b, inner, d, hw, hh, hn, hm⟩) ho

end

/-! ## Ways through the graph -/

/-- Every open helper refers, by some way, to every helper that the node mentions. -/
structure Led (src : Source) (s : Names × Row) : Prop where
  refers : ∀ a ∈ s.1, ∀ b, Mentions s.2 b → TransGen (Refers src) a b
  plain : ¬ LaysOver s.2

theorem Led.step {src : Source} (ht : ∀ a template, src.helper a = .ok template → ¬ LaysOver template)
    {s s' : Names × Row} (h : Led src s) (hs : Step src s s') : Led src s' := by
  cases hs with
  | @expand opened name node merged hh ho hm =>
    unfold Source.expand at hm
    cases htn : src.helper name with
    | error e => rw [htn] at hm; cases hm
    | ok template =>
      rw [htn] at hm
      cases hm
      refine ⟨fun a ha b hb => ?_, fun hl => ht name template htn (laysOver_overTemplate hh h.plain hl)⟩
      have hb : Refers src name b := ⟨template, htn, mentions_overTemplate hh h.plain hb⟩
      rcases List.mem_append.1 ha with ha | ha
      · exact (h.refers a ha name ⟨node, .refl, hh⟩).tail hb
      · rw [List.mem_singleton.1 ha]; exact .single hb
  | nested _ hn => exact ⟨fun a ha b hb => h.refers a ha b (hb.nested hn), fun hl => h.plain (hl.nested hn)⟩

theorem Led.steps {src : Source} (ht : ∀ a template, src.helper a = .ok template → ¬ LaysOver template)
    {s s' : Names × Row} (h : Led src s) (hw : ReflTransGen (Step src) s s') : Led src s' := by
  induction hw with
  | refl => exact h
  | tail _ hs ih => exact ih.step ht hs

/-- Where nothing is laid over that mentions a helper, a helper reopened is a cycle. -/
theorem cyclic_of_reopens {src : Source} {node : Row}
    (ht : ∀ a template, src.helper a = .ok template → ¬ LaysOver template) (hn : ¬ LaysOver node)
    (h : Reopens src [] node) : Cyclic src := by
  obtain ⟨opened, sub, name, hw, hh, ho⟩ := h
  have hl := Led.steps ht ⟨fun a ha => (by cases ha), hn⟩ hw
  exact ⟨name, hl.refers name ho name ⟨sub, .refl, hh⟩⟩

/-! ## What is refused -/

/-- A node is refused as a cycle only if it reopens a helper. One whose expansion has a plan is
refused just if it does, and has the same plan if it does not. Without a cycle among the
templates, a helper is reopened only through a node that names one over fields of its own
that mention one. -/
theorem cycle_refused (src : Source) (node : Row) (c : Cache) :
    (∀ e c', plan src (.object node) c = (.error e, c') → e.IsCycle → Reopens src [] node) ∧
    (∀ src' out p c', Expands src .node node out → plan src' (.object out) c = (.ok p, c') →
      ((∃ e c'', plan src (.object node) c = (.error e, c'') ∧ e.IsCycle) ↔ Reopens src [] node) ∧
      (plan src (.object node) c = (.ok p, c') ↔ ¬ Reopens src [] node)) ∧
    (¬ Cyclic src → Reopens src [] node →
      LaysOver node ∨ ∃ a template, src.helper a = .ok template ∧ LaysOver template) := by
  have hspec := plan_spec src node
  have hcycle : ∀ e c', plan src (.object node) c = (.error e, c') → e.IsCycle → Reopens src [] node := by
    intro e c' he hc
    obtain ⟨_, rfl, hr⟩ := hspec.error he hc
    exact hr
  refine ⟨hcycle, ?_, ?_⟩
  · intro src' out p c' hout hp
    rcases hout.plan_agrees src' c with ha | ⟨e, c'', he, hc⟩
    · rw [ha, hp]
      have hr : ¬ Reopens src [] node := (hspec.ok (ha.trans hp)).2 node rfl
      refine ⟨⟨?_, fun h => absurd h hr⟩, fun _ => hr, fun _ => rfl⟩
      rintro ⟨e, c'', he, _⟩
      cases he
    · have hr := hcycle e c'' he hc
      refine ⟨⟨fun _ => hr, fun _ => ⟨e, c'', he, hc⟩⟩, fun h => ?_, fun h => absurd hr h⟩
      rw [he] at h
      cases h
  · intro hcyc hr
    by_contra h
    obtain ⟨hn, ht⟩ := not_or.1 h
    exact hcyc (cyclic_of_reopens (fun a template ha hl => ht ⟨a, template, ha, hl⟩) hn hr)

/-! ### A field that names its node's helper -/

/-- The one helper here is a template without references. -/
def leafSource : Source := (Memory.empty.insertHelper "h" (.object [("v", .str "1")])).source

/-- A node that names it, with a field that does. -/
def twice : Row := [("__helper__", .str "h"), ("x", .object [("__helper__", .str "h")])]

theorem leafSource_helper {name : String} {template : Row} (h : leafSource.helper name = .ok template) :
    template = [("v", .str "1")] := by
  simp only [leafSource, Memory.source, Memory.helper, Memory.insertHelper, Memory.empty, Dict.put, Dict.get?] at h
  split at h
  · rename_i v hv
    split at hv
    · cases hv; cases h; rfl
    · cases hv
  · cases h

theorem leafSource_refers (a b : String) : ¬ Refers leafSource a b := by
  rintro ⟨template, ht, sub, hw, hh⟩
  obtain rfl := leafSource_helper ht
  rcases hw.cases_head with rfl | ⟨inner, ⟨kv, hkv, _, hr⟩, _⟩
  · simp [Dict.get?, Keyword.helper] at hh
  · rw [List.mem_singleton.1 hkv] at hr
    rcases hr with hr | ⟨vs, hr, _⟩ <;> cases hr

theorem twice_expands : Expands leafSource .node twice [("v", .str "1"), ("x", .object [("v", .str "1")])] := by
  have hv : Expands leafSource .value (.str "1") (.str "1") :=
    .single (by intro vs h; cases h) (.leaf (by intro node h; cases h))
  have hleaf : Expands leafSource .node [("__helper__", .str "h")] [("v", .str "1")] :=
    .helper rfl (rfl : leafSource.expand "h" _ = .ok [("v", .str "1")])
      (.plain rfl (.field (by decide) hv .noFields))
  have hm : leafSource.expand "h" twice =
      .ok [("v", .str "1"), ("x", .object [("__helper__", .str "h")])] := rfl
  refine .helper rfl hm (.plain rfl (.field (by decide) hv (.field (by decide) ?_ .noFields)))
  exact .single (by intro vs h; cases h) (.object hleaf)

/-- Refused as a cycle, though no template refers to any helper and the expansion is at hand. -/
theorem own_field_refused :
    ¬ Cyclic leafSource ∧ (∃ out, Expands leafSource .node twice out) ∧
      ∃ e c, plan leafSource (.object twice) [] = (.error e, c) ∧ e.IsCycle := by
  refine ⟨?_, ⟨_, twice_expands⟩, ?_⟩
  · rintro ⟨a, h⟩
    obtain ⟨b, _, h⟩ := TransGen.tail'_iff.1 h
    exact leafSource_refers _ _ h
  · exact ⟨_, _, rfl, trivial⟩

end Planning

end MockSchema
