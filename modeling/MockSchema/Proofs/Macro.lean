/-
  MockSchema.Proofs.Macro — helpers are macros.

  What is planned is planned as its expansion is, but for helpers that are named again while
  they are open (`Expands.plan_agrees`). So a plan is the plan of the expansion, which takes
  no helper at all (`plan_expansion`). The argument is by induction on the expansion, with one
  statement for each part of a schema (`Follows`).
-/

import MockSchema.Proofs.Reopening

namespace MockSchema.Planning

variable {src : Source}

/-! ## Planning the expansion instead -/

theorem binding_congr {node out : Row} (h : ∀ key, isKeyword key = true → Dict.get? out key = Dict.get? node key) :
    binding out = binding node := by
  unfold binding
  rw [h Keyword.name (by decide), h Keyword.entity (by decide)]

theorem frame_congr {node out : Row} (h : ∀ key, isKeyword key = true → Dict.get? out key = Dict.get? node key)
    (b : Binding) : frame out b = frame node b := by
  unfold frame optionalExpression reverse projection stringList item
  simp only [h Keyword.filter (by decide), h Keyword.sort (by decide), h Keyword.reverse (by decide),
    h Keyword.only (by decide), h Keyword.except (by decide), h Keyword.rename (by decide),
    h Keyword.item (by decide)]

/-- Planning a part does what planning its expansion does, however nodes that name a helper are
planned there, or fails with a cycle. -/
def Follows (src : Source) : (p : Part) → p.Carrier → p.Carrier → Prop
  | .node, x, y => ∀ n opened, Room src n opened → ∀ expand,
    Agrees (planWithin src n opened x) (planNode expand y)
  | .fields, x, y => ∀ n opened, Room src n opened → ∀ expand,
    Agrees (planFields (expander src n opened) x) (planFields expand y)
  | .value, x, y => ∀ n opened, Room src n opened → ∀ expand key,
    Agrees (planValue (expander src n opened) key x) (planValue expand key y)
  | .rule, x, y => ∀ n opened, Room src n opened → ∀ expand key,
    Agrees (planRule (expander src n opened) key x) (planRule expand key y)
  | .rules, x, y => ∀ n opened, Room src n opened → ∀ expand key,
    Agrees (planRules (expander src n opened) key x) (planRules expand key y)

theorem follows_helper {node merged out : Row} {name : String}
    (hh : Dict.get? node Keyword.helper = some (.str name)) (hm : src.expand name node = .ok merged)
    (h : Follows src .node merged out) : Follows src .node node out := by
  intro n opened hroom expand
  rw [planWithin_eq, planNode_helper _ hh]
  by_cases ho : name ∈ opened
  · have hc : opened.contains name = true := by simpa using ho
    cases n <;> simp only [expander, expandHelper, hc, if_true] <;> exact .cycle
  · have hc : ¬ opened.contains name = true := by simpa using ho
    cases n with
    | zero => exact absurd (hroom.full hm) ho
    | succ n =>
      simp only [expander, expandHelper, if_neg hc, hm]
      exact h n (opened ++ [name]) (hroom.expand ho hm) expand

theorem follows_plain {node out : Row} (hh : Dict.get? node Keyword.helper = none)
    (hf : Expands src .fields node out) (h : Follows src .fields node out) : Follows src .node node out := by
  intro n opened hroom expand
  have hk : ∀ key, isKeyword key = true → Dict.get? out key = Dict.get? node key := fun _ => hf.get?_keyword
  rw [planWithin_eq, planNode_plain _ hh, planNode_plain _ ((hk Keyword.helper (by decide)).trans hh),
    binding_congr hk]
  refine Agrees.rfl.bind fun b => (h n opened hroom expand).bind fun fields => ?_
  rw [frame_congr hk]
  exact .rfl

theorem follows_keyword {key : String} {v : Value} {fields out : Row} (hk : isKeyword key = true)
    (h : Follows src .fields fields out) : Follows src .fields ((key, v) :: fields) ((key, v) :: out) := by
  intro n opened hroom expand
  rw [planFields_cons, planFields_cons, if_pos hk, if_pos hk]
  exact h n opened hroom expand

theorem follows_field {key : String} {v w : Value} {fields out : Row} (hk : isKeyword key = false)
    (hv : Follows src .value v w) (h : Follows src .fields fields out) :
    Follows src .fields ((key, v) :: fields) ((key, w) :: out) := by
  intro n opened hroom expand
  have hk' : ¬ isKeyword key = true := by rw [hk]; exact Bool.false_ne_true
  rw [planFields_cons, planFields_cons, if_neg hk', if_neg hk']
  exact Agrees.rfl.bind fun target => (hv n opened hroom expand key).bind fun rules =>
    (h n opened hroom expand).bind fun rest => .rfl

theorem follows_list {vs ws : List Value} (hw : Expands src .rules vs ws) (h : Follows src .rules vs ws) :
    Follows src .value (.list vs) (.list ws) := by
  intro n opened hroom expand key
  cases hw with
  | noRules => exact .rfl
  | rule _ _ => exact h n opened hroom expand key

theorem follows_single {v w : Value} (hv : ∀ vs, v ≠ .list vs) (hw : Expands src .rule v w)
    (h : Follows src .rule v w) : Follows src .value v w := by
  intro n opened hroom expand key
  have hw' : ∀ vs, w ≠ .list vs := by
    cases hw with
    | object _ => intro vs h; cases h
    | leaf _ => exact hv
  rw [planValue_single _ _ hv, planValue_single _ _ hw']
  exact (h n opened hroom expand key).map _

theorem follows_object {node out : Row} (h : Follows src .node node out) :
    Follows src .rule (.object node) (.object out) := by
  intro n opened hroom expand key
  have h' := h n opened hroom expand
  rw [planWithin_eq] at h'
  rw [planRule_object, planRule_object]
  exact (h'.map _).inside

theorem follows_leaf {v : Value} (hv : ∀ node, v ≠ .object node) : Follows src .rule v v := by
  intro n opened hroom expand key
  cases v with
  | object node => exact absurd rfl (hv node)
  | _ => exact .rfl

theorem follows_rule {v w : Value} {vs ws : List Value} (hv : Follows src .rule v w)
    (h : Follows src .rules vs ws) : Follows src .rules (v :: vs) (w :: ws) := by
  intro n opened hroom expand key
  exact (hv n opened hroom expand key).bind fun r => (h n opened hroom expand key).bind fun rs => .rfl

theorem Expands.follows {p : Part} {x y : p.Carrier} (h : Expands src p x y) : Follows src p x y := by
  induction h with
  | helper hh hm _ ih => exact follows_helper hh hm ih
  | plain hh hf ih => exact follows_plain hh hf ih
  | noFields => exact fun n opened hroom expand => .rfl
  | keyword hk _ ih => exact follows_keyword hk ih
  | field hk _ _ ihv ih => exact follows_field hk ihv ih
  | list hw ih => exact follows_list hw ih
  | single hv hw ih => exact follows_single hv hw ih
  | object _ ih => exact follows_object ih
  | leaf hv => exact follows_leaf hv
  | noRules => exact fun n opened hroom expand key => .rfl
  | rule _ _ ihv ih => exact follows_rule ihv ih

/-! ## Whole schemas -/

/-- Planning a schema does what planning its expansion does, whatever helpers there are then, or
fails with a cycle. -/
theorem Expands.plan_agrees {node out : Row} (h : Expands src .node node out) (src' : Source) :
    Agrees (plan src (.object node)) (plan src' (.object out)) := by
  have := h.follows _ _ (Room.start src) (expander src' src'.helperNames.length [])
  rwa [← planWithin_eq] at this

/-- What is planned is a node with one expansion. No node in that names a helper, and it
has the same plan, whatever helpers there are. -/
theorem plan_expansion {v : Value} {c c' : Cache} {p : Plan} (h : plan src v c = (.ok p, c')) :
    ∃ node out, v = .object node ∧ Expands src .node node out ∧
      (∀ out', Expands src .node node out' → out' = out) ∧ HelperFree out ∧
      ∀ src', plan src' (.object out) c = (.ok p, c') := by
  cases v with
  | object node =>
    obtain ⟨⟨out, hout⟩, _⟩ := (plan_spec src node).ok h
    refine ⟨node, out, rfl, hout, fun out' h' => h'.unique hout, hout.helperFree out rfl, fun src' => ?_⟩
    rcases hout.plan_agrees src' c with ha | ⟨e, c'', he, _⟩
    · rw [← ha, h]
    · rw [h] at he; cases he
  | _ => cases h

/-- A template under a field that the node adds, planned again without any helper. -/
theorem plan_of_template_and_field :
    ∃ node out p c', Dict.get? node Keyword.helper = some (.str "h") ∧
      plan (Memory.empty.insertHelper "h" (.object [("v", .str "1")])).source (.object node) [] = (.ok p, c') ∧
      HelperFree out ∧ plan Memory.empty.source (.object out) [] = (.ok p, c') := by
  have h : ∃ p c', plan (Memory.empty.insertHelper "h" (.object [("v", .str "1")])).source
      (.object [("__helper__", .str "h"), ("w", .str "v")]) [] = (.ok p, c') := ⟨_, _, rfl⟩
  obtain ⟨p, c', h⟩ := h
  obtain ⟨node, out, hv, _, _, hfree, hplan⟩ := plan_expansion h
  cases hv
  exact ⟨_, out, p, c', rfl, h, hfree, hplan Memory.empty.source⟩

end MockSchema.Planning
