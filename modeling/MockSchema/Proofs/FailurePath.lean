/-
  MockSchema.Proofs.FailurePath — where the path of a failure leads.

  The trail of a failure is put together from its end: the failing key first, then the key of each field around
  it. Read from its start it leads from the outermost node through the fields of the expanded nodes (`Leads`) to
  the node that failed, and ends at a key of it (`Present`). That is proved of planning and of the run of what was
  planned at once: `Locates` says of the planner of a part that its failures, and those of every run of
  what it returns, are located in the part.
-/

import MockSchema.Proofs.Reopening
import MockSchema.Proofs.WellFormed
import MockSchema.Schema.Render

namespace MockSchema

/-! ## Paths -/

namespace SchemaError

theorem pathOf_ne {ks : List String} (hks : ks ≠ []) (h : ∀ k ∈ ks, k ≠ "") : pathOf ks ≠ "" := by
  cases ks with
  | nil => exact absurd rfl hks
  | cons k ks =>
    have hk := h k List.mem_cons_self
    simp only [pathOf]
    split
    · exact hk
    · simp [hk]

theorem pathOf_eq {ks : List String} (h : ∀ k ∈ ks, k ≠ "") : pathOf ks = "/".intercalate ks := by
  induction ks with
  | nil => rfl
  | cons k ks ih =>
    have hks : ∀ k ∈ ks, k ≠ "" := fun k hk => h k (List.mem_cons_of_mem _ hk)
    cases ks with
    | nil => simp [pathOf]
    | cons k' ks =>
      have hne := pathOf_ne (List.cons_ne_nil k' ks) hks
      rw [pathOf, if_neg (by simpa using hne), ih hks, String.intercalate_cons_cons]

theorem pathOf_append_empty (ks : List String) : pathOf (ks ++ [""]) = pathOf ks := by
  induction ks with
  | nil => rfl
  | cons k ks ih => rw [List.cons_append, pathOf, ih, pathOf]

/-- An empty key at the end of a trail is left out. -/
theorem pathOf_append {fs : List String} (h : ∀ f ∈ fs, f ≠ "") (k : String) :
    pathOf (fs ++ [k]) = "/".intercalate (if k = "" then fs else fs ++ [k]) := by
  split
  · rename_i hk
    rw [hk, pathOf_append_empty, pathOf_eq h]
  · rename_i hk
    refine pathOf_eq fun f hf => ?_
    rcases List.mem_append.1 hf with hf | hf
    · exact h f hf
    · rw [List.mem_singleton.1 hf]
      exact hk

end SchemaError

/-! ## Failures of a run -/

def Binding.keyword : Binding → Option String
  | .fresh => none
  | .name _ => some Keyword.name
  | .entity _ _ => some Keyword.entity

/-- The keywords that have a phase of the run. -/
inductive Frame.Uses (frame : Frame) : String → Prop
  | binding {k : String} : frame.binding.keyword = some k → Uses frame k
  | filter {f : Formula} : frame.filter = some f → Uses frame Keyword.filter
  | sort {f : Formula} : frame.sort = some f → Uses frame Keyword.sort
  | reverse {f : Formula} : frame.reverse = some (.formula f) → Uses frame Keyword.reverse

namespace Render

section
variable {α : Type} {src : Source} {env : Env} {frame : Frame} {e : SchemaError} {E : SchemaError → Prop}

/-- An expression at the key failed. -/
def FailedAt (key : String) (e : SchemaError) : Prop := ∃ cause, e = ⟨.expression (.failed cause), [key]⟩

theorem FailedAt.trail {key : String} (h : FailedAt key e) : e.trail = [key] := by
  obtain ⟨cause, rfl⟩ := h
  rfl

theorem evaluated_error {key : String} {r : Except EvalError α} (h : evaluated key r = .error e) : FailedAt key e := by
  cases r with
  | ok v => cases h
  | error e' => cases h; exact ⟨e', rfl⟩

theorem inside_error {key : String} {r : Result α} (h : inside key r = .error e) :
    ∃ e', r = .error e' ∧ e = e'.inside key := by
  cases r with
  | ok v => cases h
  | error e' => cases h; exact ⟨e', rfl, rfl⟩

theorem candidates_error {b : Binding} (h : candidates src env b = .error e) :
    ∃ k, b.keyword = some k ∧ e.trail = [k] := by
  cases b with
  | fresh => cases h
  | name n =>
    simp only [candidates] at h
    refine ⟨Keyword.name, rfl, ?_⟩
    split at h <;> cases h
    rfl
  | entity a n =>
    simp only [candidates] at h
    refine ⟨Keyword.entity, rfl, ?_⟩
    split at h <;> cases h
    rfl

theorem keeps_error {row : Row} (h : keeps env frame row = .error e) : ∃ k, frame.Uses k ∧ FailedAt k e := by
  unfold keeps at h
  split at h
  · cases h
  · rename_i f hf
    exact ⟨Keyword.filter, .filter hf, evaluated_error h⟩

theorem keepRows_error {build : Row → Result Row} {keep : Row → Result Bool} {rows : List Row}
    (hb : ∀ row e, build row = .error e → E e) (hk : ∀ row e, keep row = .error e → E e)
    (h : keepRows build keep rows = .error e) : E e := by
  induction rows with
  | nil => cases h
  | cons row rows ih =>
    rcases bind_error h with h | ⟨row', _, h⟩
    · exact hb row e h
    · rcases bind_error h with h | ⟨kept, _, h⟩
      · exact hk row' e h
      · rcases bind_error h with h | ⟨rest, _, h⟩
        · exact ih h
        · cases h

theorem keyed_error {rowName : Option String} {sort : Formula} {rows : List Row}
    (h : keyed env rowName sort rows = .error e) : FailedAt Keyword.sort e := by
  induction rows with
  | nil => cases h
  | cons row rows ih =>
    rcases bind_error h with h | ⟨key, _, h⟩
    · exact evaluated_error h
    · rcases bind_error h with h | ⟨rest, _, h⟩
      · exact ih h
      · cases h

theorem ordered_error {rows : List Row} (h : ordered env frame rows = .error e) :
    ∃ k, frame.Uses k ∧ FailedAt k e := by
  unfold ordered at h
  rcases bind_error h with h | ⟨reversed, _, h⟩
  · unfold isReversed at h
    split at h
    · cases h
    · cases h
    · rename_i f hf
      exact ⟨Keyword.reverse, .reverse hf, evaluated_error h⟩
  · split at h
    · cases h
    · rename_i f hf
      refine ⟨Keyword.sort, .sort hf, ?_⟩
      rcases bind_error h with h | ⟨ks, _, h⟩
      · exact keyed_error h
      · rcases bind_error h with h | ⟨ks', _, h⟩
        · exact evaluated_error h
        · cases h

/-- A plan fails where its rows come from, at a keyword that it has, or where a row is built. -/
theorem run_error {fields : List Field} (hb : ∀ e, candidates src env frame.binding = .error e → E e)
    (hk : ∀ k e, frame.Uses k → FailedAt k e → E e)
    (hf : ∀ rowName row e, build src env rowName fields row = .error e → E e)
    (h : run src env (.mk frame fields) = .error e) : E e := by
  simp only [run] at h
  rcases bind_error h with h | ⟨rows, _, h⟩
  · exact hb e h
  · rcases bind_error h with h | ⟨kept, _, h⟩
    · refine keepRows_error (hf _) (fun row e h => ?_) h
      obtain ⟨k, hu, he⟩ := keeps_error h
      exact hk k e hu he
    · rcases bind_error h with h | ⟨sorted, _, h⟩
      · obtain ⟨k, hu, he⟩ := ordered_error h
        exact hk k e hu he
      · cases h

end

end Render

namespace Planning

/-! ## Where a failure is -/

/-- What a node stands for: the template of its helper under its own keys, and so on until no helper is named. -/
inductive Becomes (src : Source) : Row → Row → Prop
  | plain {node : Row} : Dict.get? node Keyword.helper = none → Becomes src node node
  | helper {node merged full : Row} {name : String} :
      Dict.get? node Keyword.helper = some (.str name) → src.expand name node = .ok merged →
      Becomes src merged full → Becomes src node full

/-- The fields through which one gets from a node to another: each is a field of the node that is reached before it,
once that is expanded, and has the next one as its rule or as one of its rules. -/
inductive Leads (src : Source) : Row → List String → Row → Prop
  | here {node : Row} : Leads src node [] node
  | field {node full sub inner : Row} {f : String} {v : Value} {fs : List String} :
      Becomes src node full → (f, v) ∈ full → isKeyword f = false → IsFieldKey f → Ruled v sub →
      Leads src sub fs inner → Leads src node (f :: fs) inner

/-- The node names a helper and this is the keyword for it, or once it is expanded it has this key. -/
def Present (src : Source) (node : Row) (k : String) : Prop :=
  (k = Keyword.helper ∧ k ∈ Dict.keys node) ∨ ∃ full, Becomes src node full ∧ k ∈ Dict.keys full

/-- The trail leads from the node to a key. -/
def Located (src : Source) (node : Row) (e : SchemaError) : Prop :=
  ∃ fs inner k, e.trail = fs ++ [k] ∧ Leads src node fs inner ∧ Present src inner k

/-- The trail begins with the key of a field, and leads no further or into a node in it. -/
def Through (src : Source) (key : String) (inField : Row → Prop) (e : SchemaError) : Prop :=
  e.trail = [key] ∨ ∃ sub e', inField sub ∧ Located src sub e' ∧ e = e'.inside key

/-- Where the planner of a part, and every run of what it returns, may fail. -/
def Place (src : Source) (key : String) : (p : Part) → p.Carrier → SchemaError → Prop
  | .node, node, e => Located src node e
  | .fields, fields, e => ∃ kv ∈ fields, isKeyword kv.1 = false ∧
      (e.trail = [kv.1] ∨ IsFieldKey kv.1 ∧ Through src kv.1 (Holds .value kv.2) e)
  | .value, v, e => Through src key (Holds .value v) e
  | .rule, v, e => Through src key (Holds .rule v) e
  | .rules, vs, e => Through src key (Holds .rules vs) e

section
variable {src : Source} {node merged full : Row} {key : String} {e : SchemaError}

theorem Through.mono {P P' : Row → Prop} (h : Through src key P e) (hP : ∀ sub, P sub → P' sub) :
    Through src key P' e := by
  rcases h with h | ⟨sub, e', hs, hl, he⟩
  · exact Or.inl h
  · exact Or.inr ⟨sub, e', hP sub hs, hl, he⟩

theorem located_key (hh : Dict.get? node Keyword.helper = none) (hk : key ∈ Dict.keys node) (he : e.trail = [key]) :
    Located src node e := ⟨[], node, key, he, .here, Or.inr ⟨node, .plain hh, hk⟩⟩

theorem located_helper {v : Value} (hh : Dict.get? node Keyword.helper = some v) (he : e.trail = [Keyword.helper]) :
    Located src node e := ⟨[], node, Keyword.helper, he, .here, Or.inl ⟨rfl, Dict.mem_keys_of_get? hh⟩⟩

theorem located_fields (hh : Dict.get? node Keyword.helper = none) (h : Place src key .fields node e) :
    Located src node e := by
  obtain ⟨⟨f, v⟩, hkv, hf, he⟩ := h
  have hkey : f ∈ Dict.keys node := List.mem_map.2 ⟨_, hkv, rfl⟩
  rcases he with he | ⟨hfield, he | ⟨sub, e', hs, ⟨fs, inner, k, ht, hl, hp⟩, rfl⟩⟩
  · exact located_key hh hkey he
  · exact located_key hh hkey he
  · refine ⟨f :: fs, inner, k, ?_, .field (.plain hh) hkv hf hfield hs hl, hp⟩
    rw [SchemaError.inside, ht, List.cons_append]

/-- What is located in the node that a helper stands for is located in the node that names it. -/
theorem located_expand {name : String} (hh : Dict.get? node Keyword.helper = some (.str name))
    (hm : src.expand name node = .ok merged) (h : Located src merged e) : Located src node e := by
  obtain ⟨fs, inner, k, ht, hl, hp⟩ := h
  cases hl with
  | here =>
    -- A template that names a helper itself fails at a keyword that the node has too.
    refine ⟨[], node, k, ht, .here, ?_⟩
    rcases hp with ⟨rfl, _⟩ | ⟨full, hb, hk⟩
    · exact Or.inl ⟨rfl, Dict.mem_keys_of_get? hh⟩
    · exact Or.inr ⟨full, .helper hh hm hb, hk⟩
  | field hb hkv hf hfield hs hl =>
    exact ⟨_, inner, k, ht, .field (.helper hh hm hb) hkv hf hfield hs hl, hp⟩

end

/-! ## What the checks of a node leave -/

section
variable {α : Type} {p : Planner α} {Q : α → Prop} {node : Row}

/-- A failure at a key of the node. -/
def AtKey (node : Row) (e : SchemaError) : Prop := ∃ k ∈ Dict.keys node, e.trail = [k]

theorem Checks.leaves (h : Checks (· ∈ Dict.keys node) p) (hq : Ensures p Q fun _ => True) :
    Ensures p Q (AtKey node) := by
  intro c
  have hc := h.ensures c
  have hqc := hq c
  rcases hr : p c with ⟨r, c'⟩
  rw [hr] at hc hqc
  cases r with
  | ok a => exact hqc
  | error e => exact hc.1

theorem binding_leaves (node : Row) :
    Ensures (binding node) (fun b => ∀ k, b.keyword = some k → k ∈ Dict.keys node) (AtKey node) := by
  refine (checks_binding node).leaves ?_
  unfold binding
  split
  · exact .malformed trivial
  · rename_i hn _
    split
    · refine .pure fun k hk => ?_
      cases hk
      exact Dict.mem_keys_of_get? hn
    · exact .malformed trivial
  · exact .malformed trivial
  · rename_i _ he
    split
    · refine .pure fun k hk => ?_
      cases hk
      exact Dict.mem_keys_of_get? he
    · exact .malformed trivial
  · exact .malformed trivial
  · exact .pure fun k hk => by cases hk

theorem optionalExpression_leaves (node : Row) (key : String) :
    Ensures (optionalExpression node key) (fun r => ∀ f, r = some f → key ∈ Dict.keys node) (AtKey node) := by
  refine (checks_optionalExpression node key).leaves ?_
  unfold optionalExpression
  split
  · rename_i v hv
    exact (Ensures.any _).map fun _ _ _ _ => Dict.mem_keys_of_get? hv
  · exact .pure fun f hf => by cases hf

theorem reverse_leaves (node : Row) : Ensures (reverse node)
    (fun r => ∀ f, r = some (.formula f) → Keyword.reverse ∈ Dict.keys node) (AtKey node) := by
  refine (checks_reverse node).leaves ?_
  unfold reverse
  split
  · exact .pure fun f hf => by cases hf
  · exact .pure fun f hf => by cases hf
  · rename_i hv
    exact (Ensures.any _).map fun _ _ _ _ => Dict.mem_keys_of_get? hv
  · exact .malformed trivial

/-- The keywords that have a phase of the run are keys of the node. -/
theorem frame_leaves {b : Binding} (hb : ∀ k, b.keyword = some k → k ∈ Dict.keys node) :
    Ensures (frame node b) (fun f => ∀ k, f.Uses k → k ∈ Dict.keys node) (AtKey node) := by
  refine (optionalExpression_leaves node _).bind fun filter hfilter => (optionalExpression_leaves node _).bind
    fun sort hsort => (reverse_leaves node).bind fun rev hrev => ?_
  refine ((checks_projection node).leaves (.any _)).bind fun proj _ => ((checks_item node).leaves (.any _)).bind
    fun it _ => .pure fun k hk => ?_
  cases hk with
  | binding h => exact hb k h
  | filter h => exact hfilter _ h
  | sort h => exact hsort _ h
  | reverse h => exact hrev _ h

end

/-! ## The planner -/

section
variable {src : Source} {expand : Value → Row → Planner Plan} {key : String} {E F : SchemaError → Prop}

/-- Every failure of a run has `E`. -/
def Runs (src : Source) (key : String) (E : SchemaError → Prop) : (p : Part) → p.Outcome → Prop
  | .node, plan => ∀ env e, Render.run src env plan = .error e → E e
  | .fields, fields => ∀ env rowName row e, Render.build src env rowName fields row = .error e → E e
  | .value, rules => ∀ env rowName row v e, Render.lastOf src env rowName key row rules v = .error e → E e
  | .rule, rule => ∀ env rowName row e, Render.valueOf src env rowName key row rule = .error e → E e
  | .rules, rules => ∀ env rowName row v e, Render.lastOf src env rowName key row rules v = .error e → E e

theorem Runs.mono {p : Part} {o : p.Outcome} (h : Runs src key E p o) (hEF : ∀ e, E e → F e) : Runs src key F p o := by
  cases p with
  | node => exact fun env e he => hEF e (h env e he)
  | fields => exact fun env rowName row e he => hEF e (h env rowName row e he)
  | value => exact fun env rowName row v e he => hEF e (h env rowName row v e he)
  | rule => exact fun env rowName row e he => hEF e (h env rowName row e he)
  | rules => exact fun env rowName row v e he => hEF e (h env rowName row v e he)

/-- All failures have `E`: those of the planner and those of every run of what it returns. -/
abbrev Fails (src : Source) (key : String) (E : SchemaError → Prop) (p : Part) (q : Planner p.Outcome) : Prop :=
  Ensures q (Runs src key E p) E

theorem Fails.mono {p : Part} {q : Planner p.Outcome} (h : Fails src key E p q) (hEF : ∀ e, E e → F e) :
    Fails src key F p q := h.imp (fun _ ho => ho.mono hEF) hEF

abbrev Locates (src : Source) (key : String) (p : Part) (x : p.Carrier) (q : Planner p.Outcome) : Prop :=
  Fails src key (Place src key p x) p q

theorem planNode_locates {node : Row}
    (hexp : ∀ helper, Dict.get? node Keyword.helper = some helper → Locates src key .node node (expand helper node))
    (hf : Locates src key .fields node (planFields expand node)) :
    Locates src key .node node (planNode expand node) := by
  cases hh : Dict.get? node Keyword.helper with
  | some helper =>
    rw [planNode_helper _ hh]
    exact hexp helper hh
  | none =>
    have hkey : ∀ e, AtKey node e → Located src node e := by
      rintro e ⟨k, hk, ht⟩
      exact located_key hh hk ht
    have hfields : ∀ e, Place src key .fields node e → Located src node e := fun e => located_fields hh
    rw [planNode_plain _ hh]
    refine ((binding_leaves node).imp (fun _ h => h) hkey).bind fun b hb => ?_
    refine (hf.mono hfields).bind fun fields hruns => ?_
    refine ((frame_leaves hb).imp (fun _ h => h) hkey).bind fun f hu => .pure fun env e he => ?_
    refine Render.run_error (fun e h => ?_) (fun k e hk h => hkey e ⟨k, hu k hk, h.trail⟩) (hruns env) he
    obtain ⟨k, hk, ht⟩ := Render.candidates_error h
    exact hkey e ⟨k, hu k (.binding hk), ht⟩

theorem planFields_cons_locates {v : Value} {fields : Row} (hv : Locates src key .value v (planValue expand key v))
    (hf : Locates src key .fields fields (planFields expand fields)) {key' : String} :
    Locates src key' .fields ((key, v) :: fields) (planFields expand ((key, v) :: fields)) := by
  have hrest : ∀ e, Place src key .fields fields e → Place src key' .fields ((key, v) :: fields) e := by
    rintro e ⟨kv, hkv, h⟩
    exact ⟨kv, List.mem_cons_of_mem _ hkv, h⟩
  rw [planFields_cons]
  split
  · exact hf.imp (fun _ ho => ho.mono hrest) hrest
  · rename_i hk
    have hk : isKeyword key = false := by simpa using hk
    have hkey : ∀ e : SchemaError, e.trail = [key] → Place src key' .fields ((key, v) :: fields) e :=
      fun e ht => ⟨(key, v), List.mem_cons_self, hk, Or.inl ht⟩
    have htarget : Ensures (targetOf key) (fun _ => IsFieldKey key) (Place src key' .fields ((key, v) :: fields)) := by
      unfold targetOf
      split
      · rename_i t ht
        exact .pure ⟨t, target_some.1 ht⟩
      · exact .malformed (hkey _ rfl)
    refine htarget.bind fun target hfield => ?_
    have hvalue : ∀ e, Place src key .value v e → Place src key' .fields ((key, v) :: fields) e :=
      fun e he => ⟨(key, v), List.mem_cons_self, hk, Or.inr ⟨hfield, he⟩⟩
    refine (hv.mono hvalue).bind fun rules hrules => ?_
    refine (hf.imp (fun _ ho => ho.mono hrest) hrest).bind fun rest hruns => .pure fun env rowName row e he => ?_
    simp only [Render.build] at he
    rcases bind_error he with he | ⟨w, _, he⟩
    · exact hrules env rowName row .null e he
    · rcases bind_error he with he | ⟨row', _, he⟩
      · unfold Render.merge at he
        split at he <;> cases he
        exact hkey _ rfl
      · exact hruns env rowName row' e he

theorem planValue_list_locates {vs : List Value} (h : Locates src key .rules vs (planRules expand key vs)) :
    Locates src key .value (.list vs) (planValue expand key (.list vs)) := by
  cases vs with
  | nil => exact .malformed (Or.inl rfl)
  | cons v vs =>
    have hin : ∀ e, Place src key .rules (v :: vs) e → Place src key .value (.list (v :: vs)) e :=
      fun e he => he.mono fun sub => holds_list.2
    exact h.imp (fun _ ho env rowName row w e he => hin e (ho env rowName row w e he)) hin

theorem planValue_single_locates {v : Value} (hl : ∀ vs, v ≠ .list vs)
    (hv : Locates src key .rule v (planRule expand key v)) :
    Locates src key .value v (planValue expand key v) := by
  have hin : ∀ e, Place src key .rule v e → Place src key .value v e :=
    fun e he => he.mono fun sub => (holds_single hl).2
  rw [planValue_single _ _ hl]
  refine Ensures.map (hv.mono hin) fun rule ho env rowName row w e he => ?_
  simp only [Render.lastOf] at he
  rcases bind_error he with he | ⟨w', _, he⟩
  · exact ho env rowName row e he
  · cases he

theorem planRules_cons_locates {v : Value} {vs : List Value} (hv : Locates src key .rule v (planRule expand key v))
    (hvs : Locates src key .rules vs (planRules expand key vs)) :
    Locates src key .rules (v :: vs) (planRules expand key (v :: vs)) := by
  have hfirst : ∀ e, Place src key .rule v e → Place src key .rules (v :: vs) e :=
    fun e he => he.mono fun sub hs => List.mem_cons.2 (Or.inl hs.symm)
  have hrest : ∀ e, Place src key .rules vs e → Place src key .rules (v :: vs) e :=
    fun e he => he.mono fun sub hs => List.mem_cons_of_mem _ hs
  simp only [planRules]
  refine (hv.mono hfirst).bind fun rule ho => (hvs.mono hrest).bind fun rules hos =>
    .pure fun env rowName row w e he => ?_
  simp only [Render.lastOf] at he
  rcases bind_error he with he | ⟨w', _, he⟩
  · exact ho env rowName row e he
  · exact hos env rowName row w' e he

theorem planRule_object_locates {node : Row} (h : Locates src key .node node (planNode expand node)) :
    Locates src key .rule (.object node) (planRule expand key (.object node)) := by
  have hin : ∀ e, Located src node e → Place src key .rule (.object node) (e.inside key) :=
    fun e he => Or.inr ⟨node, e, rfl, he, rfl⟩
  rw [planRule_object]
  refine Ensures.inside (Ensures.map h fun plan ho env rowName row e he => ?_) hin
  simp only [Render.valueOf] at he
  obtain ⟨e', he', rfl⟩ := Render.inside_error he
  exact hin e' (ho _ e' he')

theorem planRule_leaf_locates {v : Value} (hn : ∀ node, v ≠ .object node) :
    Locates src key .rule v (planRule expand key v) := by
  cases v with
  | object node => exact absurd rfl (hn node)
  | str s =>
    refine Ensures.map ((checks_expression key _).ensures.imp (fun _ h => h) ?_) fun f _ env rowName row e he => ?_
    · rintro e ⟨⟨_, rfl, ht⟩, _⟩
      exact Or.inl ht
    · simp only [Render.valueOf] at he
      exact Or.inl (Render.evaluated_error he).trail
  | _ => exact .malformed (Or.inl rfl)

/-- What plans the nodes that name a helper has its failures where they should be. -/
def Knows (src : Source) (expand : Value → Row → Planner Plan) : Prop :=
  ∀ key helper node, Dict.get? node Keyword.helper = some helper → Locates src key .node node (expand helper node)

theorem planPart_locates (hexp : Knows src expand) : ∀ (p : Part) (x : p.Carrier) (key : String),
    Locates src key p x (planPart expand key p x) :=
  Part.Closed.all
    { node := fun hf key => planNode_locates (hexp key · _) (hf key)
      noFields := fun _ => .pure fun env rowName row e he => by cases he
      field := fun hv hf key => planFields_cons_locates (hv _) (hf _)
      list := fun h key => planValue_list_locates (h key)
      single := fun hl h key => planValue_single_locates hl (h key)
      object := fun h key => planRule_object_locates (h key)
      leaf := fun hn _ => planRule_leaf_locates hn
      noRules := fun _ => .pure fun env rowName row v e he => by cases he
      rule := fun hv hvs key => planRules_cons_locates (hv key) (hvs key) }

theorem expandHelper_knows {next : Names → Row → Planner Plan} (opened : Names)
    (hnext : ∀ key name node merged opened, Dict.get? node Keyword.helper = some (.str name) →
      src.expand name node = .ok merged → Locates src key .node node (next opened merged)) :
    Knows src (expandHelper src next opened) := by
  intro key helper node hh
  have hkey : ∀ e : SchemaError, e.trail = [Keyword.helper] → Located src node e := fun e => located_helper hh
  unfold expandHelper
  split
  · split
    · exact .malformed (hkey _ rfl)
    · split
      · rename_i hm
        exact hnext key _ node _ _ hh hm
      · exact .throw (hkey _ rfl)
  · exact .malformed (hkey _ rfl)

theorem planWithin_locates (n : Nat) (opened : Names) (node : Row) :
    Locates src key .node node (planWithin src n opened node) := by
  induction n generalizing key opened node with
  | zero =>
    -- Nothing more is expanded, and what is refused is refused at the keyword that asks for it.
    refine planPart_locates (expandHelper_knows opened fun key name node merged opened hh _ => ?_) .node node key
    exact .malformed (located_helper hh rfl)
  | succ n ih =>
    refine planPart_locates (expandHelper_knows opened fun key name node merged opened hh hm => ?_) .node node key
    exact (ih opened merged).mono fun e => located_expand hh hm

end

/-- The fields on the way are not empty texts. -/
theorem Leads.ne_empty {src : Source} {node inner : Row} {fs : List String} (h : Leads src node fs inner) :
    ∀ f ∈ fs, f ≠ "" := by
  induction h with
  | here => intro f hf; cases hf
  | field _ _ _ hfield _ _ ih =>
    intro f hf
    rcases List.mem_cons.1 hf with rfl | hf
    · rintro rfl
      obtain ⟨t, ht⟩ := hfield
      rw [← target_some] at ht
      cases ht
    · exact ih f hf

end Planning

namespace Render

theorem apply_located {src : Source} {env : Env} {node : Row} {cache : Cache} {e : SchemaError}
    (h : (apply src env (.object node) cache).1 = .error e) : Planning.Located src node e := by
  have hplan : Planning.Locates src "" .node node (Planning.plan src (.object node)) :=
    Planning.planWithin_locates _ [] node
  unfold apply at h
  rcases hr : Planning.plan src (.object node) cache with ⟨r, c⟩
  rw [hr] at h
  cases r with
  | error e' => cases h; exact hplan.error hr
  | ok p => exact hplan.ok hr env e h

/-- The path of a failure leads through fields, each of them a field of the node that is reached before it, once that is
expanded, to a node, and then to a key of that node: a keyword that it has, before or after its own
expansion, or one of its fields. Only an empty key leaves no trace in the path. -/
theorem apply_error_located {src : Source} {env : Env} {node : Row} {cache : Cache} {e : SchemaError}
    (h : (apply src env (.object node) cache).1 = .error e) :
    ∃ fs inner k, Planning.Leads src node fs inner ∧ Planning.Present src inner k ∧
      e.path = "/".intercalate (if k = "" then fs else fs ++ [k]) := by
  obtain ⟨fs, inner, k, ht, hl, hp⟩ := apply_located h
  refine ⟨fs, inner, k, hl, hp, ?_⟩
  rw [SchemaError.path, ht, SchemaError.pathOf_append hl.ne_empty]

/-- A name that nothing has, in the template of a helper that the second rule of a field names. -/
theorem apply_error_in_template :
    let src := (Memory.empty.insertHelper "h" (.object [("x", .str "y")])).source
    let node : Row := [("a", .list [.str "1", .object [("__helper__", .str "h")]])]
    ∃ e fs inner k, (apply src [] (.object node) []).1 = .error e ∧ Planning.Leads src node fs inner ∧
      Planning.Present src inner k ∧ e.path = "/".intercalate (if k = "" then fs else fs ++ [k]) ∧ e.path = "a/x" := by
  intro src node
  obtain ⟨cause, he⟩ : ∃ cause, (apply src [] (.object node) []).1 = .error ⟨cause, ["a", "x"]⟩ := ⟨_, rfl⟩
  obtain ⟨fs, inner, k, hl, hp, hpath⟩ := apply_error_located he
  exact ⟨_, fs, inner, k, he, hl, hp, hpath, rfl⟩

end Render

end MockSchema
