/-
  MockSchema.Proofs.Expansion — what a schema node stands for once no helper is named in it.

  `Expands src .node node out`: `out` is `node` with every node that names a helper replaced by the
  helper's template under its own keys, and so on until none names one. The relation goes through the
  parts of a schema as the planner does: keywords keep their values, the value of any other key is a
  rule or a list of rules, and a rule that is an object is a node. A node has one expansion at most
  (`Expands.unique`), and in that no node names a helper (`Expands.helperFree`).
-/

import MockSchema.Schema.Planning

namespace MockSchema.Planning

/-! ## Parts of a schema -/

/-- A node, its fields, the value of one of them, one rule and a list of rules. -/
inductive Part where
  | node
  | fields
  | value
  | rule
  | rules

abbrev Part.Carrier : Part → Type
  | node => Row
  | fields => Row
  | value => Value
  | rule => Value
  | rules => List Value

/-- What planning a part yields. -/
abbrev Part.Outcome : Part → Type
  | node => Plan
  | fields => List Field
  | value => List Rule
  | rule => Rule
  | rules => List Rule

/-- A field with this value has the node as its rule or as one of its rules. -/
def Ruled (v : Value) (sub : Row) : Prop := v = .object sub ∨ ∃ vs, v = .list vs ∧ .object sub ∈ vs

/-- The nodes of a part, those inside of them not counted. -/
def Holds : (p : Part) → p.Carrier → Row → Prop
  | .node, node, sub => node = sub
  | .fields, fields, sub => ∃ kv ∈ fields, isKeyword kv.1 = false ∧ Ruled kv.2 sub
  | .value, v, sub => Ruled v sub
  | .rule, v, sub => v = .object sub
  | .rules, vs, sub => .object sub ∈ vs

/-- A field of the node has the other as a rule. -/
abbrev Nested (node sub : Row) : Prop := Holds .fields node sub

theorem holds_cons {key : String} {v : Value} {fields sub : Row} :
    Holds .fields ((key, v) :: fields) sub ↔
      (isKeyword key = false ∧ Holds .value v sub) ∨ Holds .fields fields sub := by
  simp [Holds]

theorem holds_list {vs : List Value} {sub : Row} : Holds .value (.list vs) sub ↔ Holds .rules vs sub := by
  simp [Holds, Ruled]

theorem holds_single {v : Value} (hv : ∀ vs, v ≠ .list vs) {sub : Row} :
    Holds .value v sub ↔ Holds .rule v sub := by
  simp [Holds, Ruled, hv]

/-! ## Induction over a schema -/

/-- What holds of a part's own parts holds of the part. -/
structure Part.Closed (P : (p : Part) → p.Carrier → Prop) : Prop where
  node {node : Row} : P .fields node → P .node node
  noFields : P .fields []
  field {key : String} {v : Value} {fields : Row} : P .value v → P .fields fields → P .fields ((key, v) :: fields)
  list {vs : List Value} : P .rules vs → P .value (.list vs)
  single {v : Value} : (∀ vs, v ≠ .list vs) → P .rule v → P .value v
  object {node : Row} : P .node node → P .rule (.object node)
  leaf {v : Value} : (∀ node, v ≠ .object node) → P .rule v
  noRules : P .rules []
  rule {v : Value} {vs : List Value} : P .rule v → P .rules vs → P .rules (v :: vs)

section
variable {P : (p : Part) → p.Carrier → Prop}

theorem Part.Closed.value (h : Closed P) {v : Value} (hv : P .rule v) (hvs : ∀ vs, v = .list vs → P .rules vs) :
    P .value v := by
  by_cases hl : ∃ vs, v = .list vs
  · obtain ⟨vs, rfl⟩ := hl
    exact h.list (hvs vs rfl)
  · exact h.single (fun vs hv => hl ⟨vs, hv⟩) hv

mutual

/-- A rule, and the rules that a list is: in a field it stands for them. -/
theorem Part.Closed.ofRule (h : Closed P) : ∀ v : Value, P .rule v ∧ ∀ vs, v = .list vs → P .rules vs
  | .object node => ⟨h.object (h.node (ofFields h node)), nofun⟩
  | .list vs => ⟨h.leaf nofun, fun _ e => by cases e; exact ofRules h vs⟩
  | .null => ⟨h.leaf nofun, nofun⟩
  | .bool _ => ⟨h.leaf nofun, nofun⟩
  | .int _ => ⟨h.leaf nofun, nofun⟩
  | .float _ => ⟨h.leaf nofun, nofun⟩
  | .str _ => ⟨h.leaf nofun, nofun⟩
  termination_by structural v => v

theorem Part.Closed.ofRules (h : Closed P) : ∀ vs : List Value, P .rules vs
  | [] => h.noRules
  | v :: vs => h.rule (ofRule h v).1 (ofRules h vs)
  termination_by structural vs => vs

theorem Part.Closed.ofFields (h : Closed P) : ∀ fields : List (String × Value), P .fields fields
  | [] => h.noFields
  | (_, v) :: rest => h.field (h.value (ofRule h v).1 (ofRule h v).2) (ofFields h rest)
  termination_by structural row => row

end

/-- It holds of every part. -/
theorem Part.Closed.all (h : Closed P) : ∀ (p : Part) (x : p.Carrier), P p x
  | .node, row => h.node (h.ofFields row)
  | .fields, row => h.ofFields row
  | .value, v => h.value (h.ofRule v).1 (h.ofRule v).2
  | .rule, v => (h.ofRule v).1
  | .rules, vs => h.ofRules vs

end

/-! ## Expansion -/

inductive Expands (src : Source) : (p : Part) → p.Carrier → p.Carrier → Prop
  | helper {node merged out : Row} {name : String} :
      Dict.get? node Keyword.helper = some (.str name) → src.expand name node = .ok merged →
      Expands src .node merged out → Expands src .node node out
  | plain {node out : Row} :
      Dict.get? node Keyword.helper = none → Expands src .fields node out → Expands src .node node out
  | noFields : Expands src .fields [] []
  | keyword {key : String} {v : Value} {fields out : Row} :
      isKeyword key = true → Expands src .fields fields out →
      Expands src .fields ((key, v) :: fields) ((key, v) :: out)
  | field {key : String} {v w : Value} {fields out : Row} :
      isKeyword key = false → Expands src .value v w → Expands src .fields fields out →
      Expands src .fields ((key, v) :: fields) ((key, w) :: out)
  | list {vs ws : List Value} : Expands src .rules vs ws → Expands src .value (.list vs) (.list ws)
  | single {v w : Value} :
      (∀ vs, v ≠ .list vs) → Expands src .rule v w → Expands src .value v w
  | object {node out : Row} :
      Expands src .node node out → Expands src .rule (.object node) (.object out)
  | leaf {v : Value} : (∀ node, v ≠ .object node) → Expands src .rule v v
  | noRules : Expands src .rules [] []
  | rule {v w : Value} {vs ws : List Value} :
      Expands src .rule v w → Expands src .rules vs ws → Expands src .rules (v :: vs) (w :: ws)

theorem Expands.unique {src : Source} {p : Part} {x y z : p.Carrier} (h : Expands src p x y)
    (h' : Expands src p x z) : y = z := by
  induction h with
  | helper hh hm _ ih =>
    cases h' with
    | helper hh' hm' h' =>
      rw [hh] at hh'; cases hh'
      rw [hm] at hm'; cases hm'
      exact ih h'
    | plain hh' _ => rw [hh] at hh'; cases hh'
  | plain hh _ ih =>
    cases h' with
    | helper hh' _ _ => rw [hh] at hh'; cases hh'
    | plain _ h' => exact ih h'
  | noFields => cases h'; rfl
  | keyword hk _ ih =>
    cases h' with
    | keyword _ h' => rw [ih h']
    | field hk' _ _ => rw [hk] at hk'; cases hk'
  | field hk _ _ ihv ih =>
    cases h' with
    | keyword hk' _ => rw [hk] at hk'; cases hk'
    | field _ hv' h' => rw [ihv hv', ih h']
  | list _ ih =>
    cases h' with
    | list h' => rw [ih h']
    | single hv _ => exact absurd rfl (hv _)
  | single hv _ ih =>
    cases h' with
    | list _ => exact absurd rfl (hv _)
    | single _ h' => exact ih h'
  | object _ ih =>
    cases h' with
    | object h' => rw [ih h']
    | leaf hv => exact absurd rfl (hv _)
  | leaf hv =>
    cases h' with
    | object _ => exact absurd rfl (hv _)
    | leaf _ => rfl
  | noRules => cases h'; rfl
  | rule _ _ ihv ih =>
    cases h' with
    | rule hv' h' => rw [ihv hv', ih h']

/-- The keywords of a node keep their values under expansion. -/
theorem Expands.get?_keyword {src : Source} {key : String} (hk : isKeyword key = true) :
    ∀ {x y : Row}, Expands src .fields x y → Dict.get? y key = Dict.get? x key := by
  intro x
  induction x with
  | nil => intro y h; cases h; rfl
  | cons kv x ih =>
    intro y h
    cases h with
    | keyword _ h => simp only [Dict.get?, ih h]
    | field hk' _ h =>
      simp only [Dict.get?, ih h]
      split
      · rename_i he
        rw [he, hk] at hk'
        cases hk'
      · rfl

/-- No node in it names a helper. -/
inductive HelperFree : Row → Prop
  | mk {node : Row} : Dict.get? node Keyword.helper = none →
      (∀ sub, Nested node sub → HelperFree sub) → HelperFree node

theorem Expands.helperFree {src : Source} {p : Part} {x y : p.Carrier} (h : Expands src p x y) :
    ∀ sub, Holds p y sub → HelperFree sub := by
  induction h with
  | helper _ _ _ ih => exact ih
  | plain hh h ih =>
    intro sub hs
    cases hs
    exact .mk ((h.get?_keyword (by decide)).trans hh) ih
  | noFields => intro sub hs; simp [Holds] at hs
  | keyword hk _ ih =>
    intro sub hs
    rcases holds_cons.1 hs with ⟨hk', _⟩ | hs
    · rw [hk] at hk'; cases hk'
    · exact ih sub hs
  | field _ _ _ ihv ih =>
    intro sub hs
    rcases holds_cons.1 hs with ⟨_, hs⟩ | hs
    · exact ihv sub hs
    · exact ih sub hs
  | list _ ih => intro sub hs; exact ih sub (holds_list.1 hs)
  | single hv h ih =>
    intro sub hs
    rcases hs with hs | ⟨ws, rfl, _⟩
    · exact ih sub hs
    · cases h
      exact absurd rfl (hv _)
  | object _ ih => intro sub hs; cases hs; exact ih _ rfl
  | leaf hv => intro sub hs; exact absurd hs (hv _)
  | noRules => intro sub hs; cases hs
  | rule _ _ ihv ih =>
    intro sub hs
    rcases List.mem_cons.1 hs with hs | hs
    · exact ihv sub hs.symm
    · exact ih sub hs

end MockSchema.Planning
