/-
  MockSchema.Proofs.WellFormed — what a schema node has to look like, said without planning.

  A node is well formed when its keywords are, every other key is a field key, and every field has a rule or
  a list of at least one: an expression, or a node that is well formed again (`WellFormed`). `Mirrors` says
  what its plan has to do with it: one field for each key that is no keyword, in their order, and one rule
  for each rule.

  Proved: what the readers of names, lists of strings and items accept is what is asked for here.
-/

import MockSchema.Proofs.Expansion

namespace MockSchema

/-! ## Texts -/

/-- Word characters only, and at least one. -/
def IsName (s : String) : Prop := s.toList ≠ [] ∧ ∀ c ∈ s.toList, Text.isWordChar c = true

/-- `outer:inner`. -/
def IsPair (s : String) : Prop := ∃ outer inner, IsName outer ∧ IsName inner ∧ s = outer ++ ":" ++ inner

/-- What a field key does: `name` puts a value, `**name` splices one. -/
inductive Addresses : String → Target → Prop
  | plain {key : String} : IsName key → Addresses key (.plain key)
  | splice {lead : String} : IsName lead → Addresses ("**" ++ lead) (.splice lead)

def IsFieldKey (key : String) : Prop := ∃ target, Addresses key target

def IsExpression (s : String) : Prop :=
  (∃ c ∈ s.toList, Text.isBlank c = false) ∧ ∃ f, Formula.compile s = .ok f

/-! ## Values of keywords -/

/-- If the node has the key, its value is like this. -/
def At (node : Row) (key : String) (P : Value → Prop) : Prop := ∀ v, Dict.get? node key = some v → P v

def TextOf (P : String → Prop) (v : Value) : Prop := ∃ s, v = .str s ∧ P s

def TextsOf (P : String → Prop) (v : Value) : Prop := ∃ ss : List String, v = .list (ss.map .str) ∧ ∀ s ∈ ss, P s

def indexValue : Option Int → Value
  | none => .null
  | some n => .int n

/-- One to three indices, each null or an integer that arithmetic knows, and not a single null. -/
def IsItem (v : Value) : Prop :=
  ∃ is : List (Option Int), v = .list (is.map indexValue) ∧ (∀ n, some n ∈ is → InRange n) ∧
    1 ≤ is.length ∧ is.length ≤ 3 ∧ is ≠ [none]

/-- The keywords that say what rows start from. -/
structure Bound (node : Row) : Prop where
  name : At node Keyword.name (TextOf IsName)
  entity : At node Keyword.entity (TextOf fun s => IsName s ∨ IsPair s)
  apart : ¬ (Dict.has node Keyword.name = true ∧ Dict.has node Keyword.entity = true)

/-- The keywords that say which fields a row keeps. -/
structure Projected (node : Row) : Prop where
  only : At node Keyword.only (TextsOf fun s => IsName s ∨ IsPair s)
  except : At node Keyword.except (TextsOf IsName)
  rename : At node Keyword.rename (TextsOf IsPair)
  alone : Dict.has node Keyword.only = true →
    Dict.has node Keyword.except = false ∧ Dict.has node Keyword.rename = false

/-- The keywords after the fields. -/
structure Framed (node : Row) : Prop where
  filter : At node Keyword.filter (TextOf IsExpression)
  sort : At node Keyword.sort (TextOf IsExpression)
  reverse : At node Keyword.reverse fun v => (∃ b, v = .bool b) ∨ TextOf IsExpression v
  projection : Projected node
  item : At node Keyword.item IsItem

/-! ## Nodes -/

mutual

inductive WellFormed : Row → Prop
  | mk {node : Row} : Bound node → (∀ kv ∈ node, isKeyword kv.1 = false → IsFieldKey kv.1) →
      (∀ kv ∈ node, isKeyword kv.1 = false → WellRuled kv.2) → Framed node → WellFormed node

/-- The value of a field: a rule, or a list of at least one. -/
inductive WellRuled : Value → Prop
  | one {v : Value} : IsRule v → WellRuled v
  | list {vs : List Value} : vs ≠ [] → (∀ v ∈ vs, IsRule v) → WellRuled (.list vs)

inductive IsRule : Value → Prop
  | expression {s : String} : IsExpression s → IsRule (.str s)
  | node {node : Row} : WellFormed node → IsRule (.object node)

end

namespace Planning

/-! ## Plans -/

/-- The plan has what the node has: a field for each key that is no keyword, in their order, with a rule for
each rule, which is the compiled expression or a plan that mirrors the nested node. -/
inductive Mirrors : (p : Part) → p.Carrier → p.Outcome → Prop
  | node {node : Row} {frame : Frame} {fields : List Field} :
      Mirrors .fields node fields → Mirrors .node node (.mk frame fields)
  | noFields : Mirrors .fields [] []
  | keyword {key : String} {v : Value} {row : Row} {fields : List Field} :
      isKeyword key = true → Mirrors .fields row fields → Mirrors .fields ((key, v) :: row) fields
  | field {key : String} {v : Value} {row : Row} {target : Target} {rules : List Rule} {fields : List Field} :
      isKeyword key = false → Addresses key target → Mirrors .value v rules → Mirrors .fields row fields →
      Mirrors .fields ((key, v) :: row) (.mk key target rules :: fields)
  | list {vs : List Value} {rules : List Rule} : Mirrors .rules vs rules → Mirrors .value (.list vs) rules
  | single {v : Value} {rule : Rule} : Mirrors .rule v rule → Mirrors .value v [rule]
  | expression {s : String} {f : Formula} :
      Formula.compile s = .ok f → Mirrors .rule (.str s) (.formula f)
  | object {node : Row} {p : Plan} : Mirrors .node node p → Mirrors .rule (.object node) (.node p)
  | noRules : Mirrors .rules [] []
  | rule {v : Value} {vs : List Value} {rule : Rule} {rules : List Rule} :
      Mirrors .rule v rule → Mirrors .rules vs rules → Mirrors .rules (v :: vs) (rule :: rules)

/-- The keys of a node's fields. -/
def fieldKeys (node : Row) : List String := (Dict.keys node).filter fun key => !isKeyword key

theorem Mirrors.keys {row : Row} {fields : List Field} (h : Mirrors .fields row fields) :
    fields.map Field.key = fieldKeys row := by
  induction row generalizing fields with
  | nil => cases h; rfl
  | cons kv row ih =>
    cases h with
    | keyword hk h => simpa [fieldKeys, Dict.keys, hk] using ih h
    | field hk _ _ h => simpa [fieldKeys, Dict.keys, hk, Field.key] using ih h

end Planning

/-! ## Looking a keyword up -/

section
variable {node : Row} {key : String} {v : Value} {P Q : Value → Prop}

theorem at_none (h : Dict.get? node key = none) : At node key P := fun v hv => by rw [h] at hv; cases hv

theorem at_some (h : Dict.get? node key = some v) : At node key P ↔ P v := by
  constructor
  · intro ha; exact ha v h
  · intro hv w hw
    rw [h] at hw; cases hw
    exact hv

theorem At.imp (h : At node key P) (hPQ : ∀ v, P v → Q v) : At node key Q := fun v hv => hPQ v (h v hv)

theorem has_some (h : Dict.get? node key = some v) : Dict.has node key = true := by rw [Dict.has, h]; rfl

theorem has_none (h : Dict.get? node key = none) : Dict.has node key = false := by rw [Dict.has, h]; rfl

end

section
variable {P : String → Prop}

theorem textOf_str {s : String} : TextOf P (.str s) ↔ P s := by simp [TextOf]

theorem textsOf_list {ss : List String} : TextsOf P (.list (ss.map .str)) ↔ ∀ s ∈ ss, P s := by
  constructor
  · intro h
    obtain ⟨ts, ht, h⟩ := h
    have hst : ss = ts := by
      refine (List.map_inj_right fun a b hab => ?_).1 (Value.list.inj ht)
      exact Value.str.inj hab
    rwa [hst]
  · intro h; exact ⟨ss, rfl, h⟩

theorem TextsOf.texts {v : Value} (h : TextsOf P v) : TextsOf (fun _ => True) v := by
  obtain ⟨ss, hss, _⟩ := h
  exact ⟨ss, hss, fun _ _ => trivial⟩

end

/-! ## Words and field keys -/

theorem isWord_iff {cs : List Char} : Text.isWord cs = true ↔ IsName (String.ofList cs) := by
  simp [Text.isWord, IsName]

theorem isName_iff {s : String} : isName s = true ↔ IsName s := by
  rw [isName, isWord_iff, String.ofList_toList]

/-- No name has a character that is not in words. -/
theorem IsName.ne {s : String} (h : IsName s) {c d : Char} (hc : c ∈ s.toList)
    (hd : Text.isWordChar d = false) : c ≠ d := by
  intro e
  have hw := h.2 c hc
  rw [e, hd] at hw
  cases hw

theorem target_some {key : String} {target : Target} :
    Target.ofKey? key = some target ↔ Addresses key target := by
  unfold Target.ofKey?
  split
  · rename_i cs hcs
    have hkey : key = "**" ++ String.ofList cs := by
      apply String.toList_inj.1
      simp [hcs]
    constructor
    · intro h
      split at h
      · rename_i hw
        cases h
        rw [hkey]
        exact .splice (isWord_iff.1 hw)
      · cases h
    · intro h
      cases h with
      | plain hn => exact absurd rfl (hn.ne (c := '*') (d := '*') (by simp [hcs]) (by decide))
      | @splice lead hn =>
        have hlead : lead.toList = cs := by simpa using hcs
        rw [← hlead, if_pos (isWord_iff.2 (by rwa [String.ofList_toList])), String.ofList_toList]
  · rename_i hcs
    constructor
    · intro h
      split at h
      · rename_i hw
        cases h
        exact .plain (by simpa using isWord_iff.1 hw)
      · cases h
    · intro h
      cases h with
      | plain hn => rw [if_pos (isWord_iff.2 (by rwa [String.ofList_toList]))]
      | @splice lead _ => exact absurd (by simp) (hcs lead.toList)

/-! ## Pairs of names -/

/-- A name before the first colon, and what is after it. -/
theorem takeWhile_colon {outer : String} (h : IsName outer) (cs : List Char) :
    (outer.toList ++ ':' :: cs).takeWhile (· != ':') = outer.toList ∧
      (outer.toList ++ ':' :: cs).dropWhile (· != ':') = ':' :: cs := by
  have hall : ∀ c ∈ outer.toList, (c != ':') = true := fun c hc =>
    bne_iff_ne.2 (h.ne hc (by decide))
  rw [List.takeWhile_append_of_pos hall, List.dropWhile_append_of_pos hall]
  simp

theorem ofText?_pair {s outer inner : String} :
    NamePair.ofText? s = some ⟨some outer, inner⟩ ↔ IsName outer ∧ IsName inner ∧ s = outer ++ ":" ++ inner := by
  constructor
  · intro h
    simp only [NamePair.ofText?] at h
    split at h
    · rename_i cs hd
      split at h
      · rename_i hw
        rw [Bool.and_eq_true, isWord_iff, isWord_iff] at hw
        cases h
        refine ⟨hw.1, hw.2, String.toList_inj.1 ?_⟩
        have happ := List.takeWhile_append_dropWhile (p := (· != ':')) (l := s.toList)
        rw [hd] at happ
        simp [happ]
      · cases h
    · split at h <;> cases h
  · intro h
    obtain ⟨ho, hi, rfl⟩ := h
    have hs : (outer ++ ":" ++ inner).toList = outer.toList ++ ':' :: inner.toList := by simp
    obtain ⟨ht, hd⟩ := takeWhile_colon ho inner.toList
    simp only [NamePair.ofText?, hs, ht, hd]
    rw [if_pos (by simp [isWord_iff, ho, hi])]
    simp

theorem ofText?_single {s inner : String} :
    NamePair.ofText? s = some ⟨none, inner⟩ ↔ IsName s ∧ inner = s := by
  simp only [NamePair.ofText?]
  constructor
  · intro h
    split at h
    · split at h <;> cases h
    · split at h
      · rename_i hw
        cases h
        exact ⟨by simpa using isWord_iff.1 hw, rfl⟩
      · cases h
  · intro h
    obtain ⟨hn, rfl⟩ := h
    split
    · rename_i cs hd
      have hm : ':' ∈ inner.toList := (List.dropWhile_sublist _).subset (hd ▸ List.mem_cons_self ..)
      exact absurd rfl (hn.ne hm (d := ':') (by decide))
    · rw [if_pos (isWord_iff.2 (by rwa [String.ofList_toList]))]

theorem ofText?_isSome {s : String} : (NamePair.ofText? s).isSome = true ↔ IsName s ∨ IsPair s := by
  constructor
  · intro h
    obtain ⟨⟨o, inner⟩, hp⟩ := Option.isSome_iff_exists.1 h
    cases o with
    | none => exact Or.inl (ofText?_single.1 hp).1
    | some outer => exact Or.inr ⟨outer, inner, ofText?_pair.1 hp⟩
  · intro h
    rcases h with h | ⟨outer, inner, h⟩
    · rw [ofText?_single.2 ⟨h, rfl⟩]; rfl
    · rw [ofText?_pair.2 h]; rfl

/-! ## Lists of names and indices -/

namespace Planning

theorem strings?_eq {vs : List Value} {ss : List String} : strings? vs = some ss ↔ vs = ss.map .str := by
  induction vs generalizing ss with
  | nil => cases ss <;> simp [strings?]
  | cons v vs ih =>
    cases v with
    | str s =>
      cases ss with
      | nil => simp [strings?]
      | cons t ss =>
        simp only [strings?, Option.map_eq_some_iff, ih, List.map_cons, List.cons.injEq, Value.str.injEq]
        constructor
        · intro h
          obtain ⟨_, rfl, rfl, rfl⟩ := h
          exact ⟨rfl, rfl⟩
        · intro h
          obtain ⟨rfl, rfl⟩ := h
          exact ⟨ss, rfl, rfl, rfl⟩
    | _ => cases ss <;> simp [strings?]

theorem namePairs_ok {ss : List String} :
    (∃ ps, namePairs ss = .ok ps) ↔ ∀ s ∈ ss, IsName s ∨ IsPair s := by
  induction ss with
  | nil => simp [namePairs]
  | cons s ss ih =>
    rw [List.forall_mem_cons, ← ih, ← ofText?_isSome]
    cases hp : NamePair.ofText? s with
    | none => simp [namePairs, hp, throw, throwThe, MonadExceptOf.throw]
    | some p =>
      cases hs : namePairs ss with
      | ok ps => simp [namePairs, hp, hs, bind, Except.bind, pure, Except.pure]
      | error e => simp [namePairs, hp, hs, bind, Except.bind]

theorem renamePairs_ok {ss : List String} : (∃ ps, renamePairs ss = .ok ps) ↔ ∀ s ∈ ss, IsPair s := by
  induction ss with
  | nil => simp [renamePairs]
  | cons s ss ih =>
    rw [List.forall_mem_cons, ← ih]
    by_cases hp : IsPair s
    · obtain ⟨outer, inner, h⟩ := hp
      have hp := ofText?_pair.2 h
      have hs : IsPair s := ⟨outer, inner, h⟩
      cases hss : renamePairs ss with
      | ok ps => simp [renamePairs, hp, hs, hss, bind, Except.bind, pure, Except.pure]
      | error e => simp [renamePairs, hp, hss, bind, Except.bind]
    · have hn : ∀ outer inner, NamePair.ofText? s = some ⟨some outer, inner⟩ → False := fun outer inner h =>
        hp ⟨outer, inner, ofText?_pair.1 h⟩
      have herr : renamePairs (s :: ss) = .error (.badRename s) := by
        simp only [renamePairs]
        rfl
      simp [herr, hp]

theorem exceptNames_ok {ss : List String} : (∃ ns, exceptNames ss = .ok ns) ↔ ∀ s ∈ ss, IsName s := by
  unfold exceptNames
  split
  · rename_i s h
    have hbad : ¬ IsName s := by
      rw [← isName_iff]
      simpa using List.find?_some h
    constructor
    · intro h
      obtain ⟨ns, h⟩ := h
      cases h
    · intro hall
      exact absurd (hall s (List.mem_of_find?_eq_some h)) hbad
  · rename_i h
    refine ⟨fun _ s hs => ?_, fun _ => ⟨ss, rfl⟩⟩
    simpa [isName_iff] using List.find?_eq_none.1 h s hs

theorem indices?_map {is : List (Option Int)} (h : ∀ n, some n ∈ is → InRange n) :
    indices? (is.map indexValue) = some is := by
  induction is with
  | nil => rfl
  | cons i is ih =>
    have his := ih fun n hn => h n (List.mem_cons_of_mem _ hn)
    cases i with
    | none => simp [indices?, indexValue, his]
    | some n => simp [indices?, indexValue, his, h n (List.mem_cons_self ..)]

theorem indices?_some {vs : List Value} {is : List (Option Int)} (h : indices? vs = some is) :
    vs = is.map indexValue ∧ ∀ n, some n ∈ is → InRange n := by
  induction vs generalizing is with
  | nil => cases h; simp
  | cons v vs ih =>
    cases v with
    | null =>
      simp only [indices?, Option.map_eq_some_iff] at h
      obtain ⟨is, his, rfl⟩ := h
      obtain ⟨rfl, hr⟩ := ih his
      exact ⟨rfl, by simpa using hr⟩
    | int n =>
      simp only [indices?] at h
      split at h
      · rename_i hn
        obtain ⟨is, his, rfl⟩ := Option.map_eq_some_iff.1 h
        obtain ⟨rfl, hr⟩ := ih his
        refine ⟨rfl, fun m hm => ?_⟩
        rcases List.mem_cons.1 hm with hm | hm
        · cases hm; exact hn
        · exact hr m hm
      · cases h
    | _ => simp [indices?] at h

theorem itemOf_ok {v : Value} : (∃ it, itemOf v = .ok it) ↔ IsItem v := by
  constructor
  · intro h
    obtain ⟨it, h⟩ := h
    unfold itemOf at h
    split at h
    · rename_i vs
      split at h
      · cases h
      · rename_i i his
        exact ⟨_, by rw [(indices?_some his).1], (indices?_some his).2, by simp⟩
      · cases h
      · rename_i start stop his
        exact ⟨_, by rw [(indices?_some his).1], (indices?_some his).2, by simp⟩
      · rename_i start stop step his
        exact ⟨_, by rw [(indices?_some his).1], (indices?_some his).2, by simp⟩
      · cases h
    · cases h
  · intro h
    obtain ⟨is, rfl, hr, hmin, hmax, hne⟩ := h
    simp only [itemOf, indices?_map hr]
    match is, hmin, hmax, hne with
    | [some i], _, _, _ => exact ⟨_, rfl⟩
    | [none], _, _, hne => exact absurd rfl hne
    | [start, stop], _, _, _ => cases start <;> exact ⟨_, rfl⟩
    | [start, stop, step], _, _, _ => cases start <;> exact ⟨_, rfl⟩

end Planning

end MockSchema
