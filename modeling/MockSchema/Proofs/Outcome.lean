/-
  MockSchema.Proofs.Outcome — what a step of planning can come to, whatever the cache.

  `Ensures p Q E`: from every cache, `p` returns a value with `Q` or fails with an error with `E`.
  `Agrees p q`: from every cache, `p` does what `q` does, or fails because of a helper cycle. Both go
  through the steps of a planner one by one. The checks of a node's keywords are `Checks`: what they fail
  with is at a keyword that the node has, and it is never a cycle.
-/

import MockSchema.Proofs.Runs
import MockSchema.Schema.Planning

namespace MockSchema

def StructureError.IsCycle : StructureError → Prop
  | .helperCycle _ => True
  | _ => False

def SchemaError.IsCycle (e : SchemaError) : Prop :=
  match e.cause with
  | .node e => e.IsCycle
  | _ => False

/-- What a node shows on its own, with no helper opened and no row at hand. -/
def StructureError.OfNode : StructureError → Prop
  | .helperCycle _ => False
  | .rowNotObject _ => False
  | .badSplice _ => False
  | _ => True

def SchemaError.OfNode (e : SchemaError) : Prop :=
  match e.cause with
  | .node e => e.OfNode
  | .expression (.malformed _) => True
  | _ => False

theorem StructureError.OfNode.not_cycle {e : StructureError} (h : e.OfNode) : ¬ e.IsCycle := by
  cases e with
  | helperCycle chain => exact h.elim
  | _ => exact id

theorem SchemaError.OfNode.not_cycle {e : SchemaError} (h : e.OfNode) : ¬ e.IsCycle := by
  obtain ⟨cause, trail⟩ := e
  cases cause with
  | node e => exact StructureError.OfNode.not_cycle h
  | expression e => exact id
  | store e => exact id

namespace Planning

variable {α β : Type}

/-! ## Runs -/

theorem run_inside (key : String) (p : Planner α) (c : Cache) :
    inside key p c = match p c with
      | (.ok a, c') => (.ok a, c')
      | (.error e, c') => (.error (e.inside key), c') := by
  simp only [inside, tryCatch, tryCatchThe, MonadExceptOf.tryCatch, ExceptT.tryCatch, ExceptT.mk, bind, StateT.bind]
  rcases p c with ⟨r, c'⟩
  cases r <;> rfl

theorem run_compile (key source : String) (c : Cache) :
    compile key source c = match c.compile source with
      | (.ok f, c') => (.ok f, c')
      | (.error e, c') => (.error ⟨.expression (.malformed e), [key]⟩, c') := by
  unfold compile
  rw [run_bind, show (get : Planner Cache) c = (.ok c, c) from rfl]
  rcases hr : c.compile source with ⟨r, c'⟩
  simp only [hr]
  cases r <;> rfl

/-! ## What holds of every outcome -/

def Ensures (p : Planner α) (Q : α → Prop) (E : SchemaError → Prop) : Prop :=
  ∀ c, match (p c).1 with
    | .ok a => Q a
    | .error e => E e

variable {p : Planner α} {Q : α → Prop} {E : SchemaError → Prop}

theorem Ensures.ok {a : α} {c c' : Cache} (h : Ensures p Q E) (hp : p c = (.ok a, c')) : Q a := by
  have := h c
  rwa [hp] at this

theorem Ensures.error {e : SchemaError} {c c' : Cache} (h : Ensures p Q E) (hp : p c = (.error e, c')) :
    E e := by
  have := h c
  rwa [hp] at this

theorem Ensures.any (p : Planner α) : Ensures p (fun _ => True) fun _ => True := by
  intro c
  rcases p c with ⟨r, c'⟩
  cases r <;> trivial

theorem Ensures.pure {a : α} (h : Q a) : Ensures (pure a) Q E := fun _ => h

theorem Ensures.throw {e : SchemaError} (h : E e) : Ensures (throw e : Planner α) Q E := fun _ => h

theorem Ensures.malformed {key : String} {e : StructureError} (h : E ⟨.node e, [key]⟩) :
    Ensures (malformed key e : Planner α) Q E := fun _ => h

theorem Ensures.bind {f : α → Planner β} {R : β → Prop} (h : Ensures p Q E)
    (h' : ∀ a, Q a → Ensures (f a) R E) : Ensures (p >>= f) R E := by
  intro c
  have hp := h c
  rw [run_bind]
  rcases hr : p c with ⟨r, c'⟩
  rw [hr] at hp
  cases r with
  | ok a => exact h' a hp c'
  | error e => exact hp

theorem Ensures.map {f : α → β} {R : β → Prop} (h : Ensures p Q E) (h' : ∀ a, Q a → R (f a)) :
    Ensures (f <$> p) R E := by
  rw [map_eq_pure_bind]
  exact h.bind fun a ha => .pure (h' a ha)

theorem Ensures.imp {R : α → Prop} {F : SchemaError → Prop} (h : Ensures p Q E) (hq : ∀ a, Q a → R a)
    (he : ∀ e, E e → F e) : Ensures p R F := by
  intro c
  have hp := h c
  rcases hr : p c with ⟨r, c'⟩
  rw [hr] at hp
  cases r with
  | ok a => exact hq a hp
  | error e => exact he e hp

theorem Ensures.inside {key : String} {F : SchemaError → Prop} (h : Ensures p Q E)
    (he : ∀ e, E e → F (e.inside key)) : Ensures (inside key p) Q F := by
  intro c
  have hp := h c
  rw [run_inside]
  rcases hr : p c with ⟨r, c'⟩
  rw [hr] at hp
  cases r with
  | ok a => exact hp
  | error e => exact he e hp

/-! ## What agrees but for cycles -/

def Agrees (p q : Planner α) : Prop := ∀ c, p c = q c ∨ ∃ e c', p c = (.error e, c') ∧ e.IsCycle

theorem Agrees.rfl : Agrees p p := fun _ => Or.inl (Eq.refl _)

theorem Agrees.cycle {q : Planner α} {key : String} {chain : List String} :
    Agrees (Planning.malformed key (.helperCycle chain)) q :=
  fun _ => Or.inr ⟨_, _, Eq.refl _, trivial⟩

theorem Agrees.bind {q : Planner α} {f g : α → Planner β} (h : Agrees p q)
    (h' : ∀ a, Agrees (f a) (g a)) : Agrees (p >>= f) (q >>= g) := by
  intro c
  rcases h c with hc | ⟨e, c', hc, he⟩
  · rw [run_bind, run_bind, hc]
    rcases q c with ⟨r, c'⟩
    cases r with
    | ok a => exact h' a c'
    | error e => exact Or.inl (Eq.refl _)
  · refine Or.inr ⟨e, c', ?_, he⟩
    rw [run_bind, hc]

theorem Agrees.map {q : Planner α} (f : α → β) (h : Agrees p q) : Agrees (f <$> p) (f <$> q) := by
  rw [map_eq_pure_bind, map_eq_pure_bind]
  exact h.bind fun a => .rfl

theorem Agrees.inside {q : Planner α} {key : String} (h : Agrees p q) :
    Agrees (inside key p) (inside key q) := by
  intro c
  rw [run_inside, run_inside]
  rcases h c with hc | ⟨e, c', hc, he⟩
  · rw [hc]
    exact Or.inl (Eq.refl _)
  · rw [hc]
    exact Or.inr ⟨_, _, Eq.refl _, he⟩

/-! ## Checks that know nothing of helpers -/

/-- Steps that compile texts and look at keywords: what they fail with is at a key of `K`, and wrong with the node. -/
inductive Checks (K : String → Prop) : {α : Type} → Planner α → Prop
  | pure {α : Type} (a : α) : Checks K (Pure.pure a : Planner α)
  | malformed {α : Type} {key : String} {e : StructureError} :
      K key → e.OfNode → Checks K (Planning.malformed key e : Planner α)
  | compile {key : String} (source : String) : K key → Checks K (Planning.compile key source)
  | bind {α β : Type} {p : Planner α} {f : α → Planner β} :
      Checks K p → (∀ a, Checks K (f a)) → Checks K (p >>= f)

section
variable {K : String → Prop}

theorem Checks.ensures (h : Checks K p) :
    Ensures p (fun _ => True) fun e => (∃ key, K key ∧ e.trail = [key]) ∧ e.OfNode := by
  induction h with
  | pure a => exact .pure trivial
  | @malformed _ key e hk he => exact .malformed ⟨⟨key, hk, rfl⟩, he⟩
  | @compile key source hk =>
    intro c
    rw [run_compile]
    rcases c.compile source with ⟨r, c'⟩
    cases r with
    | ok f => trivial
    | error e => exact ⟨⟨key, hk, Eq.refl _⟩, trivial⟩
  | bind _ _ ih ihf => exact ih.bind fun a _ => ihf a

/-- Whatever follows from a cycle holds of what a check fails with. -/
theorem Checks.acyclic {P : Prop} (h : Checks K p) : Ensures p (fun _ => True) fun e => e.IsCycle → P :=
  h.ensures.imp (fun _ h => h) fun _ he hc => absurd hc he.2.not_cycle

theorem Checks.map {f : α → β} (h : Checks K p) : Checks K (f <$> p) := by
  rw [map_eq_pure_bind]
  exact h.bind fun a => .pure _

theorem Checks.check {key : String} {r : Except StructureError α} (h : ∀ e, r = .error e → K key ∧ e.OfNode) :
    Checks K (check key r) := by
  unfold Planning.check
  split
  · exact .pure _
  · rename_i e
    obtain ⟨hk, he⟩ := h e rfl
    exact .malformed hk he

theorem Checks.mono {L : String → Prop} (h : Checks K p) (hKL : ∀ key, K key → L key) : Checks L p := by
  induction h with
  | pure a => exact .pure a
  | malformed hk he => exact .malformed (hKL _ hk) he
  | compile source hk => exact .compile source (hKL _ hk)
  | bind _ _ ih ihf => exact ih.bind ihf

/-- A check at a key that the node has. -/
theorem Checks.here {node : Row} {key : String} {v : Value} (h : Checks (· = key) p) (hv : Dict.get? node key = some v) :
    Checks (· ∈ Dict.keys node) p := by
  refine h.mono fun k hk => ?_
  rw [hk]
  exact Dict.mem_keys_of_get? hv

end

theorem checks_expression (key : String) (v : Value) : Checks (· = key) (expression key v) := by
  unfold expression
  split
  · split
    · exact .malformed rfl trivial
    · exact .compile _ rfl
  · exact .malformed rfl trivial

theorem checks_targetOf (key : String) : Checks (· = key) (targetOf key) := by
  unfold targetOf
  split
  · exact .pure _
  · exact .malformed rfl trivial

/-! ## Checks of keywords -/

theorem namePairs_error {ss : List String} {e : StructureError} (h : namePairs ss = .error e) : e.OfNode := by
  induction ss with
  | nil => cases h
  | cons s ss ih =>
    simp only [namePairs] at h
    split at h
    · cases hs : namePairs ss with
      | error e' => rw [hs] at h; cases h; exact ih hs
      | ok ps => rw [hs] at h; cases h
    · cases h; exact trivial

theorem renamePairs_error {ss : List String} {e : StructureError} (h : renamePairs ss = .error e) :
    ss ≠ [] ∧ e.OfNode := by
  induction ss with
  | nil => cases h
  | cons s ss ih =>
    refine ⟨List.cons_ne_nil _ _, ?_⟩
    simp only [renamePairs] at h
    split at h
    · cases hs : renamePairs ss with
      | error e' => rw [hs] at h; cases h; exact (ih hs).2
      | ok ps => rw [hs] at h; cases h
    · cases h; exact trivial

theorem exceptNames_error {ss : List String} {e : StructureError} (h : exceptNames ss = .error e) : e.OfNode := by
  unfold exceptNames at h
  split at h
  · cases h; exact trivial
  · cases h

theorem itemOf_error {v : Value} {e : StructureError} (h : itemOf v = .error e) : e.OfNode := by
  unfold itemOf at h
  split at h
  · split at h <;> cases h <;> exact trivial
  · cases h; exact trivial

section
variable {node : Row}

theorem checks_binding (node : Row) : Checks (· ∈ Dict.keys node) (binding node) := by
  unfold binding
  split
  · rename_i hn _
    exact .malformed (Dict.mem_keys_of_get? hn) trivial
  · rename_i hn _
    split
    · exact .pure _
    · exact .malformed (Dict.mem_keys_of_get? hn) trivial
  · rename_i hn _
    exact .malformed (Dict.mem_keys_of_get? hn) trivial
  · rename_i _ he
    split
    · exact .pure _
    · exact .malformed (Dict.mem_keys_of_get? he) trivial
  · rename_i _ he
    exact .malformed (Dict.mem_keys_of_get? he) trivial
  · exact .pure _

theorem checks_optionalExpression (node : Row) (key : String) :
    Checks (· ∈ Dict.keys node) (optionalExpression node key) := by
  unfold optionalExpression
  split
  · rename_i v hv
    exact ((checks_expression key v).here hv).map
  · exact .pure _

theorem checks_reverse (node : Row) : Checks (· ∈ Dict.keys node) (reverse node) := by
  unfold reverse
  split
  · exact .pure _
  · exact .pure _
  · rename_i hv
    exact ((checks_expression _ _).here hv).map
  · rename_i hv
    exact .malformed (Dict.mem_keys_of_get? hv) trivial

/-- What follows a list of strings may take the key for present if there was a list. -/
theorem checks_stringList_bind {key : String} {f : Option (List String) → Planner α}
    (h : ∀ r, (r ≠ none → key ∈ Dict.keys node) → Checks (· ∈ Dict.keys node) (f r)) :
    Checks (· ∈ Dict.keys node) (stringList node key >>= f) := by
  have hlist : ∀ v, Dict.get? node key = some v → ∀ r, Checks (· ∈ Dict.keys node) (f r) :=
    fun v hv r => h r fun _ => Dict.mem_keys_of_get? hv
  unfold stringList
  split
  · rw [pure_bind]
    exact h none fun hne => absurd rfl hne
  · rename_i hv
    refine Checks.bind ?_ (hlist _ hv)
    split
    · exact .pure _
    · exact .malformed (Dict.mem_keys_of_get? hv) trivial
  · rename_i hv
    exact Checks.bind (.malformed (Dict.mem_keys_of_get? hv) trivial) (hlist _ hv)

theorem checks_projection (node : Row) : Checks (· ∈ Dict.keys node) (projection node) := by
  refine checks_stringList_bind fun only ho => checks_stringList_bind fun except he =>
    checks_stringList_bind fun rename hr => ?_
  cases only with
  | some names =>
    have ho := ho (Option.some_ne_none names)
    dsimp only
    split
    · exact .malformed ho trivial
    · split
      · exact .malformed ho trivial
      · exact (Checks.check fun e h => ⟨ho, namePairs_error h⟩).bind fun _ => .pure _
  | none =>
    have hrename : ∀ e, renamePairs (rename.getD []) = .error e → Keyword.rename ∈ Dict.keys node ∧ e.OfNode := by
      intro e h
      obtain ⟨hne, hc⟩ := renamePairs_error h
      refine ⟨hr ?_, hc⟩
      rintro rfl
      exact hne rfl
    cases except with
    | some names =>
      have he := he (Option.some_ne_none names)
      exact (Checks.check fun e h => ⟨he, exceptNames_error h⟩).map.bind fun _ =>
        (Checks.check hrename).bind fun _ => .pure _
    | none => exact (Checks.pure Selection.all).bind fun _ => (Checks.check hrename).bind fun _ => .pure _

theorem checks_item (node : Row) : Checks (· ∈ Dict.keys node) (item node) := by
  unfold item
  split
  · rename_i v hv
    exact (Checks.check fun e h => ⟨Dict.mem_keys_of_get? hv, itemOf_error h⟩).map
  · exact .pure _

theorem checks_frame (node : Row) (b : Binding) : Checks (· ∈ Dict.keys node) (frame node b) :=
  (checks_optionalExpression node _).bind fun _ => (checks_optionalExpression node _).bind fun _ =>
    (checks_reverse node).bind fun _ => (checks_projection node).bind fun _ => (checks_item node).bind fun _ => .pure _

end

end Planning

end MockSchema
