/-
  MockSchema.Proofs.SharedCache — a cache that is kept from one node to the next makes no difference.

  `Fresh p`: from every sound cache, `p` comes to what it comes to from the empty one, and leaves a sound cache in
  which nothing is lost. It goes through the steps of a planner one by one, also where they fail, so a
  history of nodes has the outcomes that each would have had alone (`applyAll_eq_once`).
-/

import MockSchema.Proofs.Composition
import MockSchema.Proofs.Validation
import MockSchema.Schema.Render

namespace MockSchema

/-! ## Growing caches -/

namespace Cache

/-- Nothing is lost, and nothing that was compiled is compiled to something else. -/
def Extends (c d : Cache) : Prop := ∀ s f, Dict.get? c s = some f → Dict.get? d s = some f

theorem Extends.refl (c : Cache) : c.Extends c := fun _ _ h => h

theorem Extends.trans {c d e : Cache} (h : c.Extends d) (h' : d.Extends e) : c.Extends e :=
  fun s f hs => h' s f (h s f hs)

theorem extends_compile (c : Cache) (source : String) : c.Extends (c.compile source).2 := by
  unfold compile
  split
  · exact .refl c
  · rename_i hnone
    split
    · intro s f hs
      have hne : source ≠ s := by
        rintro rfl
        rw [hnone] at hs
        cases hs
      rw [Dict.get?_put, if_neg hne, hs]
    · exact .refl c

end Cache

namespace Planning

/-! ## Steps that a cache makes no difference to -/

section
variable {α β : Type} {p : Planner α}

def Fresh (p : Planner α) : Prop :=
  ∀ c : Cache, c.Sound → (p c).1 = (p []).1 ∧ (p c).2.Sound ∧ c.Extends (p c).2

theorem Fresh.pure (a : α) : Fresh (pure a : Planner α) := fun c hc => ⟨rfl, hc, .refl c⟩

theorem Fresh.throw (e : SchemaError) : Fresh (throw e : Planner α) := fun c hc => ⟨rfl, hc, .refl c⟩

theorem Fresh.bind {f : α → Planner β} (h : Fresh p) (h' : ∀ a, Fresh (f a)) : Fresh (p >>= f) := by
  intro c hc
  obtain ⟨hp, hsound, hext⟩ := h c hc
  obtain ⟨-, hsound₀, -⟩ := h [] Cache.sound_empty
  rw [run_bind, run_bind]
  rcases hr : p c with ⟨r, c'⟩
  rcases hr₀ : p [] with ⟨r₀, c₀⟩
  rw [hr] at hp hsound hext
  rw [hr₀] at hp hsound₀
  cases hp
  cases r with
  | error e => exact ⟨rfl, hsound, hext⟩
  | ok a =>
    -- Both go on from a sound cache, so both do what they would from the empty one.
    obtain ⟨hf, hsound', hext'⟩ := h' a c' hsound
    obtain ⟨hf₀, -, -⟩ := h' a c₀ hsound₀
    exact ⟨hf.trans hf₀.symm, hsound', hext.trans hext'⟩

theorem Fresh.inside {key : String} (h : Fresh p) : Fresh (inside key p) := by
  intro c hc
  obtain ⟨hp, hsound, hext⟩ := h c hc
  rw [run_inside, run_inside]
  rcases hr : p c with ⟨r, c'⟩
  rcases hr₀ : p [] with ⟨r₀, c₀⟩
  rw [hr] at hp hsound hext
  rw [hr₀] at hp
  cases hp
  cases r <;> exact ⟨rfl, hsound, hext⟩

theorem fresh_compile (key source : String) : Fresh (compile key source) := by
  intro c hc
  have hext := c.extends_compile source
  obtain ⟨c', hsound, hr⟩ := hc.compile source
  obtain ⟨c₀, -, hr₀⟩ := Cache.sound_empty.compile source
  rw [hr] at hext
  rw [run_compile, run_compile, hr, hr₀]
  cases Formula.compile source <;> exact ⟨rfl, hsound, hext⟩

theorem Checks.fresh {K : String → Prop} (h : Checks K p) : Fresh p := by
  induction h with
  | pure a => exact .pure a
  | malformed _ _ => exact .throw _
  | compile source _ => exact fresh_compile _ source
  | bind _ _ ih ihf => exact ih.bind ihf

end

/-! ## The planner -/

theorem Composed.fresh {α : Type} {p : Planner α} (h : Composed p) : Fresh p := by
  induction h with
  | checks h => exact h.fresh
  | cycle _ => exact .throw _
  | missing _ => exact .throw _
  | notObject => exact .throw _
  | bind _ _ ih ihf => exact ih.bind ihf
  | inside _ _ ih => exact ih.inside

theorem plan_fresh (src : Source) (v : Value) : Fresh (plan src v) := (plan_composed src v).fresh

end Planning

/-! ## Histories -/

namespace Render

/-- The outcomes of values that are planned and run one after another, with one cache for all of them. -/
def applyAll (src : Source) : List (Env × Value) → Cache → List (Result Value) × Cache
  | [], cache => ([], cache)
  | (env, v) :: requests, cache =>
    let (r, cache) := apply src env v cache
    let (rs, cache) := applyAll src requests cache
    (r :: rs, cache)

section
variable (src : Source) {c : Cache}

theorem apply_fresh (hc : c.Sound) (env : Env) (v : Value) :
    (apply src env v c).1 = once src env v ∧ (apply src env v c).2.Sound ∧ c.Extends (apply src env v c).2 := by
  obtain ⟨hp, hsound, hext⟩ := Planning.plan_fresh src v c hc
  unfold once apply
  rcases hr : Planning.plan src v c with ⟨r, c'⟩
  rcases hr₀ : Planning.plan src v [] with ⟨r₀, c₀⟩
  rw [hr] at hp hsound hext
  rw [hr₀] at hp
  cases hp
  cases r <;> exact ⟨rfl, hsound, hext⟩

theorem applyAll_fresh (requests : List (Env × Value)) (hc : c.Sound) :
    (applyAll src requests c).1 = requests.map (fun q => once src q.1 q.2) ∧
      (applyAll src requests c).2.Sound ∧ c.Extends (applyAll src requests c).2 := by
  induction requests generalizing c with
  | nil => exact ⟨rfl, hc, .refl c⟩
  | cons q requests ih =>
    obtain ⟨env, v⟩ := q
    obtain ⟨hr, hsound, hext⟩ := apply_fresh src hc env v
    obtain ⟨hrs, hsound', hext'⟩ := ih hsound
    refine ⟨?_, hsound', hext.trans hext'⟩
    show (apply src env v c).1 :: (applyAll src requests (apply src env v c).2).1 = _
    rw [hr, hrs, List.map_cons]

theorem applyAll_append (requests more : List (Env × Value)) :
    (applyAll src (requests ++ more) c).2 = (applyAll src more (applyAll src requests c).2).2 := by
  induction requests generalizing c with
  | nil => rfl
  | cons q requests ih => exact ih

end

/-- Each value of a history, failed ones included, comes to what it comes to with a cache of its own. At every point of
the history the cache holds texts with what they compile to; nothing that is held is ever lost, and no text that
does not compile is held. -/
theorem applyAll_eq_once (src : Source) (requests : List (Env × Value)) :
    (applyAll src requests []).1 = requests.map (fun q => once src q.1 q.2) ∧
    (∀ s f, Dict.get? (applyAll src requests []).2 s = some f → Formula.compile s = .ok f) ∧
    (∀ more s f, Dict.get? (applyAll src requests []).2 s = some f →
      Dict.get? (applyAll src (requests ++ more) []).2 s = some f) ∧
    ∀ s e, Formula.compile s = .error e → Dict.get? (applyAll src requests []).2 s = none := by
  obtain ⟨hr, hsound, -⟩ := applyAll_fresh src requests Cache.sound_empty
  refine ⟨hr, hsound, fun more s f hs => ?_, fun s e he => ?_⟩
  · obtain ⟨-, -, hext⟩ := applyAll_fresh src more hsound
    rw [applyAll_append]
    exact hext s f hs
  · cases hs : Dict.get? (applyAll src requests []).2 s with
    | none => rfl
    | some f => rw [hsound s f hs] at he; cases he

/-- A node that fails after its first field leaves that field's text in the cache. -/
example : Dict.keys (applyAll Memory.empty.source [([], .object [("a", .str "1"), ("b", .str "+")])] []).2 = ["1"] := by
  decide

end Render

end MockSchema
