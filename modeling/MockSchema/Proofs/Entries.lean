/-
  MockSchema.Proofs.Entries — the entries of an object, each run on its own cursors.

  The entries run one after the other on the same cursors. But an entry moves only cursors at locations that it owns,
  and no other entry of the object owns any of them. So each entry runs as it would have run at the
  start, and what it leaves where it owns them stays (`entries_run`).
-/

import MockSchema.Proofs.Locations
import MockSchema.Proofs.Proper

namespace MockSchema

/-! ## Cursors that stand alike -/

/-- The cursors at these locations stand alike. -/
def Cursors.Same (F : String → Prop) (c d : Cursors) : Prop := ∀ l, F l → Dict.get? c l = Dict.get? d l

theorem Cursors.Same.symm {F : String → Prop} {c d : Cursors} (h : Same F c d) : Same F d c :=
  fun l hl => (h l hl).symm

namespace Example

open Cursors (Same)

section
variable {α β : Type} {F G : String → Prop} {p : Expansion α}

/-- Only cursors at these locations are moved, also where the expansion fails. -/
def Moves (F : String → Prop) (p : Expansion α) : Prop := ∀ c l, ¬ F l → Dict.get? (p c).2 l = Dict.get? c l

theorem Moves.mono (h : Moves F p) (hFG : ∀ l, F l → G l) : Moves G p :=
  fun c l hl => h c l fun hF => hl (hFG l hF)

theorem Moves.pure (a : α) : Moves F (pure a : Expansion α) := fun _ _ _ => rfl

theorem moves_draw {location : String} (h : F location) (length : Nat) : Moves F (draw location length) := by
  intro c l hl
  rw [run_draw, Cursors.get?_advance, if_neg]
  rintro ⟨rfl, _⟩
  exact hl h

theorem Moves.bind_of {f : α → Expansion β} (h : Moves F p)
    (h' : ∀ c a c', p c = (.ok a, c') → Moves F (f a)) : Moves F (p >>= f) := by
  intro c l hl
  have hp := h c l hl
  rw [run_bind]
  rcases hr : p c with ⟨r, c'⟩
  rw [hr] at hp
  cases r with
  | error e => exact hp
  | ok a => exact (h' c a c' hr c' l hl).trans hp

end

/-! ## The entries of an object -/

/-- The entry is one that is expanded. -/
def Data (fields : Dict Value) (key : String) (v : Value) : Prop :=
  (key, v) ∈ fields ∧ isAnnotation key.toList = false

theorem data_cons {key k : String} {v w : Value} {fields : Dict Value} :
    Data ((key, v) :: fields) k w ↔ (k = key ∧ w = v ∧ isAnnotation key.toList = false) ∨ Data fields k w := by
  simp only [Data, List.mem_cons, Prod.mk.injEq]
  constructor
  · rintro ⟨⟨rfl, rfl⟩ | h, hk⟩
    · exact Or.inl ⟨rfl, rfl, hk⟩
    · exact Or.inr ⟨h, hk⟩
  · rintro (⟨rfl, rfl, hk⟩ | ⟨h, hk⟩)
    · exact ⟨Or.inl ⟨rfl, rfl⟩, hk⟩
    · exact ⟨Or.inr h, hk⟩

theorem Data.mem_keys {fields : Dict Value} {key : String} {v : Value} (h : Data fields key v) :
    key ∈ Dict.keys fields := List.mem_map.2 ⟨_, h.1, rfl⟩

section
variable {location : String} {all : Dict Value}

/-- Each entry ran from cursors that stood, where it owns them, as they did at the start, and nothing came after
it there. -/
structure Ran (location : String) (all fields done : Dict Value) (c : Cursors) (out : Dict Value) (c' : Cursors) :
    Prop where
  entry : ∀ key v, Data fields key v → ∃ d w d', Same (Owns location key) c d ∧
    Example.entry location all key v d = (.ok w, d') ∧ Dict.get? out key = some w ∧ Same (Owns location key) d' c'
  other : ∀ key, (∀ v, ¬ Data fields key v) → Dict.get? out key = Dict.get? done key
  nodup : (Dict.keys done).Nodup → (Dict.keys out).Nodup
  rest : ∀ l, (∀ key v, Data fields key v → ¬ Owns location key l) → Dict.get? c' l = Dict.get? c l

/-- Some entry failed, from cursors that stood where it owns them as they did at the start. -/
def Failed (location : String) (all fields : Dict Value) (c : Cursors) : Prop :=
  ∃ key v d e d', Data fields key v ∧ Same (Owns location key) c d ∧
    Example.entry location all key v d = (.error e, d')

theorem entries_run {fields : Dict Value} (hn : (Dict.keys fields).Nodup)
    (hm : ∀ key v, Data fields key v → Moves (Owns location key) (entry location all key v))
    (done : Dict Value) (c : Cursors) :
    match entries location all fields done c with
    | (.ok out, c') => Ran location all fields done c out c'
    | (.error _, _) => Failed location all fields c := by
  induction fields generalizing done c with
  | nil =>
    have hno : ∀ key v, ¬ Data [] key v := fun _ _ h => by cases h.1
    exact ⟨fun key v h => absurd h (hno key v), fun _ _ => rfl, id, fun _ _ => rfl⟩
  | cons kv fields ih =>
    obtain ⟨key, v⟩ := kv
    obtain ⟨hnot, hn⟩ := List.nodup_cons.1 hn
    have ih := ih hn fun k w h => hm k w (data_cons.2 (Or.inr h))
    rw [entries_cons]
    by_cases hk : isAnnotation key.toList = true
    · have hdata : ∀ k w, Data ((key, v) :: fields) k w ↔ Data fields k w := fun k w => by simp [data_cons, hk]
      have h := ih done c
      rw [if_pos hk]
      rcases hr : entries location all fields done c with ⟨r, c'⟩
      rw [hr] at h
      cases r with
      | error e =>
        obtain ⟨k, w, d, e, d', hd, h⟩ := h
        exact ⟨k, w, d, e, d', (hdata k w).2 hd, h⟩
      | ok out =>
        refine ⟨fun k w hd => h.entry k w ((hdata k w).1 hd), fun k hno => ?_, h.nodup, fun l hno => ?_⟩
        · exact h.other k fun w hd => hno w ((hdata k w).2 hd)
        · exact h.rest l fun k w hd => hno k w ((hdata k w).2 hd)
    · have hk : isAnnotation key.toList = false := by simpa using hk
      have hhere : Data ((key, v) :: fields) key v := data_cons.2 (Or.inl ⟨rfl, rfl, hk⟩)
      -- No other entry owns what this one does, so this one moves nothing of theirs.
      have hapart : ∀ k w l, Data fields k w → Owns location key l → ¬ Owns location k l := by
        intro k w l hd hl hl'
        have := hl.unique hl' hk hd.2
        exact hnot (this ▸ hd.mem_keys)
      have hmove := hm key v hhere c
      rw [if_neg (by simp [hk]), run_bind]
      rcases hr : entry location all key v c with ⟨r, c1⟩
      rw [hr] at hmove
      have hsame : ∀ k w, Data fields k w → Same (Owns location k) c c1 := fun k w hd l hl =>
        (hmove l fun hl' => hapart k w l hd hl' hl).symm
      cases r with
      | error e => exact ⟨key, v, c, e, c1, hhere, fun _ _ => rfl, hr⟩
      | ok out1 =>
        have h := ih (Dict.put done key out1) c1
        dsimp only
        rcases hr' : entries location all fields (Dict.put done key out1) c1 with ⟨r, c'⟩
        rw [hr'] at h
        cases r with
        | error e =>
          obtain ⟨k, w, d, e, d', hd, hs, h⟩ := h
          exact ⟨k, w, d, e, d', data_cons.2 (Or.inr hd), fun l hl => (hsame k w hd l hl).trans (hs l hl), h⟩
        | ok out =>
          refine ⟨fun k w hd => ?_, fun k hno => ?_, fun hdone => h.nodup (Dict.nodup_put _ _ _ hdone), fun l hno => ?_⟩
          · rcases data_cons.1 hd with ⟨rfl, rfl, _⟩ | hd
            · refine ⟨c, out1, c1, fun _ _ => rfl, hr, ?_, fun l hl => ?_⟩
              · rw [h.other k fun w hd => hnot hd.mem_keys, Dict.get?_put, if_pos rfl]
              · exact (h.rest l fun k' w hd hl' => hapart k' w l hd hl hl').symm
            · obtain ⟨d, out2, d', hs, h⟩ := h.entry k w hd
              exact ⟨d, out2, d', fun l hl => (hsame k w hd l hl).trans (hs l hl), h⟩
          · have hne : key ≠ k := by
              rintro rfl
              exact hno v hhere
            rw [h.other k fun w hd => hno w (data_cons.2 (Or.inr hd)), Dict.get?_put, if_neg hne]
          · rw [h.rest l fun k w hd => hno k w (data_cons.2 (Or.inr hd))]
            exact hmove l (hno key v hhere)

theorem entries_moves {F : String → Prop} {fields : Dict Value}
    (hm : ∀ key v, Data fields key v → Moves F (entry location all key v)) (done : Dict Value) :
    Moves F (entries location all fields done) := by
  induction fields generalizing done with
  | nil => exact .pure done
  | cons kv fields ih =>
    obtain ⟨key, v⟩ := kv
    have ih := ih fun k w h => hm k w (data_cons.2 (Or.inr h))
    rw [entries_cons]
    split
    · exact ih done
    · rename_i hk
      have hhere : Data ((key, v) :: fields) key v := data_cons.2 (Or.inl ⟨rfl, rfl, by simpa using hk⟩)
      exact (hm key v hhere).bind_of fun _ out _ _ => ih _

section
variable {fields out : Dict Value} {c c' : Cursors}

theorem Ran.mem_keys (h : Ran location all fields [] c out c') {key : String} :
    key ∈ Dict.keys out ↔ ∃ v, Data fields key v := by
  rw [Dict.mem_keys_iff]
  constructor
  · rintro ⟨w, hw⟩
    by_cases hd : ∃ v, Data fields key v
    · exact hd
    · rw [h.other key fun v hv => hd ⟨v, hv⟩] at hw
      cases hw
  · rintro ⟨v, hv⟩
    obtain ⟨_, w, _, _, _, hw, _⟩ := h.entry key v hv
    exact ⟨w, hw⟩

end

end

/-! ## The root -/

theorem withoutChain_proper {v : Value} (h : v.Proper) : (withoutChain v).Proper := by
  cases h with
  | @object fields hn hf =>
    have hsub : (fields.filter (·.1 != chainKey)).Sublist fields := List.filter_sublist
    exact .object (hn.sublist (hsub.map _)) fun kv hkv => hf kv (hsub.subset hkv)
  | list hall => exact .list hall
  | null => exact .null
  | bool b => exact .bool b
  | int n => exact .int n
  | float x => exact .float x
  | str s => exact .str s

end Example

end MockSchema
