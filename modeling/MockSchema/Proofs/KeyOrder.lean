/-
  MockSchema.Proofs.KeyOrder — an example expands to the same, whatever the order of its keys.

  The entries of an object run one after the other on the same cursors, and a repeat runs a whole object many
  times. But each entry runs as it would have run at the start (`entries_run`), so entries of two orders can be
  compared key by key.

  `Alike F R p q` compares two expansions over the cursors of `F`: from cursors that stand alike there,
  both return, with values that `R` relates, and leave them alike, or both fail; and neither moves any
  other cursor. It goes through the steps of an expansion one by one.
-/

import Mathlib.Data.List.Forall2
import Mathlib.Data.List.Nodup
import MockSchema.Proofs.Entries

namespace MockSchema

/-- Equal up to the order of the keys in objects. -/
inductive Value.Reordered : Value → Value → Prop
  | null : Reordered .null .null
  | bool (b : Bool) : Reordered (.bool b) (.bool b)
  | int (n : Int) : Reordered (.int n) (.int n)
  | float (x : Float) : Reordered (.float x) (.float x)
  | str (s : String) : Reordered (.str s) (.str s)
  | list {xs ys : List Value} : xs.length = ys.length →
      (∀ (i : Nat) (x y : Value), xs[i]? = some x → ys[i]? = some y → Reordered x y) →
      Reordered (.list xs) (.list ys)
  | object {a b : Dict Value} : (Dict.keys a).Perm (Dict.keys b) →
      (∀ key v w, Dict.get? a key = some v → Dict.get? b key = some w → Reordered v w) →
      Reordered (.object a) (.object b)

namespace Value.Reordered

theorem ofForall₂ {xs ys : List Value} (h : List.Forall₂ Reordered xs ys) : Reordered (.list xs) (.list ys) := by
  refine .list h.length_eq ?_
  induction h with
  | nil => intro i x y hx; simp at hx
  | cons hxy _ ih =>
    intro i x y hx hy
    cases i with
    | zero => cases hx; cases hy; exact hxy
    | succ i => exact ih i x y hx hy

protected theorem refl : (v : Value) → Reordered v v
  | .null => .null
  | .bool b => .bool b
  | .int n => .int n
  | .float x => .float x
  | .str s => .str s
  | .list xs => by
    refine .list rfl fun i x y hx hy => ?_
    rw [hx] at hy
    cases hy
    have hlt := List.sizeOf_lt_of_mem (List.mem_of_getElem? hx)
    exact Reordered.refl x
  | .object a => by
    refine .object (.refl _) fun key v w hv hw => ?_
    rw [hv] at hw
    cases hw
    have hlt := List.sizeOf_lt_of_mem (Dict.mem_of_get? hv)
    exact Reordered.refl v
  termination_by v => sizeOf v
  decreasing_by all_goals simp_all; omega

section
variable {a b : Dict Value} {key : String}

/-- Under a key both have a value, or neither has. -/
theorem lookup (h : Reordered (.object a) (.object b)) (key : String) :
    (∃ v w, Dict.get? a key = some v ∧ Dict.get? b key = some w ∧ Reordered v w) ∨
      (Dict.get? a key = none ∧ Dict.get? b key = none) := by
  cases h with
  | object hkeys hvals =>
    have hiff : (∃ v, Dict.get? a key = some v) ↔ ∃ w, Dict.get? b key = some w := by
      rw [← Dict.mem_keys_iff, ← Dict.mem_keys_iff, hkeys.mem_iff]
    cases ha : Dict.get? a key with
    | some v =>
      obtain ⟨w, hb⟩ := hiff.1 ⟨v, ha⟩
      exact Or.inl ⟨v, w, rfl, hb, hvals key v w ha hb⟩
    | none =>
      cases hb : Dict.get? b key with
      | some w => obtain ⟨v, ha'⟩ := hiff.2 ⟨w, hb⟩; rw [ha] at ha'; cases ha'
      | none => exact Or.inr ⟨rfl, rfl⟩

/-- The entries of an object in another order. -/
theorem ofPerm (hn : (Dict.keys a).Nodup) (h : a.Perm b) : Reordered (.object a) (.object b) := by
  have hkeys : (Dict.keys a).Perm (Dict.keys b) := h.map _
  refine .object hkeys fun key v w hv hw => ?_
  have hmem : (key, w) ∈ a := h.mem_iff.2 (Dict.mem_of_get? hw)
  rw [Dict.mem_iff_get? hn, hv] at hmem
  cases hmem
  exact .refl v

theorem filter (h : Reordered (.object a) (.object b)) (key : String) :
    Reordered (.object (a.filter (·.1 != key))) (.object (b.filter (·.1 != key))) := by
  cases h with
  | object hkeys hvals =>
    refine .object ?_ fun k v w hv hw => ?_
    · have hmap : ∀ d : Dict Value, Dict.keys (d.filter (·.1 != key)) = (Dict.keys d).filter (· != key) := fun d => by
        rw [Dict.keys, Dict.keys, List.filter_map]; rfl
      rw [hmap, hmap]
      exact hkeys.filter _
    · rw [Dict.get?_filter] at hv hw
      split at hv
      · cases hv
      · rename_i hne
        rw [if_neg hne] at hw
        exact hvals k v w hv hw

end

/-- Both lists have an element there, or neither has. -/
theorem element {xs ys : List Value} (h : Reordered (.list xs) (.list ys)) (p : Option Nat) :
    (∃ x y, p.bind (xs[·]?) = some x ∧ p.bind (ys[·]?) = some y ∧ Reordered x y) ∨
      (p.bind (xs[·]?) = none ∧ p.bind (ys[·]?) = none) := by
  cases h with
  | list hlen hall =>
    cases p with
    | none => exact Or.inr ⟨rfl, rfl⟩
    | some i =>
      by_cases hi : i < xs.length
      · have hx := List.getElem?_eq_getElem hi
        have hy := List.getElem?_eq_getElem (hlen ▸ hi)
        exact Or.inl ⟨_, _, hx, hy, hall i _ _ hx hy⟩
      · have hx : xs.length ≤ i := Nat.not_lt.1 hi
        exact Or.inr ⟨List.getElem?_eq_none hx, List.getElem?_eq_none (hlen ▸ hx)⟩

end Value.Reordered

namespace Example

open Value (Reordered)
open Cursors (Same)

section
variable {α β γ δ : Type} {F G : String → Prop} {R : α → β → Prop} {S : γ → δ → Prop}
  {p : Expansion α} {q : Expansion β}

def Both (F : String → Prop) (R : α → β → Prop) :
    Except ExampleError α × Cursors → Except ExampleError β × Cursors → Prop
  | (.ok a, c), (.ok b, d) => R a b ∧ Same F c d
  | (.error _, _), (.error _, _) => True
  | _, _ => False

structure Alike (F : String → Prop) (R : α → β → Prop) (p : Expansion α) (q : Expansion β) : Prop where
  left : Moves F p
  right : Moves F q
  outcome : ∀ c d, Same F c d → Both F R (p c) (q d)

theorem Alike.pure {a : α} {b : β} (h : R a b) : Alike F R (pure a) (pure b) :=
  ⟨fun _ _ _ => rfl, fun _ _ _ => rfl, fun _ _ hs => ⟨h, hs⟩⟩

theorem Alike.refuse {l l' : String} {e e' : RepeatCause} :
    Alike F R (Example.refuse l e) (Example.refuse l' e') :=
  ⟨fun _ _ _ => rfl, fun _ _ _ => rfl, fun _ _ _ => trivial⟩

theorem Alike.ok_left (h : Alike F R p q) {c d c' : Cursors} {a : α} (hs : Same F c d) (hp : p c = (.ok a, c')) :
    ∃ b d', q d = (.ok b, d') ∧ R a b ∧ Same F c' d' := by
  have ho := h.outcome c d hs
  rw [hp] at ho
  rcases hq : q d with ⟨r, d'⟩
  rw [hq] at ho
  cases r with
  | error e => exact ho.elim
  | ok b => exact ⟨b, d', rfl, ho⟩

theorem Alike.error_left (h : Alike F R p q) {c d c' : Cursors} {e : ExampleError} (hs : Same F c d)
    (hp : p c = (.error e, c')) : ∃ e' d', q d = (.error e', d') := by
  have ho := h.outcome c d hs
  rw [hp] at ho
  rcases hq : q d with ⟨r, d'⟩
  rw [hq] at ho
  cases r with
  | error e' => exact ⟨e', d', rfl⟩
  | ok b => exact ho.elim

theorem Alike.flip (h : Alike F R p q) : Alike F (fun b a => R a b) q p := by
  refine ⟨h.right, h.left, fun c d hs => ?_⟩
  have ho := h.outcome d c hs.symm
  rcases hp : p d with ⟨r, d'⟩
  rcases hq : q c with ⟨r', c'⟩
  rw [hp, hq] at ho
  cases r <;> cases r'
  · exact ho
  · exact ho
  · exact ho
  · exact ⟨ho.1, ho.2.symm⟩

theorem Alike.bind {f : α → Expansion γ} {g : β → Expansion δ} (h : Alike F R p q)
    (h' : ∀ a b, R a b → Alike F S (f a) (g b)) : Alike F S (p >>= f) (q >>= g) := by
  refine ⟨h.left.bind_of fun c a c' hp => ?_, h.right.bind_of fun c b c' hq => ?_, fun c d hs => ?_⟩
  · obtain ⟨b, _, _, hab, _⟩ := h.ok_left (fun _ _ => rfl : Same F c c) hp
    exact (h' a b hab).left
  · obtain ⟨a, _, _, hab, _⟩ := h.flip.ok_left (fun _ _ => rfl : Same F c c) hq
    exact (h' a b hab).right
  · rw [run_bind, run_bind]
    rcases hp : p c with ⟨r, c'⟩
    cases r with
    | error e =>
      obtain ⟨e', d', hq⟩ := h.error_left hs hp
      rw [hq]
      trivial
    | ok a =>
      obtain ⟨b, d', hq, hab, hs'⟩ := h.ok_left hs hp
      rw [hq]
      exact (h' a b hab).outcome c' d' hs'

/-- What neither moves stands alike afterwards if it did before. -/
theorem Alike.mono (h : Alike F R p q) (hFG : ∀ l, F l → G l) : Alike G R p q := by
  refine ⟨h.left.mono hFG, h.right.mono hFG, fun c d hs => ?_⟩
  have ho := h.outcome c d fun l hl => hs l (hFG l hl)
  have hl := h.left c
  have hr := h.right d
  rcases hp : p c with ⟨r, c'⟩
  rcases hq : q d with ⟨r', d'⟩
  rw [hp] at ho hl
  rw [hq] at ho hr
  cases r <;> cases r'
  · exact ho
  · exact ho
  · exact ho
  · refine ⟨ho.1, fun l hG => ?_⟩
    by_cases hF : F l
    · exact ho.2 l hF
    · exact (hl l hF).trans ((hs l hG).trans (hr l hF).symm)

end

/-! ## Draws and repeats -/

section
variable {F : String → Prop}

theorem alike_draw {location : String} (hF : F location) (length : Nat) :
    Alike F (fun a b => a = b) (draw location length) (draw location length) := by
  refine ⟨moves_draw hF length, moves_draw hF length, fun c d hs => ?_⟩
  have hpeek : c.peek location = d.peek location := by rw [Cursors.peek, Cursors.peek, hs location hF]
  rw [run_draw, run_draw]
  refine ⟨Cursors.advance_congr hpeek length, fun l hl => ?_⟩
  rw [Cursors.get?_advance, Cursors.get?_advance, hpeek, hs l hl]

theorem alike_pick {location : String} (hF : F location) {xs ys : List Value}
    (h : Reordered (.list xs) (.list ys)) : Alike F Reordered (pick xs location) (pick ys location) := by
  have hlen : xs.length = ys.length := by cases h with | list hlen _ => exact hlen
  unfold pick
  rw [← hlen]
  refine (alike_draw hF xs.length).bind ?_
  rintro p _ rfl
  rcases h.element p with ⟨x, y, hx, hy, hxy⟩ | ⟨hx, hy⟩
  · rw [hx, hy]; exact .pure hxy
  · rw [hx, hy]; exact .pure .null

variable {one one' : Expansion Value}

theorem alike_runs (h : Alike F Reordered one one') (n : Nat) {done done' : List Value}
    (hd : List.Forall₂ Reordered done done') :
    Alike F (List.Forall₂ Reordered) (runs one n done) (runs one' n done') := by
  induction n generalizing done done' with
  | zero => exact .pure hd
  | succ n ih => exact h.bind fun v w hvw => ih (.cons hvw hd)

theorem alike_count (h : Alike F Reordered one one') (n : Int) (l : String) :
    Alike F Reordered (count one n l) (count one' n l) := by
  unfold count
  split
  · exact .refuse
  · refine (alike_runs h n.natAbs .nil).bind fun vs ws hvw => .pure ?_
    split
    · exact .ofForall₂ hvw
    · exact .ofForall₂ (List.rel_reverse hvw)

theorem alike_listedCount (h : Alike F Reordered one one') (l : String) {v w : Value} (hvw : Reordered v w) :
    Alike F Reordered (listedCount one v l) (listedCount one' w l) := by
  cases hvw with
  | null => exact .pure .null
  | int n =>
    simp only [listedCount]
    split
    · exact .refuse
    · split
      · exact alike_count h n l
      · exact .refuse
  | _ => exact .refuse

theorem alike_repeated (h : Alike F Reordered one one') {l : String} (hF : F l) {v w how how' : Value}
    (hvw : Reordered v w) (hhow : Reordered how how') :
    Alike F Reordered (repeated one v how l) (repeated one' w how' l) := by
  cases hhow with
  | null => exact .pure .null
  | bool b =>
    cases b with
    | false => exact h
    | true =>
      have hone : Reordered (.list [v]) (.list [w]) := .ofForall₂ (.cons hvw .nil)
      cases hvw with
      | list hlen hall => exact .pure (.list hlen hall)
      | _ => exact .pure hone
  | int n =>
    simp only [repeated]
    split
    · exact alike_count h n l
    · exact .refuse
  | @list xs ys hlen hall =>
    simp only [repeated]
    rw [← hlen]
    refine (alike_draw hF xs.length).bind ?_
    rintro p _ rfl
    rcases (Reordered.list hlen hall).element p with ⟨x, y, hx, hy, hxy⟩ | ⟨hx, hy⟩
    · rw [hx, hy]; exact alike_listedCount h l hxy
    · rw [hx, hy]; exact .pure .null
  | _ => exact .refuse

end

/-! ## Reordered objects -/

section
variable {location : String} {a b out out' : Dict Value} {c d c' d' : Cursors}

/-- Each entry of the second is alike to one of the first. -/
def Matched (R : Value → Value → Prop) (location : String) (a b : Dict Value) : Prop :=
  ∀ key w, Data b key w → ∃ v, Data a key v ∧
    Alike (Owns location key) R (entry location a key v) (entry location b key w)

theorem Ran.not_failed {R : Value → Value → Prop} (h : Ran location a a [] c out c') (hm : Matched R location a b)
    (hs : Same (Below location) c d) : ¬ Failed location b b d := by
  rintro ⟨key, w, d1, e, d2, hw, hd, he⟩
  obtain ⟨v, hv, halike⟩ := hm key w hw
  obtain ⟨c1, x, c2, hc, hx, _⟩ := h.entry key v hv
  have hs1 : Same (Owns location key) c1 d1 := fun l hl => (hc l hl).symm.trans ((hs l hl.below).trans (hd l hl))
  obtain ⟨_, _, hok, _⟩ := halike.ok_left hs1 hx
  rw [he] at hok
  cases hok

theorem Ran.matched (h : Ran location a a [] c out c') (h' : Ran location b b [] d out' d')
    (hm : Matched Reordered location a b) (hkeys : ∀ key, (∃ v, Data a key v) ↔ ∃ w, Data b key w)
    (hs : Same (Below location) c d) : Reordered (.object out) (.object out') ∧ Same (Below location) c' d' := by
  have hentry : ∀ key w, Data b key w → ∃ x y, Dict.get? out key = some x ∧ Dict.get? out' key = some y ∧
      Reordered x y ∧ Same (Owns location key) c' d' := by
    intro key w hw
    obtain ⟨v, hv, halike⟩ := hm key w hw
    obtain ⟨c1, x, c2, hc, hx, hout, hc'⟩ := h.entry key v hv
    obtain ⟨d1, y, d2, hd, hy, hout', hd'⟩ := h'.entry key w hw
    have hs1 : Same (Owns location key) c1 d1 := fun l hl => (hc l hl).symm.trans ((hs l hl.below).trans (hd l hl))
    obtain ⟨_, _, hok, hxy, hs2⟩ := halike.ok_left hs1 hx
    rw [hy] at hok
    cases hok
    exact ⟨x, y, hout, hout', hxy, fun l hl => (hc' l hl).symm.trans ((hs2 l hl).trans (hd' l hl))⟩
  refine ⟨.object ?_ fun key x y hx hy => ?_, fun l hl => ?_⟩
  · refine (List.perm_ext_iff_of_nodup (h.nodup .nil) (h'.nodup .nil)).2 fun key => ?_
    rw [h.mem_keys, h'.mem_keys, hkeys key]
  · obtain ⟨w, hw⟩ := h'.mem_keys.1 (Dict.mem_keys_of_get? hy)
    obtain ⟨x', y', hx', hy', hxy, _⟩ := hentry key w hw
    rw [hx] at hx'
    rw [hy] at hy'
    cases hx'
    cases hy'
    exact hxy
  · by_cases hown : ∃ key w, Data b key w ∧ Owns location key l
    · obtain ⟨key, w, hw, hkl⟩ := hown
      obtain ⟨_, _, _, _, _, hs'⟩ := hentry key w hw
      exact hs' l hkl
    · have hb : ∀ key w, Data b key w → ¬ Owns location key l := fun key w hw hkl => hown ⟨key, w, hw, hkl⟩
      have ha : ∀ key v, Data a key v → ¬ Owns location key l := by
        intro key v hv hkl
        obtain ⟨w, hw⟩ := (hkeys key).1 ⟨v, hv⟩
        exact hb key w hw hkl
      exact (h.rest l ha).trans ((hs l hl).trans (h'.rest l hb).symm)

theorem alike_object (hn : (Dict.keys a).Nodup) (h : Reordered (.object a) (.object b))
    (he : ∀ key v w, Dict.get? a key = some v → Dict.get? b key = some w →
      Alike (Owns location key) Reordered (entry location a key v) (entry location b key w)) :
    Alike (Below location) Reordered (single location (.object a)) (single location (.object b)) := by
  have hn' : (Dict.keys b).Nodup := by
    cases h with
    | object hkeys _ => exact hkeys.nodup_iff.1 hn
  have hpair : ∀ key, (∃ v, Data a key v) ↔ ∃ w, Data b key w := by
    intro key
    simp only [Data, Dict.mem_iff_get? hn, Dict.mem_iff_get? hn']
    rcases h.lookup key with ⟨v, w, hv, hw, _⟩ | ⟨hv, hw⟩
    · simp [hv, hw]
    · simp [hv, hw]
  have hm : Matched Reordered location a b := by
    intro key w hw
    obtain ⟨v, hv⟩ := (hpair key).2 ⟨w, hw⟩
    exact ⟨v, hv, he key v w ((Dict.mem_iff_get? hn).1 hv.1) ((Dict.mem_iff_get? hn').1 hw.1)⟩
  have hm' : Matched (fun y x => Reordered x y) location b a := by
    intro key v hv
    obtain ⟨w, hw⟩ := (hpair key).1 ⟨v, hv⟩
    exact ⟨w, hw, (he key v w ((Dict.mem_iff_get? hn).1 hv.1) ((Dict.mem_iff_get? hn').1 hw.1)).flip⟩
  have hmoves : ∀ key v, Data a key v → Moves (Owns location key) (entry location a key v) := by
    intro key v hv
    obtain ⟨w, _, halike⟩ := hm' key v hv
    exact halike.right
  have hmoves' : ∀ key w, Data b key w → Moves (Owns location key) (entry location b key w) := by
    intro key w hw
    obtain ⟨v, _, halike⟩ := hm key w hw
    exact halike.right
  rw [single_object, single_object]
  refine Alike.bind (R := fun out out' => Reordered (.object out) (.object out')) ?_ fun _ _ h => .pure h
  have hbelow : ∀ key l, Owns location key l → Below location l := fun _ _ => Owns.below
  refine ⟨entries_moves (fun key v hd => (hmoves key v hd).mono (hbelow key)) [],
    entries_moves (fun key w hd => (hmoves' key w hd).mono (hbelow key)) [], fun c d hs => ?_⟩
  have hc := entries_run hn hmoves [] c
  have hd := entries_run hn' hmoves' [] d
  rcases hr : entries location a a [] c with ⟨r, c'⟩
  rcases hr' : entries location b b [] d with ⟨r', d'⟩
  rw [hr] at hc
  rw [hr'] at hd
  -- The entry that fails first need not be the same, but where one fails its counterpart does not return.
  cases r with
  | error e =>
    cases r' with
    | error e' => trivial
    | ok out' => exact hd.not_failed hm' hs.symm hc
  | ok out =>
    cases r' with
    | error e' => exact hc.not_failed hm hs hd
    | ok out' => exact hc.matched hd hm hpair hs

end

/-! ## Examples -/

theorem alike_single {v w : Value} (hv : v.Proper) (h : Reordered v w) (location : String) :
    Alike (Below location) Reordered (single location v) (single location w) := by
  induction h generalizing location with
  | list hlen hall _ => exact alike_pick (Or.inl rfl) (.list hlen hall)
  | @object a b hkeys hvals ih =>
    have h : Reordered (.object a) (.object b) := .object hkeys hvals
    refine alike_object hv.nodup h fun key v w hva hwb => ?_
    have hone := ih key v w hva hwb (hv.field hva) (pointer location key)
    have hone' : Alike (Owns location key) Reordered (single (pointer location key) v)
        (single (pointer location key) w) := hone.mono fun l hl => Or.inl hl
    unfold entry
    rcases h.lookup (repeatKey key) with ⟨how, how', hhow, hhow', hrep⟩ | ⟨hhow, hhow'⟩
    · rw [hhow, hhow']
      exact alike_repeated hone' (Or.inr rfl) (hvals key v w hva hwb) hrep
    · rw [hhow, hhow']
      exact hone'
  | null => exact .pure .null
  | bool b => exact .pure (.bool b)
  | int n => exact .pure (.int n)
  | float x => exact .pure (.float x)
  | str s => exact .pure (.str s)

theorem withoutChain_reordered {v w : Value} (h : Reordered v w) : Reordered (withoutChain v) (withoutChain w) := by
  cases h with
  | object hkeys hvals => exact (Reordered.object hkeys hvals).filter chainKey
  | list hlen hall => exact .list hlen hall
  | null => exact .null
  | bool b => exact .bool b
  | int n => exact .int n
  | float x => exact .float x
  | str s => exact .str s

theorem unwrap_reordered {v w : Value} (h : Reordered v w) : Reordered (unwrap v) (unwrap w) := by
  cases h with
  | object hkeys hvals =>
    have h := Reordered.object hkeys hvals
    rcases h.lookup unwrapKey with ⟨x, y, hx, hy, hxy⟩ | ⟨hx, hy⟩
    · simpa [unwrap, hx, hy] using hxy
    · simpa [unwrap, hx, hy] using h
  | list hlen hall => exact .list hlen hall
  | null => exact .null
  | bool b => exact .bool b
  | int n => exact .int n
  | float x => exact .float x
  | str s => exact .str s

theorem alike_expand {v w : Value} (hv : v.Proper) (h : Reordered v w) :
    Alike (fun _ => True) Reordered (expand v) (expand w) := by
  have hsingle := alike_single (withoutChain_proper hv) (withoutChain_reordered h) ""
  exact (hsingle.mono fun _ _ => trivial).bind fun _ _ h => .pure (unwrap_reordered h)

/-- Two examples that are equal up to the order of their keys expand alike, from whatever cursors: one has a value just
if the other has, the values are equal up to the order of keys, and the cursors stand at the same positions
afterwards, at every location. -/
theorem expand_reordered {v w : Value} (hv : v.Proper) (h : Reordered v w) (c : Cursors) :
    ((∃ out c', expand v c = (.ok out, c')) ↔ ∃ out d', expand w c = (.ok out, d')) ∧
    ∀ out c' out' d', expand v c = (.ok out, c') → expand w c = (.ok out', d') →
      Reordered out out' ∧ ∀ l, Dict.get? c' l = Dict.get? d' l := by
  have halike := alike_expand hv h
  have hs : Same (fun _ => True) c c := fun _ _ => rfl
  refine ⟨⟨?_, ?_⟩, fun out c' out' d' hc hd => ?_⟩
  · rintro ⟨out, c', hc⟩
    obtain ⟨out', d', hd, _⟩ := halike.ok_left hs hc
    exact ⟨out', d', hd⟩
  · rintro ⟨out', d', hd⟩
    obtain ⟨out, c', hc, _⟩ := halike.flip.ok_left hs hd
    exact ⟨out, c', hc⟩
  · obtain ⟨_, _, hok, hout, hsame⟩ := halike.ok_left hs hc
    rw [hd] at hok
    cases hok
    exact ⟨hout, fun l => hsame l trivial⟩

/-- A list that is drawn from twice, with its keys in one order and in the other. -/
theorem expand_reordered_repeat :
    let v : Value := .object [("b", .object [("c", .list [.int 3])]), ("a", .list [.int 1, .int 2]), ("a[]", .int 2)]
    let w : Value := .object [("a[]", .int 2), ("b", .object [("c", .list [.int 3])]), ("a", .list [.int 1, .int 2])]
    v.Proper ∧ Reordered v w ∧ ∃ out d', expand w [("/a", 1)] = (.ok out, d') ∧
      Reordered (.object [("b", .object [("c", .int 3)]), ("a", .list [.int 2, .int 1])]) out ∧
      Dict.get? d' "/a" = some 1 := by
  intro v w
  have hv : v.Proper := by
    refine .object (by decide) ?_
    intro kv hkv
    simp only [List.mem_cons, List.not_mem_nil, or_false] at hkv
    rcases hkv with rfl | rfl | rfl
    · exact .object (by decide) (List.forall_mem_singleton.2 (.list (List.forall_mem_singleton.2 (.int 3))))
    · exact .list (List.forall_mem_cons.2 ⟨.int 1, List.forall_mem_singleton.2 (.int 2)⟩)
    · exact .int 2
  have hperm := List.perm_append_singleton ("a[]", Value.int 2)
    [("b", .object [("c", .list [.int 3])]), ("a", .list [.int 1, .int 2])]
  have h : Reordered v w := .ofPerm (by decide) hperm
  have hrun : expand v [("/a", 1)] =
    (.ok (.object [("b", .object [("c", .int 3)]), ("a", .list [.int 2, .int 1])]), [("/a", 1), ("/b/c", 0)]) := by rfl
  obtain ⟨hiff, hall⟩ := expand_reordered hv h [("/a", 1)]
  obtain ⟨out, d', hd⟩ := hiff.1 ⟨_, _, hrun⟩
  obtain ⟨hout, hsame⟩ := hall _ _ _ _ hrun hd
  exact ⟨hv, h, out, d', hd, hout, (hsame "/a").symm⟩

end Example

end MockSchema
