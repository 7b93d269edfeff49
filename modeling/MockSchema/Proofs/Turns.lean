/-
  MockSchema.Proofs.Turns — how often an expansion draws from each list of an example.

  A list that is reached through the keys of objects is drawn from once for each time that the value around it is
  wanted: the product of what the repeats on its path ask for (`Reached`). Its cursor moves on by so
  many places, round the list, and no other cursor moves (`expand_turns`).
-/

import MockSchema.Proofs.Entries

namespace MockSchema

/-- Where the cursor of a list of `length` elements stands after `n` draws. -/
def Cursors.turned (c : Cursors) (location : String) (length n : Nat) : Option Nat :=
  if n = 0 then Dict.get? c location else some ((c.peek location + n) % length)

section
variable {c d : Cursors} {location : String} {length a b : Nat}

theorem Cursors.turned_zero : c.turned location length 0 = Dict.get? c location := if_pos rfl

theorem Cursors.turned_congr (h : Dict.get? c location = Dict.get? d location) :
    c.turned location length a = d.turned location length a := by
  unfold Cursors.turned Cursors.peek
  rw [h]

/-- Draws after other draws. -/
theorem Cursors.turned_add (h : Dict.get? d location = c.turned location length a) :
    d.turned location length b = c.turned location length (a + b) := by
  by_cases ha : a = 0
  · subst ha
    rw [Nat.zero_add]
    exact turned_congr (h.trans turned_zero)
  · by_cases hb : b = 0
    · subst hb
      rw [turned_zero, h, Nat.add_zero]
    · have hpeek : d.peek location = (c.peek location + a) % length := by
        rw [peek, h, turned, if_neg ha]
        rfl
      have hab : a + b ≠ 0 := by omega
      rw [turned, if_neg hb, turned, if_neg hab, hpeek, Nat.mod_add_mod, Nat.add_assoc]

end

namespace Example

open Cursors (Same)

/-! ## The lists that are drawn from -/

/-- How often the value under a key is expanded, by its repeat. -/
def weight : Option Value → Nat
  | some (.int n) => n.natAbs
  | some (.bool true) => 0
  | some .null => 0
  | _ => 1

/-- A repeat that says a number of times. -/
inductive Fair : Option Value → Prop
  | absent : Fair none
  | flag (b : Bool) : Fair (some (.bool b))
  | null : Fair (some .null)
  | times {n : Int} : n.natAbs ≤ maxRepeat → Fair (some (.int n))

/-- Every repeat on a way through the keys of objects is fair. -/
inductive Counted : Value → Prop
  | null : Counted .null
  | bool (b : Bool) : Counted (.bool b)
  | int (n : Int) : Counted (.int n)
  | float (x : Float) : Counted (.float x)
  | str (s : String) : Counted (.str s)
  | list (xs : List Value) : Counted (.list xs)
  | object {fields : Dict Value} :
      (∀ key v, Data fields key v → Fair (Dict.get? fields (repeatKey key))) →
      (∀ key v, Data fields key v → Counted v) → Counted (.object fields)

/-- An object that has one key with its repeat. -/
theorem counted_repeated {key : String} {v how : Value} (hf : Fair (some how)) (hv : Counted v) :
    Counted (.object [(key, v), (repeatKey key, how)]) := by
  have hdata : ∀ k w, Data [(key, v), (repeatKey key, how)] k w → k = key ∧ w = v := by
    intro k w hd
    rcases data_cons.1 hd with ⟨rfl, rfl, _⟩ | hd
    · exact ⟨rfl, rfl⟩
    · rcases data_cons.1 hd with ⟨_, _, hk⟩ | hd
      · rw [isAnnotation_repeatKey] at hk; cases hk
      · cases hd.1
  have hne : key ≠ repeatKey key := fun h => by simpa [repeatKey] using congrArg String.length h
  have hget : Dict.get? [(key, v), (repeatKey key, how)] (repeatKey key) = some how := by simp [Dict.get?, hne]
  refine .object (fun k w hd => ?_) fun k w hd => ?_
  · rw [(hdata k w hd).1, hget]
    exact hf
  · rw [(hdata k w hd).2]
    exact hv

/-- `Reached location v l xs n`: in the value `v` at `location`, the keys of objects lead to the list `xs` at
`l`, and the weights of these keys multiply to `n`. -/
inductive Reached : String → Value → String → List Value → Nat → Prop
  | here {location : String} {xs : List Value} : Reached location (.list xs) location xs 1
  | field {location key l : String} {fields : Dict Value} {v : Value} {xs : List Value} {n : Nat} :
      Data fields key v → Reached (pointer location key) v l xs n →
      Reached location (.object fields) l xs (weight (Dict.get? fields (repeatKey key)) * n)

section
variable {location l : String} {v : Value} {fields : Dict Value} {xs : List Value} {n : Nat}

theorem below_of_reached (h : Reached location v l xs n) : Below location l := by
  induction h with
  | here => exact Or.inl rfl
  | field _ _ ih => exact ih.pointer

theorem reached_object : Reached location (.object fields) l xs n ↔ ∃ key v m, Data fields key v ∧
    Reached (pointer location key) v l xs m ∧ n = weight (Dict.get? fields (repeatKey key)) * m := by
  constructor
  · intro h
    cases h with
    | field hd hr => exact ⟨_, _, _, hd, hr, rfl⟩
  · rintro ⟨key, v, m, hd, hr, rfl⟩
    exact .field hd hr

end

/-! ## Turns -/

section
variable {α β : Type} {location l : String} {v : Value} {m k : Nat} {p : Expansion α}

/-- What `m` expansions of `v` do to the cursors: each list in it is drawn from `m` times as often as by one. -/
structure Turned (location : String) (v : Value) (m : Nat) (c c' : Cursors) : Prop where
  reached : ∀ l xs n, Reached location v l xs n → xs ≠ [] → Dict.get? c' l = c.turned l xs.length (m * n)
  other : ∀ l, (∀ xs n, Reached location v l xs n → xs = []) → Dict.get? c' l = Dict.get? c l

theorem Turned.none (c : Cursors) : Turned location v 0 c c :=
  ⟨fun l xs n _ _ => by rw [Nat.zero_mul, Cursors.turned_zero], fun _ _ => rfl⟩

theorem Turned.trans {c d e : Cursors} (h : Turned location v m c d) (h' : Turned location v k d e) :
    Turned location v (m + k) c e := by
  refine ⟨fun l xs n hr hne => ?_, fun l hno => (h'.other l hno).trans (h.other l hno)⟩
  rw [h'.reached l xs n hr hne, Nat.add_mul]
  exact Cursors.turned_add (h.reached l xs n hr hne)

/-- `p` returns, from whatever cursors, and does to them what `m` expansions of `v` do. -/
def Turns (location : String) (v : Value) (m : Nat) (p : Expansion α) : Prop :=
  ∀ c, ∃ a c', p c = (.ok a, c') ∧ Turned location v m c c'

theorem Turns.pure (a : α) : Turns location v 0 (pure a : Expansion α) := fun c => ⟨a, c, rfl, .none c⟩

/-- Nothing is drawn from what holds no list. -/
theorem Turns.scalar (h : ∀ l xs n, ¬ Reached location v l xs n) (a : α) :
    Turns location v m (Pure.pure a : Expansion α) :=
  fun c => ⟨a, c, rfl, fun l xs n hr _ => absurd hr (h l xs n), fun _ _ => rfl⟩

theorem Turns.bind {f : α → Expansion β} (h : Turns location v m p) (h' : ∀ a, Turns location v k (f a)) :
    Turns location v (m + k) (p >>= f) := by
  intro c
  obtain ⟨a, d, hp, ht⟩ := h c
  obtain ⟨b, e, hf, ht'⟩ := h' a d
  refine ⟨b, e, ?_, ht.trans ht'⟩
  rw [run_bind, hp]
  exact hf

theorem Turns.last {f : α → Expansion β} (h : Turns location v m p) (h' : ∀ a, Turns location v 0 (f a)) :
    Turns location v m (p >>= f) := h.bind h'

theorem Turns.moves {key : String} (h : Turns (pointer location key) v m p) : Moves (Owns location key) p := by
  intro c l hl
  obtain ⟨a, c', hp, ht⟩ := h c
  rw [hp]
  refine ht.other l fun xs n hr => ?_
  exact absurd (Or.inl (below_of_reached hr)) hl

/-! ## Lists and repeats -/

theorem turns_pick (xs : List Value) : Turns location (.list xs) 1 (pick xs location) := by
  intro c
  refine ⟨_, _, run_pick xs location c, fun l ys n hr hne => ?_, fun l hno => ?_⟩
  · cases hr with
    | here =>
      have hlen : xs.length ≠ 0 := fun h => hne (List.eq_nil_of_length_eq_zero h)
      rw [Cursors.get?_advance, if_pos ⟨rfl, hlen⟩]
      rfl
  · rw [Cursors.get?_advance, if_neg]
    rintro ⟨rfl, hlen⟩
    exact hlen (by rw [hno xs 1 .here]; rfl)

section
variable {one : Expansion Value} {how : Value}

theorem Turns.runs (h : Turns location v m one) (n : Nat) (done : List Value) :
    Turns location v (n * m) (runs one n done) := by
  induction n generalizing done with
  | zero => rw [Nat.zero_mul]; exact .pure done
  | succ n ih =>
    rw [Nat.succ_mul, Nat.add_comm]
    exact h.bind fun w => ih (w :: done)

theorem Turns.count (h : Turns location v m one) {n : Int} (hn : n.natAbs ≤ maxRepeat) :
    Turns location v (n.natAbs * m) (count one n l) := by
  unfold Example.count
  rw [if_neg (Nat.not_lt.2 hn)]
  exact (h.runs n.natAbs []).last fun _ => .pure _

theorem inRange_of_natAbs {n : Int} (hn : n.natAbs ≤ maxRepeat) : InRange n := by
  have hmax : maxRepeat = 10000 := rfl
  unfold InRange smallest largest
  omega

theorem Turns.repeated (h : Turns location v 1 one) (hf : Fair (some how)) :
    Turns location v (weight (some how)) (repeated one v how l) := by
  cases hf with
  | flag b =>
    cases b with
    | false => exact h
    | true => cases v <;> exact .pure _
  | null => exact .pure Value.null
  | @times n hn =>
    simp only [Example.repeated]
    rw [if_pos (inRange_of_natAbs hn)]
    have hc := h.count (l := l) hn
    rwa [Nat.mul_one] at hc

end

end

/-! ## Objects -/

section
variable {location : String} {fields : Dict Value}

theorem turns_entry {key : String} {v : Value} (h : Turns (pointer location key) v 1 (single (pointer location key) v))
    (hf : Fair (Dict.get? fields (repeatKey key))) :
    Turns (pointer location key) v (weight (Dict.get? fields (repeatKey key))) (entry location fields key v) := by
  unfold entry
  cases hg : Dict.get? fields (repeatKey key) with
  | none => exact h
  | some how => exact h.repeated (hg ▸ hf)

theorem turns_object (hn : (Dict.keys fields).Nodup) (h : ∀ key v, Data fields key v →
      Turns (pointer location key) v (weight (Dict.get? fields (repeatKey key))) (entry location fields key v)) :
    Turns location (.object fields) 1 (single location (.object fields)) := by
  rw [single_object]
  refine Turns.last (fun c => ?_) fun out => .pure _
  have hrun := entries_run hn (fun key v hd => (h key v hd).moves) [] c
  rcases hr : entries location fields fields [] c with ⟨r, c'⟩
  rw [hr] at hrun
  cases r with
  | error e =>
    obtain ⟨key, v, d, e, d', hd, _, he⟩ := hrun
    obtain ⟨a, d'', hok, _⟩ := h key v hd d
    rw [he] at hok
    cases hok
  | ok out =>
    -- Where an entry owns the cursors, they stand at the start and in the end as around its own run.
    have hentry : ∀ key v, Data fields key v → ∃ d d', Same (Owns location key) c d ∧
        Turned (pointer location key) v (weight (Dict.get? fields (repeatKey key))) d d' ∧
        Same (Owns location key) d' c' := by
      intro key v hd
      obtain ⟨d, w, d', hs, he, _, hs'⟩ := hrun.entry key v hd
      obtain ⟨a, d'', hok, ht⟩ := h key v hd d
      rw [he] at hok
      cases hok
      exact ⟨d, d', hs, ht, hs'⟩
    refine ⟨out, c', rfl, fun l xs n hall hne => ?_, fun l hno => ?_⟩
    · obtain ⟨key, v, m, hd, hreach, rfl⟩ := reached_object.1 hall
      obtain ⟨d, d', hs, ht, hs'⟩ := hentry key v hd
      have hown : Owns location key l := Or.inl (below_of_reached hreach)
      rw [← hs' l hown, ht.reached l xs m hreach hne, Nat.one_mul]
      exact Cursors.turned_congr (hs l hown).symm
    · by_cases hown : ∃ key v, Data fields key v ∧ Owns location key l
      · obtain ⟨key, v, hd, hown⟩ := hown
        obtain ⟨d, d', hs, ht, hs'⟩ := hentry key v hd
        have hstay : Dict.get? d' l = Dict.get? d l := ht.other l fun xs n hreach => hno xs _ (.field hd hreach)
        rw [← hs' l hown, hstay, hs l hown]
      · exact hrun.rest l fun key v hd hl => hown ⟨key, v, hd, hl⟩

end

/-! ## Examples -/

theorem turns_single {v : Value} (hc : Counted v) (hv : v.Proper) (location : String) :
    Turns location v 1 (single location v) := by
  induction hc generalizing location with
  | list xs => exact turns_pick xs
  | object hf _ ih =>
    refine turns_object hv.nodup fun key v hd => turns_entry ?_ (hf key v hd)
    exact ih key v hd (hv.field ((Dict.mem_iff_get? hv.nodup).1 hd.1)) _
  | _ => exact .scalar (fun l xs n hr => by cases hr) _

/-- An example whose repeats are counts expands, from whatever cursors. Each list in it that has an element is drawn
from as often as the weights of the keys on its path multiply to, and its cursor moves on by so many
places, round the list; all other cursors stay. -/
theorem expand_turns {v : Value} (hv : v.Proper) (hc : Counted (withoutChain v)) (c : Cursors) :
    ∃ out c', expand v c = (.ok out, c') ∧
      (∀ l xs n, Reached "" (withoutChain v) l xs n → xs ≠ [] → Dict.get? c' l = c.turned l xs.length n) ∧
      ∀ l, (∀ xs n, Reached "" (withoutChain v) l xs n → xs = []) → Dict.get? c' l = Dict.get? c l := by
  have hturns := turns_single hc (withoutChain_proper hv) ""
  have hexpand : Turns "" (withoutChain v) 1 (expand v) := hturns.last fun _ => .pure _
  obtain ⟨out, c', hok, ht⟩ := hexpand c
  refine ⟨out, c', hok, fun l xs n hr hne => ?_, ht.other⟩
  rw [ht.reached l xs n hr hne, Nat.one_mul]

/-- A list in an object that is wanted twice, wanted twice in each: four draws from a cursor that stood past its end. -/
theorem expand_turns_nested :
    let inner : Dict Value := [("b", .list [.int 1, .int 2, .int 3]), (repeatKey "b", .int (-2))]
    let v : Value := .object [("a", .object inner), (repeatKey "a", .int 2)]
    v.Proper ∧ Counted (withoutChain v) ∧ Reached "" (withoutChain v) "/a/b" [.int 1, .int 2, .int 3] 4 ∧
      ∃ out c', expand v [("/a/b", 7)] = (.ok out, c') ∧ Dict.get? c' "/a/b" = some 2 := by
  intro inner v
  have hinner : (Value.object inner).Proper := by
    refine .object (by decide) ?_
    intro kv hkv
    simp only [inner, List.mem_cons, List.not_mem_nil, or_false] at hkv
    rcases hkv with rfl | rfl
    · refine .list fun x hx => ?_
      simp only [List.mem_cons, List.not_mem_nil, or_false] at hx
      rcases hx with rfl | rfl | rfl <;> exact .int _
    · exact .int (-2)
  have hv : v.Proper := .object (by decide) (List.forall_mem_cons.2 ⟨hinner, List.forall_mem_singleton.2 (.int 2)⟩)
  have hcinner : Counted (.object inner) := counted_repeated (.times (by decide)) (.list _)
  have hc : Counted (withoutChain v) := counted_repeated (.times (by decide)) hcinner
  have hr : Reached "" (withoutChain v) "/a/b" [.int 1, .int 2, .int 3] 4 := by
    have hb : Data inner "b" (.list [.int 1, .int 2, .int 3]) := ⟨List.mem_cons_self, rfl⟩
    have ha : Data [("a", .object inner), (repeatKey "a", .int 2)] "a" (.object inner) := ⟨List.mem_cons_self, rfl⟩
    exact Reached.field ha (Reached.field hb .here)
  obtain ⟨out, c', hok, hturned, _⟩ := expand_turns hv hc [("/a/b", 7)]
  exact ⟨hv, hc, hr, out, c', hok, hturned _ _ _ hr (List.cons_ne_nil _ _)⟩

end Example

end MockSchema
