/-
  MockSchema.Proofs.Rotation — the elements of a list take turns, whatever else is asked of the cursors.

  Draws come in any order, at any locations, from lists of any lengths, with resets between them (`after`). As long as
  all draws at a location since the last reset were from lists of one length, its cursor stands at their number,
  round the list (`Turning`): a call keeps this (`Turning.run`), so it holds after all of them
  (`turning_after`). A list of another length at the same location leaves the cursor where it may be too large
  for the next one, which takes it modulo its own length.
-/

import Mathlib.Order.Interval.Finset.Nat
import MockSchema.Example.Cursors

namespace MockSchema.Cursors

/-! ## Calls -/

/-- What can be asked of cursors. -/
inductive Call where
  | advance (location : String) (length : Nat)
  | reset

/-- A position drawn from a list of some length. -/
structure Draw where
  location : String
  length : Nat
  position : Nat

/-- The cursors, and what was drawn since they were last reset. -/
structure History where
  cursors : Cursors
  draws : List Draw

def History.start : History := ⟨[], []⟩

def Call.run (h : History) : Call → History
  | .advance location length =>
    match h.cursors.advance location length with
    | (some position, c) => ⟨c, h.draws ++ [⟨location, length, position⟩]⟩
    | (none, c) => ⟨c, h.draws⟩
  | .reset => ⟨h.cursors.reset, []⟩

def after (calls : List Call) : History := calls.foldl Call.run .start

def History.drawsAt (h : History) (location : String) : List Draw := h.draws.filter (·.location = location)

/-! ## One call -/

section
variable {c : Cursors} {location : String} {length : Nat}

theorem advance_empty : c.advance location 0 = (none, c) := rfl

theorem advance_of_ne (h : length ≠ 0) : c.advance location length =
    (some (c.peek location % length), Dict.put c location ((c.peek location % length + 1) % length)) := if_neg h

theorem advance_eq_none_iff : (c.advance location length).1 = none ↔ length = 0 := by
  by_cases h : length = 0
  · subst h
    rw [advance_empty]
    exact ⟨fun _ => rfl, fun _ => rfl⟩
  · rw [advance_of_ne h]
    exact ⟨nofun, fun h' => absurd h' h⟩

theorem advance_lt {p : Nat} (h : (c.advance location length).1 = some p) : p < length := by
  by_cases hlength : length = 0
  · subst hlength
    cases h
  · rw [advance_of_ne hlength] at h
    cases h
    exact Nat.mod_lt _ (Nat.pos_of_ne_zero hlength)

theorem peek_advance (l : String) : (c.advance location length).2.peek l =
    if l = location ∧ length ≠ 0 then (c.peek location + 1) % length else c.peek l := by
  unfold peek
  rw [get?_advance]
  split
  · rfl
  · rfl

end

/-! ## Turns -/

/-- Where all draws were from lists of one length, they went round it, and the next one goes on. -/
structure Turning (h : History) (location : String) (length : Nat) : Prop where
  peek : h.cursors.peek location = (h.drawsAt location).length % length
  positions : (h.drawsAt location).map (·.position) = (List.range (h.drawsAt location).length).map (· % length)

def AllOf (length : Nat) (ds : List Draw) : Prop := ∀ d ∈ ds, d.length = length

section
variable {h : History} {location l : String} {length n : Nat}

theorem Turning.reset : Turning ⟨[], []⟩ location length := ⟨(Nat.zero_mod length).symm, rfl⟩

theorem run_empty : Call.run h (.advance l 0) = h := rfl

theorem run_advance (hn : n ≠ 0) : Call.run h (.advance l n) =
    ⟨(h.cursors.advance l n).2, h.draws ++ [⟨l, n, h.cursors.peek l % n⟩]⟩ := by
  simp only [Call.run, advance_of_ne hn]

/-- A draw that begins where the cursor stands, and after which it stands one further. -/
theorem Turning.next (ht : Turning h location length) {h' : History}
    (hpeek : h'.cursors.peek location = (h.cursors.peek location + 1) % length)
    (hdraws : h'.drawsAt location = h.drawsAt location ++ [⟨location, length, h.cursors.peek location % length⟩]) :
    Turning h' location length := by
  have hlength : (h'.drawsAt location).length = (h.drawsAt location).length + 1 := by
    rw [hdraws, List.length_append, List.length_singleton]
  refine ⟨?_, ?_⟩
  · rw [hpeek, hlength, ht.peek, Nat.mod_add_mod]
  · rw [hlength, hdraws, List.map_append, List.range_succ, List.map_append, ht.positions, ht.peek]
    simp

theorem Turning.run (call : Call) (ht : AllOf length (h.drawsAt location) → Turning h location length)
    (hall : AllOf length ((call.run h).drawsAt location)) : Turning (call.run h) location length := by
  cases call with
  | reset => exact .reset
  | advance l n =>
    by_cases hn : n = 0
    · subst hn
      rw [run_empty] at hall ⊢
      exact ht hall
    · rw [run_advance hn] at hall ⊢
      by_cases hl : l = location
      · subst hl
        have hdraws : History.drawsAt ⟨(h.cursors.advance l n).2, h.draws ++ [⟨l, n, h.cursors.peek l % n⟩]⟩ l =
            h.drawsAt l ++ [⟨l, n, h.cursors.peek l % n⟩] := by
          simp [History.drawsAt, List.filter_append]
        rw [AllOf, hdraws, List.forall_mem_append] at hall
        obtain ⟨hbefore, hlast⟩ := hall
        obtain rfl : n = length := hlast _ (List.mem_singleton_self _)
        refine (ht hbefore).next ?_ hdraws
        show (h.cursors.advance l n).2.peek l = _
        rw [peek_advance, if_pos ⟨rfl, hn⟩]
      · have hdraws : History.drawsAt ⟨(h.cursors.advance l n).2, h.draws ++ [⟨l, n, h.cursors.peek l % n⟩]⟩ location =
            h.drawsAt location := by
          simp [History.drawsAt, List.filter_append, hl]
        rw [hdraws] at hall
        obtain ⟨hpeek, hpositions⟩ := ht hall
        refine ⟨?_, ?_⟩
        · show (h.cursors.advance l n).2.peek location = _
          rw [hdraws, peek_advance, if_neg fun h => hl h.1.symm, hpeek]
        · rw [hdraws, hpositions]

theorem turning_after (calls : List Call) (location : String) (length : Nat)
    (hall : AllOf length ((after calls).drawsAt location)) : Turning (after calls) location length := by
  induction calls using List.reverseRecOn with
  | nil => exact .reset
  | append_singleton calls call ih =>
    have hstep : after (calls ++ [call]) = call.run (after calls) := List.foldl_concat ..
    rw [hstep] at hall ⊢
    exact .run call ih hall

end

/-! ## Rounds -/

/-- As many numbers in a row as a list is long, taken round it. -/
theorem range'_mod_perm (i n : Nat) : ((List.range' i n).map (· % n)).Perm (List.range n) := by
  have hmod := Nat.multiset_Ico_map_mod i n
  have hIco : Multiset.Ico i (i + n) = (List.range' i n : Multiset Nat) := by
    show ((List.range' i (i + n - i) : List Nat) : Multiset Nat) = _
    rw [Nat.add_sub_cancel_left]
  rw [hIco, Multiset.map_coe] at hmod
  exact Multiset.coe_eq_coe.1 hmod

theorem take_drop_range {i n k : Nat} (h : i + n ≤ k) : ((List.range k).drop i).take n = List.range' i n := by
  rw [List.range_eq_range', List.drop_range', List.take_range'_of_length_ge]
  · simp
  · omega

/-- After whatever calls: a draw has no position just if its list is empty, and moves nothing then; otherwise its position
is one of the list's, whoever used the location before. If all draws at a location since the last reset were from lists
of one length, the `j`-th of them had position `j`, round the list, and as many of them in a row as the list is long
had each of its positions once. -/
theorem draws_rotate (calls : List Call) (location : String) (length : Nat) :
    (((after calls).cursors.advance location length).1 = none ↔ length = 0) ∧
    (length = 0 → ((after calls).cursors.advance location length).2 = (after calls).cursors) ∧
    (∀ p, ((after calls).cursors.advance location length).1 = some p → p < length) ∧
    (AllOf length ((after calls).drawsAt location) →
      (∀ j d, ((after calls).drawsAt location)[j]? = some d → d.position = j % length) ∧
      ∀ i, i + length ≤ ((after calls).drawsAt location).length →
        (((((after calls).drawsAt location).drop i).take length).map (·.position)).Perm (List.range length)) := by
  refine ⟨advance_eq_none_iff, ?_, fun p => advance_lt, fun hall => ?_⟩
  · rintro rfl
    rw [advance_empty]
  have hpositions := (turning_after calls location length hall).positions
  refine ⟨fun j d hd => ?_, fun i hi => ?_⟩
  · have hj := congrArg (·[j]?) hpositions
    simp only [List.getElem?_map, hd, Option.map_some] at hj
    obtain ⟨hlt, -⟩ := List.getElem?_eq_some_iff.1 hd
    rw [List.getElem?_range hlt] at hj
    exact Option.some.inj hj
  · rw [List.map_take, List.map_drop, hpositions, ← List.map_drop, ← List.map_take, take_drop_range hi]
    exact range'_mod_perm i length

/-- Three draws from a list of two, behind a longer list and a reset, with another list and an empty one between them:
the last two are a round. -/
theorem draws_rotate_between :
    let calls : List Call := [.advance "/a" 5, .reset, .advance "/a" 2, .advance "/b" 3, .advance "/a" 0,
      .advance "/a" 2, .advance "/a" 2]
    AllOf 2 ((after calls).drawsAt "/a") ∧
      ((((after calls).drawsAt "/a").drop 1).map (·.position)).Perm (List.range 2) := by
  intro calls
  have hdraws : (after calls).drawsAt "/a" = [⟨"/a", 2, 0⟩, ⟨"/a", 2, 1⟩, ⟨"/a", 2, 0⟩] := rfl
  have hall : AllOf 2 ((after calls).drawsAt "/a") := by
    rw [hdraws]
    intro d hd
    simp only [List.mem_cons, List.not_mem_nil, or_false] at hd
    rcases hd with rfl | rfl | rfl <;> rfl
  obtain ⟨-, -, -, hrotate⟩ := draws_rotate calls "/a" 2
  exact ⟨hall, (hrotate hall).2 1 (by rw [hdraws]; decide)⟩

end MockSchema.Cursors
