/-
  MockSchema.Proofs.Locations — where the lists and repeats of an example draw.

  A location is a path of keys, each escaped, so that no key holds the slash that separates them and different
  keys are escaped to different texts (`escape_injective`). The lists in an object are at or below the
  locations of its keys, and a repeat is beside its key; no location belongs to two keys of one
  object (`Owns.unique`). What an object expands to is put together from its entries, one after the
  other (`entries_cons`).
-/

import MockSchema.Example.Expand
import MockSchema.Proofs.Runs

namespace MockSchema.Example

/-! ## Escaping -/

/-- A key from its escaped text. -/
def unescape : List Char → List Char
  | '~' :: '0' :: cs => '~' :: unescape cs
  | '~' :: '1' :: cs => '/' :: unescape cs
  | c :: cs => c :: unescape cs
  | [] => []

theorem unescape_escape (cs : List Char) : unescape (cs.flatMap escapeChar) = cs := by
  induction cs with
  | nil => rfl
  | cons c cs ih =>
    rw [List.flatMap_cons, escapeChar]
    split
    · rename_i h
      simp [unescape, ih, eq_of_beq h]
    · rename_i h
      split
      · rename_i h'
        simp [unescape, ih, eq_of_beq h']
      · have hc : c ≠ '~' := by simpa using h
        simp [unescape, ih, hc]

theorem toList_escape (key : String) : (escape key).toList = key.toList.flatMap escapeChar := by simp [escape]

theorem escape_injective {a b : String} (h : escape a = escape b) : a = b := by
  have h := congrArg String.toList h
  rw [toList_escape, toList_escape] at h
  rw [← String.toList_inj, ← unescape_escape a.toList, h, unescape_escape]

theorem slash_not_mem_escape (key : String) : '/' ∉ (escape key).toList := by
  rw [toList_escape]
  intro h
  obtain ⟨c, _, hc⟩ := List.mem_flatMap.1 h
  unfold escapeChar at hc
  split at hc
  · simp at hc
  · split at hc
    · simp at hc
    · rename_i hne
      simp at hc hne
      exact hne hc.symm

/-- Up to a slash stands the whole of an escaped key. -/
theorem takeWhile_escape (key : String) (rest : List Char) :
    ((escape key).toList ++ rest).takeWhile (· != '/') = (escape key).toList ++ rest.takeWhile (· != '/') := by
  refine List.takeWhile_append_of_pos fun c hc => ?_
  rw [bne_iff_ne]
  intro e
  exact slash_not_mem_escape key (e ▸ hc)

/-! ## Repeats -/

theorem isAnnotation_append (cs : List Char) : isAnnotation (cs ++ ['[', ']']) = true := by
  induction cs with
  | nil => rfl
  | cons c cs ih =>
    rw [List.cons_append]
    unfold isAnnotation
    split
    · rfl
    · rename_i h; cases h; exact ih
    · rename_i h; cases h

theorem isAnnotation_repeatKey (key : String) : isAnnotation (repeatKey key).toList = true := by
  have h : (repeatKey key).toList = key.toList ++ ['[', ']'] := by simp [repeatKey]
  rw [h, isAnnotation_append]

theorem repeatKey_injective {a b : String} (h : repeatKey a = repeatKey b) : a = b := by
  have h := congrArg String.toList h
  simp only [repeatKey, String.toList_append] at h
  exact String.toList_inj.1 (List.append_cancel_right h)

/-! ## Locations in an object -/

/-- At a location, or at the end of a path from there. -/
def Below (location l : String) : Prop := l = location ∨ ∃ path, l = location ++ "/" ++ path

/-- The entry of `key` in the object at `location` may draw here: for its value, or for its repeat. -/
def Owns (location key l : String) : Prop := Below (pointer location key) l ∨ l = pointer location (repeatKey key)

section
variable {location key key' l : String}

theorem Below.pointer (h : Below (pointer location key) l) : Below location l := by
  rcases h with rfl | ⟨path, rfl⟩
  · exact Or.inr ⟨escape key, rfl⟩
  · exact Or.inr ⟨escape key ++ "/" ++ path, by simp [Example.pointer, String.append_assoc]⟩

theorem Owns.below (h : Owns location key l) : Below location l := by
  rcases h with h | rfl
  · exact h.pointer
  · exact Or.inr ⟨escape (repeatKey key), rfl⟩

/-- The first key of a path, as it is escaped. -/
def firstKey (path : String) : List Char := path.toList.takeWhile (· != '/')

theorem firstKey_escape (key : String) :
    firstKey (escape key) = (escape key).toList ∧
      ∀ path, firstKey (escape key ++ "/" ++ path) = (escape key).toList := by
  refine ⟨by simpa [firstKey] using takeWhile_escape key [], fun path => ?_⟩
  simp [firstKey, takeWhile_escape]

/-- What an entry owns is on a path that begins with its key, or with the one of its repeat. -/
theorem Owns.firstKey (h : Owns location key l) :
    ∃ path first, l = location ++ "/" ++ path ∧ firstKey path = (escape first).toList ∧
      (first = key ∨ first = repeatKey key) := by
  rcases h with (rfl | ⟨path, rfl⟩) | rfl
  · exact ⟨escape key, key, rfl, (firstKey_escape key).1, Or.inl rfl⟩
  · refine ⟨escape key ++ "/" ++ path, key, ?_, (firstKey_escape key).2 path, Or.inl rfl⟩
    simp [Example.pointer, String.append_assoc]
  · exact ⟨escape (repeatKey key), repeatKey key, rfl, (firstKey_escape _).1, Or.inr rfl⟩

/-- No location belongs to two keys of one object. -/
theorem Owns.unique (h : Owns location key l) (h' : Owns location key' l)
    (hk : isAnnotation key.toList = false) (hk' : isAnnotation key'.toList = false) : key = key' := by
  obtain ⟨path, first, hl, hfirst, hor⟩ := h.firstKey
  obtain ⟨path', first', hl', hfirst', hor'⟩ := h'.firstKey
  have hpath : path = path' := by
    have := congrArg String.toList (hl.symm.trans hl')
    simp only [String.toList_append] at this
    exact String.toList_inj.1 (List.append_cancel_left this)
  have hsame : first = first' := by
    apply escape_injective
    rw [← String.toList_inj, ← hfirst, ← hfirst', hpath]
  subst hsame
  rcases hor with rfl | rfl <;> rcases hor' with h | h
  · exact h
  · rw [h, isAnnotation_repeatKey] at hk; cases hk
  · rw [← h, isAnnotation_repeatKey] at hk'; cases hk'
  · exact repeatKey_injective h

end

/-! ## Draws and entries -/

theorem run_draw (location : String) (length : Nat) (c : Cursors) :
    draw location length c = (.ok (c.advance location length).1, (c.advance location length).2) := rfl

theorem run_pick (xs : List Value) (location : String) (c : Cursors) :
    pick xs location c = (.ok (((c.advance location xs.length).1.bind (xs[·]?)).getD .null),
      (c.advance location xs.length).2) := by
  unfold pick
  rw [run_bind, run_draw]
  dsimp only
  cases (c.advance location xs.length).1.bind (xs[·]?) <;> rfl

/-- What an entry of an object expands to; `all` holds the object's repeats. -/
def entry (location : String) (all : Dict Value) (key : String) (v : Value) : Expansion Value :=
  match Dict.get? all (repeatKey key) with
  | some how => repeated (single (pointer location key) v) v how (pointer location (repeatKey key))
  | none => single (pointer location key) v

theorem entries_cons (location : String) (all : Dict Value) (key : String) (v : Value)
    (fields : List (String × Value)) (done : Dict Value) :
    entries location all ((key, v) :: fields) done =
      if isAnnotation key.toList then entries location all fields done
      else entry location all key v >>= fun out => entries location all fields (Dict.put done key out) := by
  simp only [entries, entry]
  split
  · rfl
  · cases Dict.get? all (repeatKey key) <;> rfl

theorem single_object (location : String) (fields : Dict Value) :
    single location (.object fields) = entries location fields fields [] >>= fun out => pure (.object out) := rfl

end MockSchema.Example
