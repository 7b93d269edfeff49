/-
  MockSchema.Proofs.Pointers — no two lists of an example draw at one location.

  The location of a list is its path, each key escaped and led by a slash. An escaped key holds no slash, so the
  first key of a location ends where the next slash stands, and the keys can be told one after the other
  (`locate_injective`). A repeat draws beside its key, under a key of its own that ends in `[]`; no such key is
  on the path of a list (`Place.path_injective`). And an expansion moves no cursor but at the places of its
  example (`moves_single`), wherever it fails.
-/

import MockSchema.Proofs.Turns

namespace MockSchema.Example

/-! ## Escaping, in two steps -/

/-- A text with another one for each of some character. -/
def replaced (c : Char) (text cs : List Char) : List Char := cs.flatMap fun d => if d == c then text else [d]

/-- To escape a key is to replace its `~` and then its `/`. In this order no character is replaced twice. -/
theorem escape_eq_replaced (key : String) :
    (escape key).toList = replaced '/' ['~', '1'] (replaced '~' ['~', '0'] key.toList) := by
  rw [toList_escape, replaced, replaced, List.flatMap_assoc]
  refine congrArg (key.toList.flatMap ·) (funext fun c => ?_)
  unfold escapeChar
  by_cases htilde : (c == '~') = true
  · rw [if_pos htilde, if_pos htilde]
    rfl
  · rw [if_neg htilde, if_neg htilde, List.flatMap_singleton]

/-! ## Paths -/

/-- The location at the end of a path. -/
def locate (start : String) (path : List String) : String := path.foldl pointer start

/-- The text of a path. -/
def pathText (path : List String) : List Char := path.flatMap fun key => '/' :: (escape key).toList

theorem toList_locate (start : String) (path : List String) :
    (locate start path).toList = start.toList ++ pathText path := by
  induction path generalizing start with
  | nil => simp [locate, pathText]
  | cons key path ih =>
    have hcons : locate start (key :: path) = locate (pointer start key) path := rfl
    rw [hcons, ih]
    simp [pointer, pathText]

/-- Up to the next slash stands the first key. -/
theorem takeWhile_pathText (key : String) (path : List String) :
    ((escape key).toList ++ pathText path).takeWhile (· != '/') = (escape key).toList := by
  rw [takeWhile_escape]
  cases path with
  | nil => simp [pathText]
  | cons key' path => simp [pathText]

theorem pathText_injective {path path' : List String} (h : pathText path = pathText path') : path = path' := by
  induction path generalizing path' with
  | nil =>
    cases path' with
    | nil => rfl
    | cons key' path' => cases h
  | cons key path ih =>
    cases path' with
    | nil => cases h
    | cons key' path' =>
      have htail : (escape key).toList ++ pathText path = (escape key').toList ++ pathText path' :=
        (List.cons.inj h).2
      have hkey : (escape key).toList = (escape key').toList := by
        rw [← takeWhile_pathText key path, htail, takeWhile_pathText]
      rw [hkey] at htail
      rw [escape_injective (String.toList_inj.1 hkey), ih (List.append_cancel_left htail)]

theorem locate_injective {start : String} {path path' : List String} (h : locate start path = locate start path') :
    path = path' := by
  have h := congrArg String.toList h
  rw [toList_locate, toList_locate] at h
  exact pathText_injective (List.append_cancel_left h)

/-- A slash in a key, two keys, and a key that looks like an escaped slash. -/
example : [["a/b"], ["a", "b"], ["a~1b"]].map (locate "") = ["/a~1b", "/a/b", "/a~01b"] := by decide

/-- The list of counts that is given with the whole value has a location that is no path's. -/
theorem locate_ne_outer (path : List String) : locate "" path ≠ "[]" := by
  intro h
  have h := congrArg String.toList h
  rw [toList_locate] at h
  cases path with
  | nil => cases h
  | cons key path => cases h

/-! ## Places -/

/-- What draws: the list at a path of keys, or the counts that say how often the value under a key is wanted, in the
object at a path. -/
inductive Place where
  | list (path : List String)
  | counts (path : List String) (key : String)

/-- The counts stand beside the value that they are for, under a key of their own. -/
def Place.path : Place → List String
  | list path => path
  | counts path key => path ++ [repeatKey key]

def Place.location (start : String) (p : Place) : String := locate start p.path

/-- All keys are of values, not of repeats. -/
def Place.Plain : Place → Prop
  | list path => ∀ key ∈ path, isAnnotation key.toList = false
  | counts path key => ∀ k ∈ path ++ [key], isAnnotation k.toList = false

section
variable {start : String} {p q : Place}

theorem Place.path_injective (hp : p.Plain) (hq : q.Plain) (h : p.path = q.path) : p = q := by
  -- The path of counts ends in a key that no plain path holds.
  have hapart : ∀ {path path' : List String} {key : String}, (∀ k ∈ path', isAnnotation k.toList = false) →
      path ++ [repeatKey key] ≠ path' := by
    rintro path _ key hplain rfl
    have := hplain (repeatKey key) (by simp)
    rw [isAnnotation_repeatKey] at this
    cases this
  cases p with
  | list path =>
    cases q with
    | list path' => exact congrArg Place.list h
    | counts path' key' => exact absurd h.symm (hapart hp)
  | counts path key =>
    cases q with
    | list path' => exact absurd h (hapart hq)
    | counts path' key' =>
      obtain ⟨hpath, hkey⟩ := List.append_inj' h rfl
      rw [hpath, repeatKey_injective (List.cons.inj hkey).1]

theorem Place.location_injective (hp : p.Plain) (hq : q.Plain) (h : p.location start = q.location start) : p = q :=
  path_injective hp hq (locate_injective h)

end

/-! ## The places of an example -/

/-- `Held v path w`: keys that are expanded lead from `v` to `w`. -/
inductive Held : Value → List String → Value → Prop
  | here {v : Value} : Held v [] v
  | field {fields : Dict Value} {key : String} {v w : Value} {path : List String} :
      Data fields key v → Held v path w → Held (.object fields) (key :: path) w

def Place.In (v : Value) : Place → Prop
  | list path => ∃ xs, Held v path (.list xs)
  | counts path key => ∃ fields w xs, Held v path (.object fields) ∧ Data fields key w ∧
      Dict.get? fields (repeatKey key) = some (.list xs)

/-- The same place, seen from an object that has the value under a key. -/
def Place.under (key : String) : Place → Place
  | list path => list (key :: path)
  | counts path k => counts (key :: path) k

section
variable {start key : String} {v w : Value} {fields : Dict Value} {path : List String} {p : Place}

theorem Held.plain (h : Held v path w) : ∀ key ∈ path, isAnnotation key.toList = false := by
  induction h with
  | here => exact nofun
  | field hd _ ih => exact List.forall_mem_cons.2 ⟨hd.2, ih⟩

theorem Place.In.plain (h : p.In v) : p.Plain := by
  cases p with
  | list path =>
    obtain ⟨xs, hheld⟩ := h
    exact hheld.plain
  | counts path key =>
    obtain ⟨fields, w, xs, hheld, hd, -⟩ := h
    exact List.forall_mem_append.2 ⟨hheld.plain, List.forall_mem_singleton.2 hd.2⟩

theorem Place.In.under (hd : Data fields key v) (h : p.In v) : (p.under key).In (.object fields) := by
  cases p with
  | list path =>
    obtain ⟨xs, hheld⟩ := h
    exact ⟨xs, .field hd hheld⟩
  | counts path k =>
    obtain ⟨fields', w, xs, hheld, h⟩ := h
    exact ⟨fields', w, xs, .field hd hheld, h⟩

theorem Place.location_under : (p.under key).location start = p.location (pointer start key) := by
  cases p <;> rfl

end

/-! ## What an expansion moves -/

section
variable {F : String → Prop} {one : Expansion Value} {l : String}

theorem moves_pick (h : F l) (xs : List Value) : Moves F (pick xs l) := by
  unfold pick
  refine (moves_draw h xs.length).bind_of fun _ p _ _ => ?_
  split
  · exact .pure _
  · exact .pure _

theorem Moves.runs (h : Moves F one) (n : Nat) (done : List Value) : Moves F (runs one n done) := by
  induction n generalizing done with
  | zero => exact .pure done
  | succ n ih => exact h.bind_of fun _ v _ _ => ih (v :: done)

theorem Moves.refuse (cause : RepeatCause) : Moves F (refuse l cause : Expansion Value) := fun _ _ _ => rfl

theorem Moves.count (h : Moves F one) (n : Int) : Moves F (count one n l) := by
  unfold Example.count
  split
  · exact .refuse _
  · exact (h.runs n.natAbs []).bind_of fun _ vs _ _ => .pure _

theorem Moves.listedCount (h : Moves F one) (v : Value) : Moves F (listedCount one v l) := by
  unfold Example.listedCount
  split
  · exact .pure _
  · split
    · exact .refuse _
    · split
      · exact h.count _
      · exact .refuse _
  · exact .refuse _

/-- A repeat draws itself only from a list of counts. -/
theorem Moves.repeated (h : Moves F one) {how : Value} (hl : ∀ counts, how = .list counts → F l) (v : Value) :
    Moves F (repeated one v how l) := by
  cases how with
  | null => exact .pure _
  | bool b =>
    cases b with
    | false => exact h
    | true => cases v <;> exact .pure _
  | int n =>
    simp only [Example.repeated]
    split
    · exact h.count n
    · exact .refuse _
  | list counts =>
    refine (moves_draw (hl counts rfl) counts.length).bind_of fun _ p _ _ => ?_
    split
    · exact h.listedCount _
    · exact .pure _
  | float x => exact .refuse _
  | str s => exact .refuse _
  | object fields => exact .refuse _

end

/-- An expansion moves the cursors of the example's places, and no other. -/
theorem moves_single (start : String) (v : Value) :
    Moves (fun l => ∃ p : Place, p.In v ∧ l = p.location start) (single start v) := by
  match v with
  | .list xs => exact moves_pick ⟨.list [], ⟨xs, .here⟩, rfl⟩ xs
  | .object fields =>
    rw [single_object]
    refine Moves.bind_of (entries_moves (fun key w hd => ?_) []) fun _ out _ _ => .pure _
    have hlt := List.sizeOf_lt_of_mem hd.1
    have hone := (moves_single (pointer start key) w).mono fun l ⟨p, hin, hl⟩ =>
      (⟨p.under key, hin.under hd, hl.trans Place.location_under.symm⟩ :
        ∃ p : Place, p.In (.object fields) ∧ l = p.location start)
    unfold entry
    split
    · rename_i how hhow
      refine hone.repeated (fun counts hcounts => ?_) w
      subst hcounts
      exact ⟨.counts [] key, ⟨fields, w, counts, .here, hd, hhow⟩, rfl⟩
    · exact hone
  | .null => exact .pure _
  | .bool b => exact .pure _
  | .int n => exact .pure _
  | .float x => exact .pure _
  | .str s => exact .pure _
  termination_by sizeOf v
  decreasing_by simp_all; omega

/-! ## Examples -/

section
variable {start l : String} {v : Value} {xs : List Value} {n : Nat}

theorem Held.reached {path : List String} (h : Held v path (.list xs)) : ∃ n, Reached start v (locate start path) xs n := by
  generalize hw : Value.list xs = w at h
  induction h generalizing start with
  | here =>
    subst hw
    exact ⟨1, .here⟩
  | field hd _ ih =>
    obtain ⟨n, hr⟩ := ih hw
    exact ⟨_, .field hd hr⟩

theorem held_of_reached (h : Reached start v l xs n) : ∃ path, Held v path (.list xs) ∧ l = locate start path := by
  induction h with
  | here => exact ⟨[], .here, rfl⟩
  | field hd _ ih =>
    obtain ⟨path, hheld, hl⟩ := ih
    exact ⟨_ :: path, .field hd hheld, hl⟩

end

end MockSchema.Example
