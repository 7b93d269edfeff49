/-
  MockSchema.Files.Path — paths as texts. A slash separates the components of a path; empty
  components and `.` mean nothing, and a path that begins with a slash is absolute.

  Proved: `components_join`, so a file name put below a directory is the last component of
  the path and changes none of the others.
-/

namespace MockSchema.Path

/-- The parts of a text between slashes. -/
def segments : List Char → List (List Char)
  | [] => [[]]
  | c :: cs =>
    if c = '/' then [] :: segments cs
    else match segments cs with
      | s :: ss => (c :: s) :: ss
      | [] => [[c]]

def isVoid (s : List Char) : Bool := s.isEmpty || s == ['.']

def components (path : String) : List String :=
  ((segments path.toList).filter (!isVoid ·)).map String.ofList

def isAbsolute (path : String) : Bool := path.toList.head? == some '/'

/-- A path that ends like this names a directory or nothing. -/
def namesDirectory (path : String) : Bool :=
  match (segments path.toList).getLast? with
  | some s => isVoid s
  | none => false

/-- A path whose last component says "here": it is no name that a directory could get. -/
def endsInDot (path : String) : Bool :=
  ((segments path.toList).filter (!·.isEmpty)).getLast? == some ['.']

/-- A path that can be followed at all: at most 4095 bytes, and none is zero. -/
def isUsable (path : String) : Bool :=
  path.utf8ByteSize ≤ 4095 && !path.toList.contains '\x00'

/-- `sub` seen from `base`; an absolute `sub` stands for itself. -/
def join (base sub : String) : String :=
  if isAbsolute sub || base.toList.isEmpty then sub
  else if base.toList.getLast? == some '/' then base ++ sub
  else base ++ "/" ++ sub

/-- Drop what means nothing from the end of a list of segments, given last first; the first
segment of the path stays. -/
def trimBack : List (List Char) → List (List Char)
  | s :: t :: rest => if isVoid s then trimBack (t :: rest) else s :: t :: rest
  | ss => ss

def unsplit (reversed : List (List Char)) : String :=
  match reversed with
  | [[]] => "/"
  | ss => "/".intercalate (ss.reverse.map String.ofList)

/-- The path without its last component; neither the root nor the empty path has one. -/
def parent? (path : String) : Option String :=
  match trimBack (segments path.toList).reverse with
  | [] => none
  | [s] => if s.isEmpty then none else some ""
  | _ :: rest => some (unsplit (trimBack rest))

/-! ## Joining -/

theorem segments_ne_nil (cs : List Char) : segments cs ≠ [] := by
  cases cs with
  | nil => simp [segments]
  | cons c cs =>
    simp only [segments]
    split
    · simp
    · split <;> simp

theorem segments_plain {cs : List Char} (h : '/' ∉ cs) : segments cs = [cs] := by
  induction cs with
  | nil => rfl
  | cons c cs ih =>
    simp only [List.mem_cons, not_or] at h
    have hc : ¬ c = '/' := fun e => h.1 e.symm
    simp [segments, hc, ih h.2]

theorem segments_append (a b : List Char) :
    segments (a ++ '/' :: b) = segments a ++ segments b := by
  induction a with
  | nil => simp [segments]
  | cons c a ih =>
    simp only [List.cons_append, segments, ih]
    split
    · simp
    · have hne := segments_ne_nil a
      cases hs : segments a with
      | nil => exact absurd hs hne
      | cons s ss => simp

theorem isAbsolute_plain {name : String} (hs : '/' ∉ name.toList) : isAbsolute name = false := by
  unfold isAbsolute
  cases hn : name.toList with
  | nil => rfl
  | cons c cs =>
    rw [hn] at hs
    simp only [List.mem_cons, not_or] at hs
    simpa using fun e => hs.1 e.symm

theorem join_nonempty {dir name : String} (hn : name.toList.isEmpty = false) :
    (join dir name).toList.isEmpty = false := by
  have hne : name.toList ≠ [] := by simpa using hn
  unfold join
  split
  · exact hn
  · split <;> simp [hne]

theorem isAbsolute_join {dir sub : String} (hrel : isAbsolute sub = false) :
    isAbsolute (join dir sub) = isAbsolute dir := by
  unfold join
  rw [hrel, Bool.false_or]
  split
  · rename_i he
    have hd : dir.toList = [] := by simpa using he
    rw [hrel]
    simp [isAbsolute, hd]
  · rename_i he
    have hd : dir.toList ≠ [] := by simpa using he
    obtain ⟨c, cs, hc⟩ := List.exists_cons_of_ne_nil hd
    split <;> simp [isAbsolute, hc]

/-- A relative path below a directory. -/
theorem components_join_relative (dir sub : String) (hrel : isAbsolute sub = false) :
    components (join dir sub) = components dir ++ components sub := by
  unfold join
  rw [hrel]
  simp only [Bool.false_or]
  split
  · rename_i he
    have hd : dir.toList = [] := by simpa using he
    simp [components, hd, segments, isVoid]
  · split
    · rename_i hl
      have hl : dir.toList.getLast? = some '/' := by simpa using hl
      obtain ⟨a, ha⟩ := List.getLast?_eq_some_iff.mp hl
      simp only [components, String.toList_append, ha]
      rw [List.append_assoc]
      simp only [List.singleton_append, segments_append, List.filter_append, List.map_append]
      simp [segments, isVoid]
    · simp only [components, String.toList_append]
      rw [List.append_assoc]
      have hslash : "/".toList ++ sub.toList = '/' :: sub.toList := rfl
      rw [hslash, segments_append, List.filter_append, List.map_append]

theorem components_plain {name : String} (hs : '/' ∉ name.toList) (hv : isVoid name.toList = false) :
    components name = [name] := by
  unfold components
  rw [segments_plain hs]
  simp [hv]

/-- A file name below a directory. -/
theorem components_join (dir name : String) (hs : '/' ∉ name.toList) (hv : isVoid name.toList = false) :
    components (join dir name) = components dir ++ [name] := by
  rw [components_join_relative dir name (isAbsolute_plain hs), components_plain hs hv]

end MockSchema.Path
