/-
  MockSchema.Files.Disk — a tree of files and directories, and the directory that relative
  paths start from.

  A path is followed component by component, `..` to the directory above; every component
  but the last has to be a directory (`follow`). A look-up fails with `missing` where there is
  nothing, and with `blocked` where something is in the way: a file where a directory is
  needed, a directory in place of a file, a name that no directory can hold, or a path that
  cannot be followed at all.
-/

import MockSchema.Files.Path
import MockSchema.Value.Dict

namespace MockSchema

inductive Node where
  | file (content : ByteArray)
  | dir (entries : List (String × Node))

namespace Node

def find? : Node → List String → Option Node
  | n, [] => some n
  | .dir es, c :: cs =>
    match Dict.get? es c with
    | some n => find? n cs
    | none => none
  | .file _, _ :: _ => none

/-- Put a node in its place; directories on the way are made. -/
def put : Node → List String → Node → Node
  | _, [], n => n
  | .dir es, c :: cs, n => .dir (Dict.put es c (put ((Dict.get? es c).getD (.dir [])) cs n))
  | .file b, _ :: _, _ => .file b

/-- Take away what is in a place. -/
def erase : Node → List String → Node
  | .dir es, [c] => .dir (es.filter (·.1 != c))
  | .dir es, c :: cs =>
    match Dict.get? es c with
    | some n => .dir (Dict.put es c (erase n cs))
    | none => .dir es
  | n, _ => n

end Node

inductive Obstacle where
  | missing
  | blocked
  deriving DecidableEq, Repr

structure Disk where
  root : Node
  /-- The place of the working directory. -/
  here : List String

namespace Disk

/-- Names have at most 255 bytes. -/
def canHold (name : String) : Bool := name.utf8ByteSize ≤ 255

/-- The place that components lead to from a place. The last of them need not exist. -/
def follow (root : Node) : List String → List String → Except Obstacle (List String)
  | place, [] => .ok place
  | place, c :: cs =>
    match root.find? place with
    | none => .error .missing
    | some (.file _) => .error .blocked
    | some (.dir _) =>
      if !canHold c then .error .blocked
      else follow root (if c = ".." then place.dropLast else place ++ [c]) cs

/-- The place that a path starts from. -/
def start (d : Disk) (path : String) : List String := if Path.isAbsolute path then [] else d.here

def place? (d : Disk) (path : String) : Except Obstacle (List String) :=
  if path.toList.isEmpty then .error .missing
  else if !Path.isUsable path then .error .blocked
  else follow d.root (d.start path) (Path.components path)

/-- What is at a path. -/
def node? (d : Disk) (path : String) : Except Obstacle Node :=
  match d.place? path with
  | .error o => .error o
  | .ok place =>
    match d.root.find? place with
    | none => .error .missing
    | some (.dir es) => .ok (.dir es)
    | some (.file b) => if Path.namesDirectory path then .error .blocked else .ok (.file b)

def exists? (d : Disk) (path : String) : Bool := (d.node? path).isOk

def isDir (d : Disk) (path : String) : Bool :=
  match d.node? path with
  | .ok (.dir _) => true
  | _ => false

/-- The names in a directory; names that are joined to no directory are those where relative
paths start. -/
def names (d : Disk) (path : String) : List String :=
  match follow d.root (d.start path) (Path.components path) with
  | .error _ => []
  | .ok place =>
    match d.root.find? place with
    | some (.dir es) => Dict.keys es
    | _ => []

def read (d : Disk) (path : String) : Except Obstacle ByteArray :=
  match d.node? path with
  | .ok (.file b) => .ok b
  | .ok (.dir _) => .error .blocked
  | .error o => .error o

/-- The text of a file; bytes that are no text block the way as well. -/
def readText (d : Disk) (path : String) : Except Obstacle String :=
  match d.read path with
  | .error o => .error o
  | .ok b =>
    match String.fromUTF8? b with
    | some s => .ok s
    | none => .error .blocked

/-- Write a file in an existing directory; nothing happens if that cannot be. -/
def write? (d : Disk) (path : String) (content : ByteArray) : Option Disk :=
  match d.place? path with
  | .error _ => none
  | .ok place =>
    if Path.namesDirectory path then none
    else match d.root.find? place with
      | some (.dir _) => none
      | _ => some { d with root := d.root.put place (.file content) }

/-- Make the directories on a path, as far as nothing is in the way. -/
def makeDirsFrom (root : Node) : List String → List String → Node × Bool
  | _, [] => (root, true)
  | place, ".." :: cs => makeDirsFrom root place.dropLast cs
  | place, c :: cs =>
    match root.find? (place ++ [c]) with
    | some (.dir _) => makeDirsFrom root (place ++ [c]) cs
    | some (.file _) => (root, false)
    | none =>
      if canHold c then makeDirsFrom (root.put (place ++ [c]) (.dir [])) (place ++ [c]) cs
      else (root, false)

/-- The disk with the directories that components name, from where a path starts. -/
def layDirs (d : Disk) (path : String) (cs : List String) : Disk × Bool :=
  let (root, made) := makeDirsFrom d.root (d.start path) cs
  ({ d with root := root }, made)

/-- Make a directory and those above it; tells whether it is there now. If the path ends in a
dot, only those above are made. -/
def makeDirs (d : Disk) (path : String) : Disk × Bool :=
  let cs := Path.components path
  if !Path.isUsable path then (d, false)
  else if Path.endsInDot path then
    let above := (d.layDirs path cs.dropLast).1
    (above, above.isDir path)
  else d.layDirs path cs

def remove (d : Disk) (path : String) : Disk :=
  match d.place? path with
  | .ok place => { d with root := d.root.erase place }
  | .error _ => d

/-! ## Files of a directory -/

theorem find?_append {root : Node} {place : List String} {c : String} {n : Node}
    (h : root.find? (place ++ [c]) = some n) :
    ∃ es, root.find? place = some (.dir es) ∧ Dict.get? es c = some n := by
  induction place generalizing root with
  | nil =>
    cases root with
    | file b => cases h
    | dir es =>
      simp only [List.nil_append, Node.find?] at h
      refine ⟨es, rfl, ?_⟩
      split at h
      · rename_i m hm; rw [hm]; exact h
      · cases h
  | cons p place ih =>
    cases root with
    | file b => cases h
    | dir es =>
      simp only [List.cons_append, Node.find?] at h ⊢
      split at h
      · rename_i m hm; exact ih h
      · cases h

theorem follow_append {root : Node} {start cs place : List String} {c : String} (hc : c ≠ "..")
    (h : follow root start (cs ++ [c]) = .ok place) :
    ∃ dir, follow root start cs = .ok dir ∧ place = dir ++ [c] := by
  induction cs generalizing start with
  | nil =>
    simp only [List.nil_append, follow] at h
    refine ⟨start, rfl, ?_⟩
    split at h
    · cases h
    · cases h
    · split at h
      · cases h
      · simp only [Except.ok.injEq] at h
        exact h.symm
  | cons x cs ih =>
    simp only [List.cons_append, follow] at h ⊢
    split at h
    · cases h
    · cases h
    · split at h
      · cases h
      · rename_i hx
        rw [if_neg hx]
        exact ih h

/-- A file that can be read below a directory is one of the directory's names. -/
theorem mem_names_of_read {d : Disk} {dir name : String} {b : ByteArray}
    (hs : '/' ∉ name.toList) (hv : Path.isVoid name.toList = false) (hp : name ≠ "..")
    (h : d.read (Path.join dir name) = .ok b) : name ∈ d.names dir := by
  have hn : name.toList.isEmpty = false := by
    unfold Path.isVoid at hv
    exact (Bool.or_eq_false_iff.mp hv).1
  have hstart : d.start (Path.join dir name) = d.start dir := by
    unfold start
    rw [Path.isAbsolute_join (Path.isAbsolute_plain hs)]
  unfold read node? place? at h
  rw [hstart, Path.join_nonempty hn, Path.components_join dir name hs hv] at h
  simp only [Bool.false_eq_true, if_false] at h
  split at h
  · rename_i c hc
    split at hc
    · cases hc
    · rename_i place hplace
      split at hplace
      · cases hplace
      obtain ⟨dirPlace, hdir, rfl⟩ := follow_append hp hplace
      split at hc
      · cases hc
      · cases hc
      · rename_i c' hfind
        obtain ⟨es, hes, hget⟩ := find?_append hfind
        unfold names
        simp only [hdir, hes]
        exact Dict.mem_keys_of_get? hget
  · cases h
  · cases h

end Disk

end MockSchema
