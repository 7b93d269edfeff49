/-
  MockSchema.Store.Folder — resources in files: the resource `name` is the JSON text in
  `name.json`, in a directory for its kind.

  The file is read on every look-up. A name that is no resource name is not looked up at all.
-/

import MockSchema.Files.Disk
import MockSchema.Json.Reader
import MockSchema.Store.Source

namespace MockSchema

structure Folder where
  disk : Disk
  entityDir : String
  helperDir : String

namespace Folder

def fileName (name : String) : String := name ++ ".json"

/-- The path of a resource's file. -/
def resourcePath (dir name : String) : String := Path.join dir (fileName name)

def load (d : Disk) (dir : String) (kind : Resource) (name : String) : Except StoreError Value :=
  if !isResourceName name then .error (.notFound kind name)
  else
    match d.readText (resourcePath dir name) with
    | .error .missing => .error (.notFound kind name)
    | .error .blocked => .error (.badContent kind name .unreadable)
    | .ok s =>
      match Json.read s with
      | some v => .ok v
      | none => .error (.badContent kind name .malformedJson)

def entity (f : Folder) (name : String) : Except StoreError (List Row) := do
  Source.entityOf name (← load f.disk f.entityDir .entity name)

def helper (f : Folder) (name : String) : Except StoreError Row := do
  Source.helperOf name (← load f.disk f.helperDir .helper name)

/-- The name of the resource that a file holds. -/
def resourceName? (file : String) : Option String :=
  let cs := file.toList
  if ".json".toList.isSuffixOf cs then some (String.ofList (cs.take (cs.length - 5))) else none

def helperNames (f : Folder) : List String := (f.disk.names f.helperDir).filterMap resourceName?

theorem resourceName?_fileName (name : String) : resourceName? (fileName name) = some name := by
  have hs : ".json".toList.isSuffixOf (name ++ ".json").toList = true := by
    rw [List.isSuffixOf_iff_suffix]
    exact ⟨name.toList, by simp⟩
  unfold resourceName? fileName
  rw [if_pos hs]
  simp

/-! ## File names -/

theorem not_mem_of_isWord {cs : List Char} {c : Char} (hc : Text.isWordChar c = false)
    (h : Text.isWord cs = true) : c ∉ cs := by
  intro hm
  simp only [Text.isWord, Bool.and_eq_true] at h
  have := List.all_eq_true.mp h.2 c hm
  rw [hc] at this
  cases this

theorem slash_not_mem_fileName {name : String} (hn : isResourceName name = true) :
    '/' ∉ (fileName name).toList := by
  have hname : '/' ∉ name.toList := not_mem_of_isWord (by decide) hn
  simp [fileName, hname]

theorem isVoid_fileName (name : String) : Path.isVoid (fileName name).toList = false := by
  cases hc : name.toList with
  | nil => simp [Path.isVoid, fileName, hc]
  | cons c cs => simp [Path.isVoid, fileName, hc]

theorem fileName_ne_dots (name : String) : fileName name ≠ ".." := by
  intro e
  have := congrArg (fun s => s.toList.length) e
  have hlen : (fileName name).toList.length = name.toList.length + 5 := by simp [fileName]
  simp only [hlen] at this
  have h2 : "..".toList.length = 2 := rfl
  omega

theorem helper_known (f : Folder) (name : String) (node : Row) (h : f.helper name = .ok node) :
    name ∈ f.helperNames := by
  unfold helper at h
  cases hl : load f.disk f.helperDir .helper name with
  | error e => rw [hl] at h; cases h
  | ok v =>
    unfold load at hl
    split at hl
    · cases hl
    · rename_i hn
      have hn : isResourceName name = true := by simpa using hn
      split at hl
      · cases hl
      · cases hl
      · rename_i s hr
        unfold Disk.readText at hr
        split at hr
        · cases hr
        · rename_i b hb
          refine List.mem_filterMap.mpr ⟨fileName name, ?_, resourceName?_fileName name⟩
          exact Disk.mem_names_of_read (slash_not_mem_fileName hn) (isVoid_fileName name) (fileName_ne_dots name) hb

def source (f : Folder) : Source := ⟨f.entity, f.helper, f.helperNames, f.helper_known⟩

end Folder

end MockSchema
