/-
  MockSchema.Proofs.ResourcePath — the file that the look-up of a resource opens.

  Under settings that pass their check a look-up opens one file at most (`Opens`), and none for a name that is no
  word. The file's path goes down from the data directory (`Descends`): first the components of the
  directory for its kind, none of them `..`, and then the name with its ending (`answer_confined`).

  Proved on the way:
  - `follow_down`: on every disk, components without `..` lead below the place where they start.
  - `check_ok_iff`: what the check of the settings lets through.
-/

import MockSchema.Config.Basic
import MockSchema.Proofs.Runs

namespace MockSchema

/-! ## Going down -/

/-- A path that goes on from a directory by further components. -/
structure Path.Descends (dir : String) (down : List String) (path : String) : Prop where
  text : dir.toList <+: path.toList
  root : isAbsolute path = isAbsolute dir
  parts : components path = components dir ++ down

namespace Path

section
variable {dir sub path : String} {down further : List String}

theorem Descends.trans (h : Descends dir down sub) (h' : Descends sub further path) :
    Descends dir (down ++ further) path where
  text := h.text.trans h'.text
  root := h'.root.trans h.root
  parts := by rw [h'.parts, h.parts, List.append_assoc]

theorem prefix_join (hrel : isAbsolute sub = false) : dir.toList <+: (join dir sub).toList := by
  unfold join
  rw [hrel, Bool.false_or]
  split
  · rename_i he
    have hd : dir.toList = [] := by simpa using he
    simp [hd]
  · split
    · simp
    · rw [String.append_assoc, String.toList_append]
      exact List.prefix_append _ _

theorem descends_join (hrel : isAbsolute sub = false) : Descends dir (components sub) (join dir sub) where
  text := prefix_join hrel
  root := isAbsolute_join hrel
  parts := components_join_relative dir sub hrel

/-- Where a path can be followed, the directory that it begins with can be. -/
theorem Descends.isUsable (h : Descends dir down path) (hu : isUsable path = true) : isUsable dir = true := by
  obtain ⟨more, hmore⟩ := h.text
  have hpath : path = dir ++ String.ofList more := by
    rw [← String.toList_inj, String.toList_append, String.toList_ofList]
    exact hmore.symm
  simp only [Path.isUsable, Bool.and_eq_true, decide_eq_true_eq, Bool.not_eq_true', List.contains_eq_mem,
    decide_eq_false_iff_not] at hu ⊢
  obtain ⟨hsize, hzero⟩ := hu
  refine ⟨?_, fun hm => hzero (h.text.subset hm)⟩
  rw [hpath, String.utf8ByteSize_append] at hsize
  omega

end

end Path

namespace Disk

/-- Components without `..` lead down. -/
theorem follow_down {root : Node} {start cs down place : List String} (hdown : ".." ∉ down)
    (h : follow root start (cs ++ down) = .ok place) :
    ∃ base, follow root start cs = .ok base ∧ place = base ++ down := by
  induction down generalizing cs with
  | nil => exact ⟨place, by simpa using h, by simp⟩
  | cons c down ih =>
    simp only [List.mem_cons, not_or] at hdown
    obtain ⟨hc, hdown⟩ := hdown
    have hstep : follow root start ((cs ++ [c]) ++ down) = .ok place := by simpa using h
    obtain ⟨mid, hmid, hplace⟩ := ih hdown hstep
    obtain ⟨base, hbase, rfl⟩ := follow_append (fun e => hc e.symm) hmid
    exact ⟨base, hbase, by simp [hplace]⟩

theorem place?_down {d : Disk} {dir path : String} {down place : List String} (hne : dir.toList.isEmpty = false)
    (hd : Path.Descends dir down path) (hdown : ".." ∉ down) (h : d.place? path = .ok place) :
    ∃ base, d.place? dir = .ok base ∧ place = base ++ down := by
  unfold place? at h
  split at h
  · cases h
  · split at h
    · cases h
    · rename_i hu
      have hu : Path.isUsable path = true := by simpa using hu
      have hstart : d.start path = d.start dir := by simp only [start, hd.root]
      rw [hstart, hd.parts] at h
      obtain ⟨base, hbase, hplace⟩ := follow_down hdown h
      refine ⟨base, ?_, hplace⟩
      simp only [place?, hne, hd.isUsable hu, Bool.not_true, Bool.false_eq_true, if_false]
      exact hbase

end Disk

/-- The file of a resource: one more component, whatever the directory. -/
theorem Folder.descends_resourcePath {dir name : String} (hn : isResourceName name = true) :
    Path.Descends dir [Folder.fileName name] (Folder.resourcePath dir name) := by
  have hslash := slash_not_mem_fileName hn
  rw [← Path.components_plain hslash (isVoid_fileName name)]
  exact Path.descends_join (Path.isAbsolute_plain hslash)

/-! ## Settings -/

namespace Config

section
variable (c : Config) (kind : Resource) (name : String)

/-- The directory for a kind of resource, as the settings give it. -/
def dirOf : Resource → String
  | .entity => c.entityDir
  | .helper => c.helperDir

/-- What the program's resources answer to a look-up of either kind. -/
def answer (d : Disk) : Except StoreError Value :=
  match kind with
  | .entity => (fun rows => .list (rows.map .object)) <$> (c.folder d).source.entity name
  | .helper => .object <$> (c.folder d).source.helper name

/-- A look-up that opens the file at a path and nothing else: what is elsewhere makes no difference to its answer,
which is "not found" just if no file is there. -/
structure Opens (path : String) : Prop where
  alone : ∀ d d' : Disk, d.readText path = d'.readText path → c.answer kind name d = c.answer kind name d'
  absent : ∀ d : Disk, c.answer kind name d = .error (.notFound kind name) ↔ d.readText path = .error .missing

end

theorem checkDir_ok_iff {key dir : String} :
    checkDir key dir = .ok () ↔ Text.isBlankText dir = false ∧ leadsDown dir = true := by
  unfold checkDir
  by_cases hb : Text.isBlankText dir = true
  · simp [hb]
  · by_cases hd : leadsDown dir = true
    · simp [hb, hd]
    · simp [hb, hd]

/-- The settings that pass their check. -/
theorem check_ok_iff {c : Config} :
    c.check = .ok () ↔
      Text.isBlankText c.dataDir = false ∧ (LogLevel.ofName? c.logLevel).isSome = true ∧
        ∀ kind, Text.isBlankText (c.dirOf kind) = false ∧ leadsDown (c.dirOf kind) = true := by
  have hkinds : (∀ kind, Text.isBlankText (c.dirOf kind) = false ∧ leadsDown (c.dirOf kind) = true) ↔
      checkDir "entity_dir" c.entityDir = .ok () ∧ checkDir "helper_dir" c.helperDir = .ok () := by
    rw [checkDir_ok_iff, checkDir_ok_iff]
    constructor
    · intro h
      exact ⟨h .entity, h .helper⟩
    · rintro ⟨he, hh⟩ kind
      cases kind with
      | entity => exact he
      | helper => exact hh
  rw [hkinds]
  unfold check
  by_cases hb : Text.isBlankText c.dataDir = true
  · rw [if_pos hb]
    show Except.error _ = Except.ok () ↔ _
    simp [hb]
  · rw [if_neg hb]
    show (if (LogLevel.ofName? c.logLevel).isNone = true then _ else _) = Except.ok () ↔ _
    by_cases hl : (LogLevel.ofName? c.logLevel).isNone = true
    · rw [if_pos hl]
      show Except.error _ = Except.ok () ↔ _
      rw [Option.isNone_iff_eq_none] at hl
      simp [hl]
    · rw [if_neg hl]
      show (checkDir "entity_dir" c.entityDir >>= fun _ => checkDir "helper_dir" c.helperDir) = .ok () ↔ _
      have hb : Text.isBlankText c.dataDir = false := by simpa using hb
      have hl : (LogLevel.ofName? c.logLevel).isSome = true := by simpa [Option.isSome_iff_ne_none] using hl
      rw [hb, hl]
      cases checkDir "entity_dir" c.entityDir with
      | error f => exact ⟨nofun, fun h => nomatch h.2.2.1⟩
      | ok _ => simp [ok_bind]

/-! ## Look-ups -/

section
variable {c : Config} {kind : Resource} {name : String}

/-- The directory with the resources of a kind. -/
def pathOf (c : Config) (kind : Resource) : String := Path.join c.dataDir (c.dirOf kind)

/-- A resource of a kind, from what is in its file. -/
def shaped (kind : Resource) (name : String) (v : Value) : Except StoreError Value :=
  match kind with
  | .entity => (fun rows => .list (rows.map .object)) <$> Source.entityOf name v
  | .helper => .object <$> Source.helperOf name v

theorem answer_eq (d : Disk) :
    c.answer kind name d = Folder.load d (c.pathOf kind) kind name >>= shaped kind name := by
  cases kind with
  | entity => exact map_bind ..
  | helper => exact map_bind ..

/-- Content of the wrong shape is there all the same. -/
theorem shaped_found (v : Value) : shaped kind name v ≠ .error (.notFound kind name) := by
  cases kind with
  | entity =>
    simp only [shaped, Source.entityOf]
    split
    · split <;> exact nofun
    · exact nofun
  | helper =>
    simp only [shaped, Source.helperOf]
    split <;> exact nofun

theorem answer_unnamed (hn : isResourceName name = false) (d : Disk) :
    c.answer kind name d = .error (.notFound kind name) := by
  have hload : Folder.load d (c.pathOf kind) kind name = .error (.notFound kind name) := by
    simp [Folder.load, hn]
  rw [answer_eq, hload]
  rfl

theorem opens_resourcePath (hn : isResourceName name = true) :
    c.Opens kind name (Folder.resourcePath (c.pathOf kind) name) where
  alone := by
    intro d d' h
    simp only [answer_eq, Folder.load, h]
  absent := by
    intro d
    rw [answer_eq]
    simp only [Folder.load, hn, Bool.not_true, Bool.false_eq_true, if_false]
    cases hr : d.readText (Folder.resourcePath (c.pathOf kind) name) with
    | error o =>
      cases o with
      | missing => exact ⟨fun _ => rfl, fun _ => rfl⟩
      | blocked => exact ⟨nofun, nofun⟩
    | ok s =>
      refine ⟨fun h => ?_, nofun⟩
      cases hv : Json.read s with
      | none => simp only [hv] at h; cases h
      | some v => simp only [hv] at h; exact absurd h (shaped_found v)

/-- A checked program looks up a resource in one file, below its data directory, or nowhere. -/
theorem answer_confined (c : Config) (hc : c.check = .ok ()) (kind : Resource) (name : String) :
    (isResourceName name = false ∧ ∀ d, c.answer kind name d = .error (.notFound kind name)) ∨
    (isResourceName name = true ∧ name ≠ "" ∧ (∀ x ∈ ['/', '.', '\x00'], x ∉ name.toList) ∧
      ".." ∉ Path.components (c.dirOf kind) ++ [name ++ ".json"] ∧
      ∃ path, c.Opens kind name path ∧
        Path.Descends c.dataDir (Path.components (c.dirOf kind) ++ [name ++ ".json"]) path ∧
        ∀ d place, Disk.place? d path = .ok place → ∃ base, Disk.place? d c.dataDir = .ok base ∧
          place = base ++ (Path.components (c.dirOf kind) ++ [name ++ ".json"])) := by
  obtain ⟨hdata, -, hdirs⟩ := check_ok_iff.1 hc
  obtain ⟨-, hdown⟩ := hdirs kind
  by_cases hn : isResourceName name = true
  · right
    simp only [leadsDown, Bool.and_eq_true, Bool.not_eq_true', List.contains_eq_mem, decide_eq_false_iff_not] at hdown
    obtain ⟨hrel, hdots⟩ := hdown
    have hdots : ".." ∉ Path.components (c.dirOf kind) ++ [name ++ ".json"] := by
      intro hm
      rcases List.mem_append.1 hm with hm | hm
      · exact hdots hm
      · exact Folder.fileName_ne_dots name (List.mem_singleton.1 hm).symm
    have hpath : Path.Descends c.dataDir (Path.components (c.dirOf kind) ++ [name ++ ".json"])
        (Folder.resourcePath (c.pathOf kind) name) :=
      (Path.descends_join hrel).trans (Folder.descends_resourcePath hn)
    have hne : c.dataDir.toList.isEmpty = false := by
      cases hchars : c.dataDir.toList with
      | nil => simp [Text.isBlankText, hchars, Text.trim] at hdata
      | cons => rfl
    refine ⟨hn, ?_, ?_, hdots, _, opens_resourcePath hn, hpath, fun d place h => Disk.place?_down hne hpath hdots h⟩
    · intro e
      rw [e] at hn
      revert hn
      decide
    · intro x hx
      refine Folder.not_mem_of_isWord ?_ hn
      simp only [List.mem_cons, List.not_mem_nil, or_false] at hx
      rcases hx with rfl | rfl | rfl <;> decide
  · left
    have hn : isResourceName name = false := by simpa using hn
    exact ⟨hn, answer_unnamed hn⟩

end

/-- A directory of helpers that is the data directory itself, spelled at length. -/
theorem answer_confined_here :
    ∃ path, ({ Config.withDataDir "/srv/data" with helperDir := ".//." } : Config).Opens .helper "page" path ∧
      Path.isAbsolute path = true ∧ Path.components path = ["srv", "data", "page.json"] := by
  have hword : isResourceName "page" = true := by decide
  rcases answer_confined { Config.withDataDir "/srv/data" with helperDir := ".//." } rfl .helper "page" with h | h
  · rw [hword] at h
    cases h.1
  · obtain ⟨-, -, -, -, path, hopens, hpath, -⟩ := h
    exact ⟨path, hopens, hpath.root, hpath.parts⟩

end Config

end MockSchema
