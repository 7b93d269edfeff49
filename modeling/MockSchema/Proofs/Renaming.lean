/-
  MockSchema.Proofs.Renaming — what the renames of a row do, and how they are undone.

  The name of a field is looked up in the list once, by the key that the field has in the row (`renamed`). So names may
  change places or go round: as long as no two fields get one name, each stays where it is and keeps its
  value, and the list with every entry turned round gives the row back (`renaming_reversible`).
-/

import MockSchema.Proofs.ProjectedFields

namespace MockSchema

/-! ## Lists of renames -/

/-- `inner:outer` for `outer:inner`. -/
def turned (entry : String) : String := fieldOf entry ++ ":" ++ givenName entry

theorem IsPair.turned_cases {entry : String} (h : IsPair entry) :
    IsPair (turned entry) ∧ fieldOf (turned entry) = givenName entry ∧ givenName (turned entry) = fieldOf entry := by
  obtain ⟨outer, inner, ho, hi, rfl⟩ := h
  rw [turned, fieldOf_pair ho, givenName_pair ho]
  exact ⟨⟨inner, outer, hi, ho, rfl⟩, fieldOf_pair hi, givenName_pair hi⟩

/-- The name that a field gets. -/
def renamed (entries : List String) (key : String) : String :=
  match entries.find? (fieldOf · == key) with
  | some entry => givenName entry
  | none => key

section
variable {entries : List String}

theorem renamed_fieldOf (hfields : (entries.map fieldOf).Nodup) {entry : String} (h : entry ∈ entries) :
    renamed entries (fieldOf entry) = givenName entry := by
  rw [renamed]
  split
  · rename_i other hfind
    have hsame : fieldOf other = fieldOf entry := by simpa using List.find?_some hfind
    rw [List.inj_on_of_nodup_map hfields (List.mem_of_find?_eq_some hfind) h hsame]
  · rename_i hfind
    exact absurd (beq_self_eq_true _) (List.find?_eq_none.1 hfind entry h)

theorem renamed_of_not_mem {key : String} (h : key ∉ entries.map fieldOf) : renamed entries key = key := by
  rw [renamed, List.find?_eq_none.2]
  exact fun entry hentry he => h (List.mem_map.2 ⟨entry, hentry, beq_iff_eq.1 he⟩)

theorem renamed_ne_empty (hpairs : ∀ entry ∈ entries, IsPair entry) {key : String} (h : key ≠ "") :
    renamed entries key ≠ "" := by
  rw [renamed]
  split
  · rename_i entry hfind
    exact (pairOf_cases (Or.inr (hpairs entry (List.mem_of_find?_eq_some hfind)))).1.ne_empty
  · exact h

theorem keys_renamed (row : Row) :
    Dict.keys (row.map fun kv => (renamed entries kv.1, kv.2)) = (Dict.keys row).map (renamed entries) := by
  rw [Dict.keys, Dict.keys, List.map_map, List.map_map]
  rfl

/-- Where no two fields get one name, the list turned round gives each its own name back. -/
theorem renamed_turned {keys : List String} (hpairs : ∀ entry ∈ entries, IsPair entry)
    (hfields : (entries.map fieldOf).Nodup) (hkeys : ∀ entry ∈ entries, fieldOf entry ∈ keys)
    (hinj : ∀ key ∈ keys, ∀ key' ∈ keys, renamed entries key = renamed entries key' → key = key') :
    ((entries.map turned).map fieldOf).Nodup ∧
      ∀ key ∈ keys, renamed (entries.map turned) (renamed entries key) = key := by
  have hback : (entries.map turned).map fieldOf = entries.map givenName := by
    rw [List.map_map]
    exact List.map_congr_left fun entry hentry => (hpairs entry hentry).turned_cases.2.1
  have hgiven : ∀ entry ∈ entries, ∀ key ∈ keys, givenName entry = renamed entries key → fieldOf entry = key :=
    fun entry hentry key hkey he =>
      hinj _ (hkeys entry hentry) key hkey ((renamed_fieldOf hfields hentry).trans he)
  have hnodup : ((entries.map turned).map fieldOf).Nodup := by
    rw [hback]
    refine List.Nodup.map_on (fun entry hentry entry' hentry' he => ?_) (List.Nodup.of_map _ hfields)
    have hsame := hgiven entry hentry _ (hkeys entry' hentry') (he.trans (renamed_fieldOf hfields hentry').symm)
    exact List.inj_on_of_nodup_map hfields hentry hentry' hsame
  refine ⟨hnodup, fun key hkey => ?_⟩
  by_cases hlisted : key ∈ entries.map fieldOf
  · obtain ⟨entry, hentry, rfl⟩ := List.mem_map.1 hlisted
    obtain ⟨-, hfield, hname⟩ := (hpairs entry hentry).turned_cases
    have := renamed_fieldOf hnodup (List.mem_map_of_mem (f := turned) hentry)
    rw [renamed_fieldOf hfields hentry, ← hfield, this, hname]
  · -- A name that a field keeps is given to no other one.
    rw [renamed_of_not_mem hlisted, renamed_of_not_mem]
    rw [hback, List.mem_map]
    rintro ⟨entry, hentry, he⟩
    have := hgiven entry hentry key hkey (he.trans (renamed_of_not_mem hlisted).symm)
    exact hlisted (List.mem_map.2 ⟨entry, hentry, this⟩)

end

/-! ## Renamed rows -/

namespace Projection

variable {p : Projection} {entries : List String}

theorem nameOf_renames (hpairs : ∀ entry ∈ entries, IsPair entry) (hfields : (entries.map fieldOf).Nodup)
    (hp : p.renames = entries.map pairOf) (key : String) : p.nameOf key = renamed entries key := by
  have hnamed : NamedBy entries p := by
    refine ⟨fun entry hentry => Or.inr (hpairs entry hentry), ?_⟩
    refine hp.trans (List.filter_eq_self.2 fun pair hpair => ?_).symm
    obtain ⟨entry, hentry, rfl⟩ := List.mem_map.1 hpair
    rcases (pairOf_cases (Or.inr (hpairs entry hentry))).2 with ⟨-, he⟩ | ⟨hno, -⟩
    · rw [he]; rfl
    · exact absurd (hpairs entry hentry) hno
  rcases hnamed.nameOf_cases key with
    ⟨before, entry, after, hsplit, -, rfl, -, hname⟩ | ⟨hno, hname⟩
  · rw [hname, renamed_fieldOf hfields (by simp [hsplit])]
  · refine hname.trans (renamed_of_not_mem fun hlisted => ?_).symm
    obtain ⟨entry, hentry, he⟩ := List.mem_map.1 hlisted
    exact hno entry hentry (hpairs entry hentry) he

/-- Each field stays in its place with its value. -/
theorem apply_renames {row : Row} (hpairs : ∀ entry ∈ entries, IsPair entry)
    (hfields : (entries.map fieldOf).Nodup) (hp : p = ⟨.all, entries.map pairOf⟩)
    (hshown : ∀ kv ∈ row, kv.1 ≠ "" ∧ kv.2 ≠ .null) (hnodup : ((Dict.keys row).map (renamed entries)).Nodup) :
    p.apply row = row.map fun kv => (renamed entries kv.1, kv.2) := by
  have hout : p.outgoing row = row.map fun kv => (renamed entries kv.1, kv.2) := by
    have hsel : row.filter (p.selects ·.1) = row := List.filter_eq_self.2 fun kv _ => by rw [hp]; rfl
    rw [outgoing, hsel]
    exact List.map_congr_left fun kv _ => by rw [nameOf_renames hpairs hfields (by rw [hp])]
  rw [apply_of_distinct (by rwa [hout, keys_renamed]), hout]
  refine List.filter_eq_self.2 fun kv hkv => ?_
  obtain ⟨⟨key, v⟩, hfield, rfl⟩ := List.mem_map.1 hkv
  obtain ⟨hkey, hv⟩ := hshown _ hfield
  exact shown_iff.2 ⟨renamed_ne_empty hpairs hkey, hv⟩

end Projection

namespace Planning

/-- Of the keywords that say which fields a row keeps, the node has the list of renames alone. -/
structure RenamesOnly (node : Row) (entries : List String) : Prop where
  rename : Dict.get? node Keyword.rename = some (.list (entries.map .str))
  only : Dict.get? node Keyword.only = none
  except : Dict.get? node Keyword.except = none

theorem stringList_none {node : Row} {key : String} (h : Dict.get? node key = none) :
    stringList node key = pure none := by
  rw [stringList, h]

theorem stringList_some {node : Row} {key : String} {ss : List String}
    (h : Dict.get? node key = some (.list (ss.map .str))) : stringList node key = pure (some ss) := by
  simp only [stringList, h, strings?_eq.2 rfl]

theorem RenamesOnly.projection_eq {node : Row} {entries : List String} (h : RenamesOnly node entries) :
    projection node = (return ⟨.all, ← check Keyword.rename (renamePairs entries)⟩) := by
  simp only [projection, stringList_none h.only, stringList_none h.except, stringList_some h.rename, pure_bind]
  rfl

theorem renamePairs_eq_map {entries : List String} {pairs : List NamePair} (h : renamePairs entries = .ok pairs) :
    pairs = entries.map pairOf := by
  induction entries generalizing pairs with
  | nil => cases h; rfl
  | cons entry entries ih =>
    simp only [renamePairs] at h
    split at h
    · rename_i outer inner hfirst
      obtain ⟨rest, hrest, h⟩ := bind_ok h
      cases h
      rw [List.map_cons, ← ih hrest, pairOf, hfirst]
      rfl
    · cases h

/-- A list of renames is accepted where every entry has two names, and then all fields are selected. -/
theorem RenamesOnly.accepted {node : Row} {entries : List String} (h : RenamesOnly node entries) {p : Projection}
    {c c' : Cache} : projection node c = (.ok p, c') ↔
      (∀ entry ∈ entries, IsPair entry) ∧ p = ⟨.all, entries.map pairOf⟩ ∧ c' = c := by
  rw [h.projection_eq, ← renamePairs_ok]
  cases hr : renamePairs entries with
  | error e =>
    refine iff_of_false (fun h => ?_) ?_
    · cases h
    · rintro ⟨⟨pairs, hpairs⟩, -⟩
      cases hpairs
  | ok pairs =>
    rw [← renamePairs_eq_map hr]
    constructor
    · intro h
      cases h
      exact ⟨⟨pairs, rfl⟩, rfl, rfl⟩
    · rintro ⟨-, rfl, rfl⟩
      rfl

/-- Renaming the fields of a row keeps each in its place with its value, the names all looked up in the row as it was.
The list with its entries turned round is accepted too, and gives back the row. -/
theorem renaming_reversible {node back row : Row} {entries : List String} {p : Projection} {c c' : Cache}
    (hnode : RenamesOnly node entries) (hback : RenamesOnly back (entries.map turned))
    (hp : projection node c = (.ok p, c')) (hrow : (Dict.keys row).Nodup)
    (hshown : ∀ kv ∈ row, kv.1 ≠ "" ∧ kv.2 ≠ .null) (hfields : (entries.map fieldOf).Nodup)
    (hkeys : ∀ entry ∈ entries, fieldOf entry ∈ Dict.keys row)
    (hinj : ∀ key ∈ Dict.keys row, ∀ key' ∈ Dict.keys row, renamed entries key = renamed entries key' → key = key') :
    p.apply row = row.map (fun kv => (renamed entries kv.1, kv.2)) ∧
      ∀ d, ∃ q, projection back d = (.ok q, d) ∧ q.apply (p.apply row) = row := by
  obtain ⟨hpairs, hp, -⟩ := hnode.accepted.1 hp
  obtain ⟨hfields', hturned⟩ := renamed_turned hpairs hfields hkeys hinj
  have happly := Projection.apply_renames hpairs hfields hp hshown (List.Nodup.map_on hinj hrow)
  have hpairs' : ∀ entry ∈ entries.map turned, IsPair entry := by
    rw [List.forall_mem_map]
    exact fun entry hentry => (hpairs entry hentry).turned_cases.1
  refine ⟨happly, fun d => ⟨_, hback.accepted.2 ⟨hpairs', rfl, rfl⟩, ?_⟩⟩
  have hkeys' : (Dict.keys (p.apply row)).map (renamed (entries.map turned)) = Dict.keys row := by
    rw [happly, keys_renamed, List.map_map]
    exact (List.map_congr_left (g := id) hturned).trans (List.map_id _)
  have hshown' : ∀ kv ∈ p.apply row, kv.1 ≠ "" ∧ kv.2 ≠ .null := by
    rw [happly, List.forall_mem_map]
    exact fun kv hkv => ⟨renamed_ne_empty hpairs (hshown kv hkv).1, (hshown kv hkv).2⟩
  rw [Projection.apply_renames hpairs' hfields' rfl hshown' (by rwa [hkeys']), happly, List.map_map]
  have hback : ∀ kv ∈ row, (renamed (entries.map turned) (renamed entries kv.1), kv.2) = kv :=
    fun kv hkv => Prod.ext (hturned kv.1 (List.mem_map_of_mem hkv)) rfl
  exact (List.map_congr_left (g := id) hback).trans (List.map_id _)

/-- Three names that go round, and a field that keeps its own. -/
theorem renaming_reversible_of_cycle :
    let entries := ["b:a", "c:b", "a:c"]
    let node : Row := [("__rename__", .list (entries.map .str))]
    let back : Row := [("__rename__", .list ((entries.map turned).map .str))]
    let row : Row := [("a", .int 1), ("d", .int 2), ("c", .int 3), ("b", .int 4)]
    ∃ p q, projection node [] = (.ok p, []) ∧ projection back [] = (.ok q, []) ∧
      p.apply row = [("b", .int 1), ("d", .int 2), ("a", .int 3), ("c", .int 4)] ∧ q.apply (p.apply row) = row := by
  intro entries node back row
  have hnode : RenamesOnly node entries := ⟨rfl, rfl, rfl⟩
  have hback : RenamesOnly back (entries.map turned) := ⟨rfl, rfl, rfl⟩
  obtain ⟨p, hp⟩ : ∃ p, projection node [] = (.ok p, []) := ⟨_, rfl⟩
  have hshown : ∀ kv ∈ row, kv.1 ≠ "" ∧ kv.2 ≠ .null := by simp [row]
  have hkeys : (Dict.keys row).Nodup := by decide
  obtain ⟨happly, hundo⟩ := renaming_reversible hnode hback hp hkeys hshown (by decide) (by decide) (by decide)
  obtain ⟨q, hq, hrow⟩ := hundo []
  exact ⟨p, q, hp, hq, happly, hrow⟩

end Planning

end MockSchema
