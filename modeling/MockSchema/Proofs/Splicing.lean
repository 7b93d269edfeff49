/-
  MockSchema.Proofs.Splicing — what becomes of a row when the fields of an object are spliced into it.

  Every key that is written begins with the lead, so fields whose keys do not are as before, and no field changes
  its place. Behind a lead that ends in `_` the keys of the object stay apart: if no field of the row began with
  the lead, those that do now are the object. Behind another lead keys may fall together, and then the last counts
  (`Spliced`, `splice_exact`). What cannot be spliced is refused before anything is written, also when the row is
  written to in place (`mergeInPlace_eq`).
-/

import Mathlib.Data.List.Nodup
import MockSchema.Proofs.Runs
import MockSchema.Schema.Row

namespace MockSchema

/-! ## Spliced keys -/

def Leads (lead key : String) : Prop := lead.toList <+: key.toList

instance (lead key : String) : Decidable (Leads lead key) := inferInstanceAs (Decidable (_ <+: _))

/-- The key behind the lead. -/
def behind (lead key : String) : String := String.ofList (key.toList.drop lead.toList.length)

/-- The key with its first character in upper case, which may be several characters. -/
def capitalised (key : String) : String :=
  match key.toList with
  | [] => ""
  | c :: cs => String.ofList (Text.upper c ++ cs)

theorem spliceKey_underscore {lead : String} (h : lead.toList.getLast? = some '_') (key : String) :
    spliceKey lead key = lead ++ key := by
  rw [spliceKey, if_pos h]

theorem spliceKey_capitalised {lead : String} (h : lead.toList.getLast? ≠ some '_') (key : String) :
    spliceKey lead key = lead ++ capitalised key := by
  rw [spliceKey, if_neg h, capitalised]
  cases key.toList with
  | nil => exact String.append_empty.symm
  | cons c cs => rfl

theorem leads_append (lead key : String) : Leads lead (lead ++ key) := by
  rw [Leads, String.toList_append]
  exact List.prefix_append _ _

theorem leads_spliceKey (lead key : String) : Leads lead (spliceKey lead key) := by
  by_cases h : lead.toList.getLast? = some '_'
  · rw [spliceKey_underscore h]
    exact leads_append lead key
  · rw [spliceKey_capitalised h]
    exact leads_append lead _

theorem behind_append (lead key : String) : behind lead (lead ++ key) = key := by
  rw [behind, String.toList_append, List.drop_left, String.ofList_toList]

namespace Row

/-! ## Merging in place -/

/-- Merge a value into a row that is at hand to be written to. -/
def mergeInPlace (target : Target) (v : Value) : ExceptT String (StateM Row) Unit :=
  match target with
  | .plain key => modify fun row => Dict.put row key v
  | .splice lead =>
    match v with
    | .null => return ()
    | .object fields => forM fields fun kv => modify fun row => Dict.put row (spliceKey lead kv.1) kv.2
    | v => throw v.typeName

theorem mergeInPlace_object (lead : String) (fields row : Row) : mergeInPlace (.splice lead) (.object fields) row =
    (.ok (), fields.foldl (fun row kv => Dict.put row (spliceKey lead kv.1) kv.2) row) := by
  simp only [mergeInPlace]
  induction fields generalizing row with
  | nil => rfl
  | cons kv fields ih =>
    rw [List.forM_cons, run_bind]
    exact ih _

/-- Written to in place, the row becomes what the merge yields; where that fails, it is as it was. -/
theorem mergeInPlace_eq (row : Row) (target : Target) (v : Value) :
    mergeInPlace target v row = match merge row target v with
      | .ok new => (.ok (), new)
      | .error type => (.error type, row) := by
  cases target with
  | plain key => rfl
  | splice lead =>
    cases v with
    | object fields => exact mergeInPlace_object lead fields row
    | _ => rfl

/-! ## Splicing an object -/

/-- What the fields of an object have made of a row. -/
structure Spliced (lead : String) (row fields new : Row) : Prop where
  /-- Only under keys with the lead is anything else than before. -/
  other : ∀ key, ¬ Leads lead key → Dict.get? new key = Dict.get? row key
  /-- The old keys come first, in their order. -/
  order : Dict.keys row <+: Dict.keys new
  /-- What is behind the lead is the object. -/
  whole : lead.toList.getLast? = some '_' → (∀ key ∈ Dict.keys row, ¬ Leads lead key) →
    (new.filter fun kv => decide (Leads lead kv.1)).map (fun kv => (behind lead kv.1, kv.2)) = fields
  /-- Of the fields that get one key the last counts. -/
  last : lead.toList.getLast? ≠ some '_' → ∀ before key v after, fields = before ++ (key, v) :: after →
    (∀ kv ∈ after, lead ++ capitalised kv.1 ≠ lead ++ capitalised key) →
    Dict.get? new (lead ++ capitalised key) = some v

section
variable {lead : String} {row fields : Row}

/-- The fields under the keys that they get. -/
def derived (lead : String) (fields : Row) : Row := fields.map fun kv => (spliceKey lead kv.1, kv.2)

theorem merge_object (row : Row) (lead : String) (fields : Row) :
    merge row (.splice lead) (.object fields) = .ok (Dict.overlay row (derived lead fields)) := by
  rw [derived, Dict.overlay, List.foldl_map]
  rfl

theorem leads_derived {kv : String × Value} (h : kv ∈ derived lead fields) : Leads lead kv.1 := by
  obtain ⟨field, -, rfl⟩ := List.mem_map.1 h
  exact leads_spliceKey lead field.1

/-- Behind `_` all keys stay apart. -/
theorem nodup_derived (h : lead.toList.getLast? = some '_') (hfields : (Dict.keys fields).Nodup) :
    (Dict.keys (derived lead fields)).Nodup := by
  have hkeys : Dict.keys (derived lead fields) = (Dict.keys fields).map (lead ++ ·) := by
    rw [Dict.keys, Dict.keys, derived, List.map_map, List.map_map]
    exact List.map_congr_left fun kv _ => spliceKey_underscore h kv.1
  rw [hkeys]
  refine List.Nodup.map_on (fun key _ key' _ he => ?_) hfields
  rw [← behind_append lead key, he, behind_append]

theorem spliced (hrow : (Dict.keys row).Nodup) (hfields : (Dict.keys fields).Nodup) :
    Spliced lead row fields (Dict.overlay row (derived lead fields)) where
  other := fun key hkey => by
    refine Dict.get?_overlay_of_not_mem row fun hmem => ?_
    obtain ⟨kv, hkv, rfl⟩ := List.mem_map.1 hmem
    exact hkey (leads_derived hkv)
  order := Dict.keys_prefix_overlay row _
  whole := fun h hnone => by
    have hdisjoint : (Dict.keys (row ++ derived lead fields)).Nodup := by
      rw [Dict.keys, List.map_append]
      refine List.Nodup.append hrow (nodup_derived h hfields) fun key hkey hkey' => ?_
      obtain ⟨kv, hkv, rfl⟩ := List.mem_map.1 hkey'
      exact hnone _ hkey (leads_derived hkv)
    have hold : row.filter (fun kv => decide (Leads lead kv.1)) = [] :=
      List.filter_eq_nil_iff.2 fun kv hkv => by simpa using hnone kv.1 (List.mem_map_of_mem hkv)
    have hnew : (derived lead fields).filter (fun kv => decide (Leads lead kv.1)) = derived lead fields :=
      List.filter_eq_self.2 fun kv hkv => decide_eq_true (leads_derived hkv)
    rw [Dict.overlay_of_nodup hdisjoint, List.filter_append, hold, hnew, List.nil_append, derived, List.map_map]
    have hback : ∀ kv ∈ fields, (behind lead (spliceKey lead kv.1), kv.2) = kv := fun kv _ => by
      rw [spliceKey_underscore h, behind_append]
    exact (List.map_congr_left (g := id) hback).trans (List.map_id _)
  last := fun h before key v after hsplit hafter => by
    rw [← spliceKey_capitalised h, Dict.get?_overlay, Dict.get?_reverse_eq_some_iff.2, Option.some_or]
    refine ⟨derived lead before, derived lead after, ?_, ?_⟩
    · rw [hsplit, derived, List.map_append, List.map_cons]
      rfl
    · intro hmem
      obtain ⟨kv, hkv, he⟩ := List.mem_map.1 hmem
      obtain ⟨field, hfield, rfl⟩ := List.mem_map.1 hkv
      refine hafter field hfield ?_
      rw [← spliceKey_capitalised h, ← spliceKey_capitalised h, ← he]

/-- Splicing a value under a lead fails just where it is neither an object nor null, and the row is then as it was; null
leaves it as it was too. An object is merged in, without a change to a field whose key does not begin with the
lead or to the order of the old fields; and nothing of it is lost but what falls on one key. -/
theorem splice_exact (lead : String) (hrow : (Dict.keys row).Nodup) (v : Value) :
    ((∃ type, merge row (.splice lead) v = .error type) ↔ v ≠ .null ∧ ∀ fields, v ≠ .object fields) ∧
      (∀ type, merge row (.splice lead) v = .error type → mergeInPlace (.splice lead) v row = (.error type, row)) ∧
      (v = .null → merge row (.splice lead) v = .ok row) ∧
      ∀ fields, v = .object fields → (Dict.keys fields).Nodup →
        ∃ new, merge row (.splice lead) v = .ok new ∧ mergeInPlace (.splice lead) v row = (.ok (), new) ∧
          Spliced lead row fields new := by
  refine ⟨?_, fun type h => by rw [mergeInPlace_eq, h], ?_, ?_⟩
  · cases v <;> simp [merge]
  · rintro rfl
    rfl
  · rintro fields rfl hfields
    have hmerge := merge_object row lead fields
    exact ⟨_, hmerge, by rw [mergeInPlace_eq, hmerge], spliced hrow hfields⟩

/-- Two keys that differ in the case of their first character fall together under the capital, and the last
of them counts. -/
theorem splice_exact_of_collision :
    let row : Row := [("paId", .null), ("keep", .int 0)]
    let fields : Row := [("Id", .int 1), ("id", .int 2)]
    ∃ new, merge row (.splice "pa") (.object fields) = .ok new ∧ Spliced "pa" row fields new ∧
      Dict.get? new "paId" = some (.int 2) := by
  intro row fields
  have hrow : (Dict.keys row).Nodup := by decide
  obtain ⟨new, hnew, -, hspliced⟩ := (splice_exact "pa" hrow (.object fields)).2.2.2 fields rfl (by decide)
  refine ⟨new, hnew, hspliced, ?_⟩
  exact hspliced.last (by decide) [("Id", .int 1)] "id" (.int 2) [] rfl fun _ h => absurd h List.not_mem_nil

end

end Row

end MockSchema
