/-
  MockSchema.Proofs.ProjectedFields — which fields of a row are left after its projection.

  The selected fields leave the row in its order, each under the name it gets (`outgoing`), and they are put one
  after another; what then is null or has no name is dropped. So of several fields under one name the last
  counts, and a null that is the last takes those before it along (`nulls_apart`, `null_takes_field`).

  A field has one name. Under `__only__` it is that of the last entry `outer:inner` for the field, and the field's own
  if there is none, so an entry may be overruled by another (`Counts`). Every entry that counts yields its
  field (`only_yields`), and one that does not is lost (`first_name_lost`).
-/

import Mathlib.Data.List.Nodup
import MockSchema.Proofs.ResultShape

namespace MockSchema

/-! ## Entries -/

theorem IsName.ne_empty {s : String} (h : IsName s) : s ≠ "" := by
  rintro rfl
  exact h.1 rfl

/-- The field that an entry is about: `inner` of `outer:inner`, or the entry itself. -/
def fieldOf (entry : String) : String :=
  match entry.toList.dropWhile (· != ':') with
  | _ :: cs => String.ofList cs
  | [] => entry

theorem fieldOf_name {s : String} (h : IsName s) : fieldOf s = s := by
  have hall : ∀ c ∈ s.toList, (c != ':') = true := fun c hc => bne_iff_ne.2 (h.ne hc (by decide))
  rw [fieldOf, List.dropWhile_eq_nil_iff.2 hall]

theorem fieldOf_pair {outer inner : String} (h : IsName outer) : fieldOf (outer ++ ":" ++ inner) = inner := by
  have hs : (outer ++ ":" ++ inner).toList = outer.toList ++ ':' :: inner.toList := by simp
  rw [fieldOf, hs, (takeWhile_colon h inner.toList).2]
  exact String.ofList_toList

/-- An entry as the planner reads it. -/
def pairOf (entry : String) : NamePair := (NamePair.ofText? entry).getD ⟨none, entry⟩

/-- What an entry says to the planner is what it says here. -/
theorem pairOf_cases {entry : String} (h : IsName entry ∨ IsPair entry) :
    IsName (givenName entry) ∧ ((IsPair entry ∧ pairOf entry = ⟨some (givenName entry), fieldOf entry⟩) ∨
      (¬ IsPair entry ∧ givenName entry = fieldOf entry ∧ pairOf entry = ⟨none, fieldOf entry⟩)) := by
  rcases h with h | ⟨outer, inner, ho, hi, rfl⟩
  · have hpair : ¬ IsPair entry := by
      rintro ⟨outer, inner, -, -, rfl⟩
      exact h.ne (c := ':') (by simp) (by decide) rfl
    have htext : pairOf entry = ⟨none, entry⟩ := by rw [pairOf, ofText?_single.2 ⟨h, rfl⟩]; rfl
    rw [givenName_name h, fieldOf_name h]
    exact ⟨h, Or.inr ⟨hpair, rfl, htext⟩⟩
  · have htext : pairOf (outer ++ ":" ++ inner) = ⟨some outer, inner⟩ := by
      rw [pairOf, ofText?_pair.2 ⟨ho, hi, rfl⟩]; rfl
    rw [givenName_pair ho, fieldOf_pair ho]
    exact ⟨ho, Or.inl ⟨⟨outer, inner, ho, hi, rfl⟩, htext⟩⟩

namespace Planning

theorem namePairs_eq_map {entries : List String} {pairs : List NamePair} (h : namePairs entries = .ok pairs) :
    pairs = entries.map pairOf := by
  induction entries generalizing pairs with
  | nil => cases h; rfl
  | cons entry entries ih =>
    simp only [namePairs] at h
    split at h
    · rename_i first hfirst
      obtain ⟨rest, hrest, h⟩ := bind_ok h
      cases h
      rw [List.map_cons, ← ih hrest, pairOf, hfirst]
      rfl
    · cases h

end Planning

/-! ## Fields that leave a row -/

/-- The row without its fields that are null. -/
def withoutNulls (row : Row) : Row := row.filter (!·.2.isNull)

theorem not_isNull_iff {v : Value} : (!v.isNull) = true ↔ v ≠ .null := by cases v <;> simp [Value.isNull]

theorem get?_withoutNulls {row : Row} {name : String} (h : Dict.get? row name ≠ some .null) :
    Dict.get? (withoutNulls row) name = Dict.get? row name := by
  induction row with
  | nil => rfl
  | cons kv row ih =>
    obtain ⟨k, v⟩ := kv
    simp only [Dict.get?] at h
    rw [withoutNulls, List.filter_cons]
    by_cases hk : k = name
    · rw [if_pos hk] at h
      have hv : (!v.isNull) = true := not_isNull_iff.2 fun e => h (by rw [e])
      rw [if_pos hv, Dict.get?, Dict.get?, if_pos hk, if_pos hk]
    · rw [if_neg hk] at h
      rw [Dict.get?, if_neg hk, ← ih h]
      split
      · rw [Dict.get?, if_neg hk, withoutNulls]
      · rfl

namespace Projection

variable {p : Projection} {row : Row} {name : String} {v : Value}

/-- The selected fields in the row's order, under the names that they leave with. -/
def outgoing (p : Projection) (row : Row) : Row :=
  (row.filter (p.selects ·.1)).map fun kv => (p.nameOf kv.1, kv.2)

theorem mem_outgoing : (name, v) ∈ p.outgoing row ↔
    ∃ key, (key, v) ∈ row ∧ p.selects key = true ∧ p.nameOf key = name := by
  rw [outgoing, List.mem_map]
  constructor
  · rintro ⟨⟨key, w⟩, hmem, he⟩
    obtain ⟨hrow, hkey⟩ := List.mem_filter.1 hmem
    cases he
    exact ⟨key, hrow, hkey, rfl⟩
  · rintro ⟨key, hrow, hkey, rfl⟩
    exact ⟨(key, v), List.mem_filter.2 ⟨hrow, hkey⟩, rfl⟩

theorem outgoing_withoutNulls (p : Projection) (row : Row) :
    p.outgoing (withoutNulls row) = withoutNulls (p.outgoing row) := by
  rw [outgoing, outgoing, withoutNulls, withoutNulls, List.filter_map, List.filter_filter, List.filter_filter]
  congr 1
  exact List.filter_congr fun kv _ => Bool.and_comm _ _

theorem shown_iff {kv : String × Value} : (kv.1 != "" && !kv.2.isNull) = true ↔ kv.1 ≠ "" ∧ kv.2 ≠ .null := by
  rw [Bool.and_eq_true, bne_iff_ne, not_isNull_iff]

/-- Of the fields that leave under a name, the last counts. -/
theorem mem_apply_iff : (name, v) ∈ p.apply row ↔
    Dict.get? (p.outgoing row).reverse name = some v ∧ name ≠ "" ∧ v ≠ .null := by
  have hget : (name, v) ∈ Dict.ofList (p.outgoing row) ↔ Dict.get? (p.outgoing row).reverse name = some v := by
    rw [Dict.ofList, Dict.mem_iff_get? (Dict.nodup_overlay [] _ List.nodup_nil), Dict.get?_overlay, Dict.get?,
      Option.or_none]
  rw [apply, List.mem_filter, shown_iff]
  exact and_congr_left' hget

/-- Fields under different names keep their places. -/
theorem apply_of_distinct (h : (Dict.keys (p.outgoing row)).Nodup) :
    p.apply row = (p.outgoing row).filter fun kv => kv.1 != "" && !kv.2.isNull := by
  have hput : Dict.ofList (p.outgoing row) = p.outgoing row := Dict.overlay_of_nodup (d := []) h
  exact congrArg (List.filter _) hput

/-! ## Nulls -/

/-- The last field that leaves the row under the name is null. -/
def EndsNull (p : Projection) (row : Row) (name : String) : Prop :=
  ∃ before after, p.outgoing row = before ++ (name, .null) :: after ∧ name ∉ Dict.keys after

/-- A null that leaves the row last of all under its name takes the fields before it along. All other fields are left
as if the row had no nulls, and where the fields leave under different names, all fields are. -/
theorem nulls_apart (p : Projection) (row : Row) :
    (∀ name v, (name, v) ∈ p.apply row ↔ (name, v) ∈ p.apply (withoutNulls row) ∧ ¬ p.EndsNull row name) ∧
      (Dict.keys (p.apply row)).Nodup ∧ (Dict.keys (p.apply (withoutNulls row))).Nodup ∧
      ((Dict.keys (p.outgoing row)).Nodup → p.apply row = p.apply (withoutNulls row)) := by
  refine ⟨fun name v => ?_, nodup_apply p row, nodup_apply p _, fun hn => ?_⟩
  · have hreverse : (p.outgoing (withoutNulls row)).reverse = withoutNulls (p.outgoing row).reverse := by
      rw [outgoing_withoutNulls, withoutNulls, withoutNulls, List.filter_reverse]
    rw [mem_apply_iff, mem_apply_iff, EndsNull, ← Dict.get?_reverse_eq_some_iff, hreverse]
    by_cases hnull : Dict.get? (p.outgoing row).reverse name = some .null
    · rw [hnull]
      refine iff_of_false (fun h => ?_) fun h => h.2 rfl
      exact h.2.2 (Option.some.inj h.1).symm
    · rw [get?_withoutNulls hnull, and_iff_left hnull]
  · have hn' : (Dict.keys (p.outgoing (withoutNulls row))).Nodup := by
      rw [outgoing_withoutNulls]
      exact nodup_filter _ hn
    rw [apply_of_distinct hn, apply_of_distinct hn', outgoing_withoutNulls, withoutNulls, List.filter_filter]
    refine List.filter_congr fun kv _ => ?_
    rw [Bool.and_assoc, Bool.and_self]

/-- A row whose fields leave under different names, one of them null. -/
theorem nulls_apart_of_distinct :
    let p : Projection := ⟨.all, [⟨some "c", "a"⟩]⟩
    let row : Row := [("b", .null), ("a", .int 1)]
    (Dict.keys (p.outgoing row)).Nodup ∧ p.apply row = p.apply (withoutNulls row) := by
  intro p row
  have hn : (Dict.keys (p.outgoing row)).Nodup := by decide
  exact ⟨hn, (nulls_apart p row).2.2.2 hn⟩

/-- A null that is renamed onto another field leaves neither of them. -/
theorem null_takes_field :
    let node : Row := [("__rename__", .list [.str "a:b"])]
    let row : Row := [("a", .int 1), ("b", .null)]
    ∃ p, Planning.projection node [] = (.ok p, []) ∧ p.apply (withoutNulls row) = [("a", .int 1)] ∧ p.apply row = [] :=
  ⟨_, rfl, rfl, rfl⟩

/-! ## The entries of `__only__` -/

/-- The entry gives the other's field a name of its own. -/
def Overrides (other entry : String) : Prop := IsPair other ∧ fieldOf other = fieldOf entry

/-- The entry is the last `outer:inner` for its field, or there is none and it is the field's own name. -/
def Counts (entries : List String) (entry : String) : Prop :=
  ∃ before after, entries = before ++ entry :: after ∧ (∀ other ∈ after, ¬ Overrides other entry) ∧
    (IsPair entry ∨ ∀ other ∈ before, ¬ Overrides other entry)

/-- What the entries ask for: one field for each whose field the row has with a value other than null. -/
def asked (entries : List String) (row : Row) : Row :=
  entries.filterMap fun entry =>
    ((Dict.get? row (fieldOf entry)).filter (!·.isNull)).map fun v => (givenName entry, v)

theorem mem_asked {entries : List String} : (name, v) ∈ asked entries row ↔
    ∃ entry ∈ entries, givenName entry = name ∧ Dict.get? row (fieldOf entry) = some v ∧ v ≠ .null := by
  simp only [asked, List.mem_filterMap, Option.map_eq_some_iff, Option.filter_eq_some_iff, not_isNull_iff,
    Prod.mk.injEq]
  constructor
  · rintro ⟨entry, hentry, w, ⟨hw, hnull⟩, rfl, rfl⟩
    exact ⟨entry, hentry, rfl, hw, hnull⟩
  · rintro ⟨entry, hentry, rfl, hv, hnull⟩
    exact ⟨entry, hentry, v, ⟨hv, hnull⟩, rfl, rfl⟩

theorem keys_asked_sublist (entries : List String) (row : Row) :
    (Dict.keys (asked entries row)).Sublist (entries.map givenName) := by
  induction entries with
  | nil => exact List.Sublist.slnil
  | cons entry entries ih =>
    rw [asked, List.filterMap_cons]
    cases (Dict.get? row (fieldOf entry)).filter (!·.isNull) with
    | none => exact ih.cons _
    | some v => exact ih.cons_cons _

/-- Fields get their names from these entries, which have been accepted. -/
structure NamedBy (entries : List String) (p : Projection) : Prop where
  texts : ∀ entry ∈ entries, IsName entry ∨ IsPair entry
  renames : p.renames = (entries.map pairOf).filter (·.outer.isSome)

/-- And only the fields that the entries are about are selected. -/
structure KeptBy (entries : List String) (p : Projection) : Prop extends NamedBy entries p where
  selection : p.selection = .only (entries.map fieldOf)

section
variable {entries : List String}

theorem KeptBy.selects_iff (h : KeptBy entries p) {key : String} :
    p.selects key = true ↔ ∃ entry ∈ entries, fieldOf entry = key := by
  simp [selects, h.selection]

/-- The last entry with two names for a field names it, if there is one. -/
theorem NamedBy.nameOf_cases (h : NamedBy entries p) (key : String) :
    (∃ before entry after, entries = before ++ entry :: after ∧ IsPair entry ∧ fieldOf entry = key ∧
        (∀ other ∈ after, IsPair other → fieldOf other ≠ key) ∧ p.nameOf key = givenName entry) ∨
      (∀ entry ∈ entries, IsPair entry → fieldOf entry ≠ key) ∧ p.nameOf key = key := by
  let names : String → Bool := fun entry => (pairOf entry).outer.isSome && (pairOf entry).inner == key
  have hnames : ∀ entry ∈ entries, names entry = true ↔ IsPair entry ∧ fieldOf entry = key := by
    intro entry hentry
    rcases (pairOf_cases (h.texts entry hentry)).2 with ⟨hpair, he⟩ | ⟨hpair, -, he⟩ <;> simp [names, he, hpair]
  have hfind : p.renames.reverse.find? (·.inner == key) = (entries.reverse.find? names).map pairOf := by
    rw [h.renames, ← List.filter_reverse, ← List.map_reverse, List.find?_filter, List.find?_map]
    simp only [Function.comp_def, Bool.decide_and, Bool.decide_eq_true, names]
  rw [nameOf, hfind]
  cases hlast : entries.reverse.find? names with
  | none =>
    refine Or.inr ⟨fun entry hentry hpair hfield => ?_, rfl⟩
    exact List.find?_eq_none.1 hlast entry (List.mem_reverse.2 hentry) ((hnames entry hentry).2 ⟨hpair, hfield⟩)
  | some entry =>
    obtain ⟨hentry, after, before, hsplit, hafter⟩ := List.find?_eq_some_iff_append.1 hlast
    have hentries : entries = before.reverse ++ entry :: after.reverse := by
      rw [← List.reverse_reverse entries, hsplit]
      simp
    have hmem : entry ∈ entries := by simp [hentries]
    obtain ⟨hpair, hfield⟩ := (hnames entry hmem).1 hentry
    refine Or.inl ⟨_, entry, _, hentries, hpair, hfield, fun other hother hpair hfield => ?_, ?_⟩
    · have hmem' : other ∈ entries := by simp [hentries, List.mem_reverse.1 hother]
      have hno := hafter other (List.mem_reverse.1 hother)
      rw [(hnames other hmem').2 ⟨hpair, hfield⟩] at hno
      cases hno
    · rcases (pairOf_cases (h.texts entry hmem)).2 with ⟨-, he⟩ | ⟨hno, -⟩
      · simp [he]
      · exact absurd hpair hno

theorem split_cases {α : Type} {before before' after after' : List α} {x y : α}
    (h : before ++ x :: after = before' ++ y :: after') :
    x = y ∨ (x ∈ before' ∧ y ∈ after) ∨ (y ∈ before ∧ x ∈ after') := by
  rcases List.append_eq_append_iff.1 h with ⟨mid, rfl, hmid⟩ | ⟨mid, rfl, hmid⟩
  · cases mid with
    | nil => exact Or.inl (List.cons.inj hmid).1
    | cons z mid =>
      obtain ⟨rfl, rfl⟩ := List.cons.inj hmid
      exact Or.inr (Or.inl ⟨by simp, by simp⟩)
  · cases mid with
    | nil => exact Or.inl (List.cons.inj hmid).1.symm
    | cons z mid =>
      obtain ⟨rfl, rfl⟩ := List.cons.inj hmid
      exact Or.inr (Or.inr ⟨by simp, by simp⟩)

/-- Only one entry counts for a field. -/
theorem Counts.unique (htexts : ∀ entry ∈ entries, IsName entry ∨ IsPair entry) {entry other : String}
    (h : Counts entries entry) (h' : Counts entries other) (hfield : fieldOf entry = fieldOf other) :
    entry = other := by
  -- Of two that are left, the first is overruled by the second unless both are the field's own name.
  have heq : ∀ {x y : String} {before after : List String}, (∀ z ∈ after, ¬ Overrides z x) → y ∈ after →
      (IsPair y ∨ ∀ z ∈ before, ¬ Overrides z y) → x ∈ before → x ∈ entries → y ∈ entries → fieldOf x = fieldOf y →
      x = y := by
    intro x y before after hafter hy hbefore hx hxe hye hf
    have hy' : ¬ IsPair y := fun hp => hafter y hy ⟨hp, hf.symm⟩
    have hx' : ¬ IsPair x := fun hp => (hbefore.resolve_left hy') x hx ⟨hp, hf⟩
    rw [← fieldOf_name ((htexts x hxe).resolve_right hx'), hf, fieldOf_name ((htexts y hye).resolve_right hy')]
  obtain ⟨before, after, hsplit, hafter, hbefore⟩ := h
  obtain ⟨before', after', hsplit', hafter', hbefore'⟩ := h'
  have hmem : entry ∈ entries := by simp [hsplit]
  have hmem' : other ∈ entries := by simp [hsplit']
  rcases split_cases (hsplit.symm.trans hsplit') with he | ⟨hx, hy⟩ | ⟨hy, hx⟩
  · exact he
  · exact heq hafter hy hbefore' hx hmem hmem' hfield
  · exact (heq hafter' hx hbefore hy hmem' hmem hfield.symm).symm

/-- Each field that is selected has an entry that counts, and leaves under the name which that gives. -/
theorem NamedBy.exists_counts (h : NamedBy entries p) {entry : String} (hentry : entry ∈ entries) :
    ∃ other ∈ entries, Counts entries other ∧ fieldOf other = fieldOf entry ∧
      p.nameOf (fieldOf entry) = givenName other := by
  rcases h.nameOf_cases (fieldOf entry) with
    ⟨before, other, after, hsplit, hpair, hfield, hafter, hname⟩ | ⟨hno, hname⟩
  · refine ⟨other, by simp [hsplit], ⟨before, after, hsplit, fun z hz ho => ?_, Or.inl hpair⟩, hfield, hname⟩
    exact hafter z hz ho.1 (ho.2.trans hfield)
  · have hnone : ∀ z ∈ entries, ¬ Overrides z entry := fun z hz ho => hno z hz ho.1 ho.2
    obtain ⟨before, after, hsplit⟩ := List.append_of_mem hentry
    refine ⟨entry, hentry, ⟨before, after, hsplit, ?_, Or.inr ?_⟩, rfl, hname.trans ?_⟩
    · exact fun z hz => hnone z (by simp [hsplit, hz])
    · exact fun z hz => hnone z (by simp [hsplit, hz])
    · rcases (pairOf_cases (h.texts entry hentry)).2 with ⟨hpair, -⟩ | ⟨-, hgiven, -⟩
      · exact absurd rfl (hno entry hentry hpair)
      · exact hgiven.symm

/-- The fields that have an entry leave under names that the entries give out, all different if those are. -/
theorem KeptBy.nodup_outgoing (h : KeptBy entries p) (hnames : (entries.map givenName).Nodup)
    (hrow : (Dict.keys row).Nodup) : (Dict.keys (p.outgoing row)).Nodup := by
  have hkeys : Dict.keys (p.outgoing row) = ((Dict.keys row).filter p.selects).map p.nameOf := by
    rw [Dict.keys, Dict.keys, outgoing, List.filter_map, List.map_map, List.map_map]
    rfl
  rw [hkeys]
  refine List.Nodup.map_on (fun key hkey key' hkey' he => ?_) (hrow.filter _)
  have hentry : ∀ k ∈ (Dict.keys row).filter p.selects, ∃ entry ∈ entries, fieldOf entry = k ∧
      p.nameOf k = givenName entry := by
    intro k hk
    obtain ⟨entry, hentry, rfl⟩ := h.selects_iff.1 (List.mem_filter.1 hk).2
    obtain ⟨other, hother, -, hfield, hname⟩ := h.exists_counts hentry
    exact ⟨other, hother, hfield, hname⟩
  obtain ⟨entry, hmem, rfl, hname⟩ := hentry key hkey
  obtain ⟨entry', hmem', rfl, hname'⟩ := hentry key' hkey'
  rw [List.inj_on_of_nodup_map hnames hmem hmem' (by rw [← hname, he, hname'])]

/-- A field is left for each entry that counts and asks for one, and no other. -/
theorem KeptBy.mem_apply (h : KeptBy entries p) (hnames : (entries.map givenName).Nodup)
    (hrow : (Dict.keys row).Nodup) : (name, v) ∈ p.apply row ↔ ∃ entry ∈ entries, Counts entries entry ∧
      givenName entry = name ∧ Dict.get? row (fieldOf entry) = some v ∧ v ≠ .null := by
  have hreverse : (Dict.keys (p.outgoing row).reverse).Nodup := by
    rw [Dict.keys_reverse, List.nodup_reverse]
    exact h.nodup_outgoing hnames hrow
  rw [mem_apply_iff, ← Dict.mem_iff_get? hreverse, List.mem_reverse, mem_outgoing]
  constructor
  · rintro ⟨⟨key, hfield, hkey, hname⟩, -, hv⟩
    obtain ⟨entry, hentry, rfl⟩ := h.selects_iff.1 hkey
    obtain ⟨other, hother, hcounts, hf, hgiven⟩ := h.exists_counts hentry
    exact ⟨other, hother, hcounts, hgiven.symm.trans hname, hf ▸ (Dict.mem_iff_get? hrow).1 hfield, hv⟩
  · rintro ⟨entry, hentry, hcounts, rfl, hget, hv⟩
    obtain ⟨other, hother, hcounts', hf, hgiven⟩ := h.exists_counts hentry
    have he : entry = other := hcounts.unique h.texts hcounts' hf.symm
    refine ⟨⟨fieldOf entry, Dict.mem_of_get? hget, ?_, hgiven.trans (by rw [he])⟩, ?_, hv⟩
    · exact h.selects_iff.2 ⟨entry, hentry, rfl⟩
    · exact (pairOf_cases (h.texts entry hentry)).1.ne_empty

end

end Projection

namespace Planning

open Projection

/-- An accepted `__only__` selects the fields of its entries and renames by its pairs. -/
theorem projection_only {node : Row} {entries : List String} {p : Projection} {c c' : Cache}
    (hentries : Dict.get? node Keyword.only = some (.list (entries.map .str)))
    (h : projection node c = (.ok p, c')) : KeptBy entries p := by
  obtain ⟨entries', pairs, he, hpairs, hp⟩ := (at_some hentries).1 ((projection_returns node).ok h)
  have hsame : entries = entries' :=
    (List.map_inj_right fun _ _ => Value.str.inj).1 (Value.list.inj he)
  subst hsame
  have htexts := namePairs_ok.1 ⟨pairs, hpairs⟩
  have hinner : (entries.map pairOf).map (·.inner) = entries.map fieldOf := by
    rw [List.map_map]
    refine List.map_congr_left fun entry hentry => ?_
    rcases (pairOf_cases (htexts entry hentry)).2 with ⟨-, he⟩ | ⟨-, -, he⟩ <;> simp [he]
  subst hp
  rw [namePairs_eq_map hpairs, hinner]
  exact ⟨⟨htexts, rfl⟩, rfl⟩

/-- What an accepted `__only__` with different names makes of a row: one field for each entry that counts and whose
field is there and not null, under the name that the entry gives out, and nothing else. If no two entries are about
the same field, each of them counts. -/
theorem only_yields {node row : Row} {entries : List String} {p : Projection} {c c' : Cache}
    (hentries : Dict.get? node Keyword.only = some (.list (entries.map .str)))
    (h : projection node c = (.ok p, c')) (hnames : (entries.map givenName).Nodup) (hrow : (Dict.keys row).Nodup) :
    ∃ kept : List String, kept.Sublist entries ∧ (∀ entry ∈ entries, entry ∈ kept ↔ Counts entries entry) ∧
      (p.apply row).Perm (asked kept row) ∧ ((entries.map fieldOf).Nodup → kept = entries) := by
  classical
  have hp := projection_only hentries h
  let kept := entries.filter fun entry => decide (Counts entries entry)
  have hkept : ∀ entry, entry ∈ kept ↔ entry ∈ entries ∧ Counts entries entry := fun entry => by simp [kept]
  refine ⟨kept, List.filter_sublist, fun entry hentry => (hkept entry).trans (and_iff_right hentry), ?_,
    fun hfields => ?_⟩
  · have hasked : (Dict.keys (asked kept row)).Nodup :=
      (hnames.sublist (List.filter_sublist.map _)).sublist (keys_asked_sublist kept row)
    refine (List.perm_ext_iff_of_nodup (List.Nodup.of_map _ (nodup_apply p row)) (List.Nodup.of_map _ hasked)).2
      fun ⟨name, v⟩ => ?_
    rw [hp.mem_apply hnames hrow, mem_asked]
    simp only [hkept, and_assoc]
  · refine List.filter_eq_self.2 fun entry hentry => decide_eq_true ?_
    obtain ⟨other, hother, hcounts, hf, -⟩ := hp.exists_counts hentry
    rwa [← List.inj_on_of_nodup_map hfields hother hentry hf]

/-- Two names that change places, and a second name for one of the fields. -/
theorem only_yields_swapped :
    let entries := ["b:a", "a:b", "c:a"]
    let node : Row := [("__only__", .list (entries.map .str))]
    let row : Row := [("a", .int 1), ("b", .int 2), ("c", .int 3)]
    ∃ p kept, projection node [] = (.ok p, []) ∧ p.apply row = [("c", .int 1), ("a", .int 2)] ∧
      kept.Sublist entries ∧ (∀ entry ∈ entries, entry ∈ kept ↔ Counts entries entry) ∧
      (p.apply row).Perm (asked kept row) := by
  intro entries node row
  obtain ⟨p, hp, hrow⟩ : ∃ p, projection node [] = (.ok p, []) ∧ p.apply row = [("c", .int 1), ("a", .int 2)] :=
    ⟨_, rfl, rfl⟩
  have hentries : Dict.get? node Keyword.only = some (.list (entries.map .str)) := rfl
  have hkeys : (Dict.keys row).Nodup := by decide
  obtain ⟨kept, hsub, hkept, hperm, -⟩ := only_yields hentries hp (by decide) hkeys
  exact ⟨p, kept, hp, hrow, hsub, hkept, hperm⟩

/-- Of two names for one field the first is lost. -/
theorem first_name_lost :
    let entries := ["a:x", "b:x"]
    let node : Row := [("__only__", .list (entries.map .str))]
    let row : Row := [("x", .int 1)]
    (entries.map givenName).Nodup ∧ asked entries row = [("a", .int 1), ("b", .int 1)] ∧
      ∃ p, projection node [] = (.ok p, []) ∧ p.apply row = [("b", .int 1)] ∧
        ¬ (p.apply row).Perm (asked entries row) :=
  ⟨by decide, rfl, _, rfl, rfl, fun h => absurd h.length_eq (by decide)⟩

end Planning

end MockSchema
