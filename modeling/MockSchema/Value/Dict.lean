/-
  MockSchema.Value.Dict — dictionaries that keep the order in which their keys were first
  put. Putting a key again replaces its value where the key stands.

  Proved: `get?_put`, `keys_put` and `nodup_put`, so a dictionary built by `put` alone
  names every key once; in such a one an entry is what its key looks up (`mem_iff_get?`). Of
  entries put one after another, the last of a key counts (`get?_overlay`).
-/

namespace MockSchema

abbrev Dict (α : Type) := List (String × α)

namespace Dict

variable {α β : Type}

def get? : Dict α → String → Option α
  | [], _ => none
  | (k, v) :: d, key => if k = key then some v else get? d key

def put : Dict α → String → α → Dict α
  | [], key, v => [(key, v)]
  | (k, w) :: d, key, v => if k = key then (k, v) :: d else (k, w) :: put d key v

def keys (d : Dict α) : List String := d.map (·.1)

def has (d : Dict α) (key : String) : Bool := (get? d key).isSome

/-- Put every entry of `e` into `d`, in `e`'s order. -/
def overlay (d e : Dict α) : Dict α := e.foldl (fun d kv => put d kv.1 kv.2) d

def ofList (kvs : List (String × α)) : Dict α := overlay [] kvs

def mapValues (f : α → β) (d : Dict α) : Dict β := d.map fun kv => (kv.1, f kv.2)

/-! ## Look-up and order -/

theorem get?_put (d : Dict α) (key : String) (v : α) (k : String) :
    get? (put d key v) k = if key = k then some v else get? d k := by
  induction d with
  | nil => rfl
  | cons kv d ih =>
    obtain ⟨k', w⟩ := kv
    simp only [put]
    by_cases h : k' = key
    · subst h; simp only [if_true, get?]; split <;> rfl
    · rw [if_neg h]
      simp only [get?, ih]
      by_cases h' : k' = k
      · subst h'; simp [Ne.symm h]
      · simp [h']

theorem mem_keys_of_get? {d : Dict α} {k : String} {v : α} (h : get? d k = some v) : k ∈ keys d := by
  induction d with
  | nil => cases h
  | cons kv d ih =>
    obtain ⟨k', w⟩ := kv
    simp only [get?] at h
    simp only [keys, List.map_cons, List.mem_cons]
    split at h
    · rename_i e; exact Or.inl e.symm
    · exact Or.inr (ih h)

theorem mem_of_get? {d : Dict α} {k : String} {v : α} (h : get? d k = some v) : (k, v) ∈ d := by
  induction d with
  | nil => cases h
  | cons kv d ih =>
    obtain ⟨k', w⟩ := kv
    simp only [get?] at h
    split at h
    · rename_i e; cases h; rw [e]; exact List.mem_cons_self
    · exact List.mem_cons_of_mem _ (ih h)

theorem mem_iff_get? {d : Dict α} (hd : (keys d).Nodup) {k : String} {v : α} : (k, v) ∈ d ↔ get? d k = some v := by
  refine ⟨fun h => ?_, mem_of_get?⟩
  induction d with
  | nil => cases h
  | cons kv d ih =>
    obtain ⟨k', w⟩ := kv
    simp only [keys, List.map_cons, List.nodup_cons] at hd
    simp only [get?]
    rcases List.mem_cons.mp h with h | h
    · cases h; rw [if_pos rfl]
    · have hne : k' ≠ k := fun e => hd.1 (e ▸ List.mem_map.mpr ⟨(k, v), h, rfl⟩)
      rw [if_neg hne, ih hd.2 h]

theorem mem_keys_iff {d : Dict α} {k : String} : k ∈ keys d ↔ ∃ v, get? d k = some v := by
  refine ⟨fun h => ?_, fun ⟨v, h⟩ => mem_keys_of_get? h⟩
  induction d with
  | nil => cases h
  | cons kv d ih =>
    obtain ⟨k', w⟩ := kv
    simp only [get?]
    split
    · exact ⟨w, rfl⟩
    · rename_i hne
      rcases List.mem_cons.mp h with h | h
      · exact absurd h.symm hne
      · exact ih h

theorem get?_eq_none_iff {d : Dict α} {key : String} : get? d key = none ↔ key ∉ keys d := by
  rw [mem_keys_iff, Option.eq_none_iff_forall_ne_some, not_exists]

theorem get?_append (d e : Dict α) (key : String) : get? (d ++ e) key = (get? d key).or (get? e key) := by
  induction d with
  | nil => rfl
  | cons kv d ih =>
    obtain ⟨k, w⟩ := kv
    simp only [List.cons_append, get?, ih]
    split <;> rfl

/-- What is looked up is the first entry of its key. -/
theorem get?_eq_some_iff {d : Dict α} {key : String} {v : α} :
    get? d key = some v ↔ ∃ before after, d = before ++ (key, v) :: after ∧ key ∉ keys before := by
  constructor
  · intro h
    induction d with
    | nil => cases h
    | cons kv d ih =>
      obtain ⟨k, w⟩ := kv
      simp only [get?] at h
      split at h
      · rename_i hk
        cases h
        exact ⟨[], d, by rw [hk]; rfl, List.not_mem_nil⟩
      · rename_i hk
        obtain ⟨before, after, rfl, hbefore⟩ := ih h
        refine ⟨(k, w) :: before, after, rfl, fun hmem => ?_⟩
        rcases List.mem_cons.1 hmem with e | hmem
        · exact hk e.symm
        · exact hbefore hmem
  · rintro ⟨before, after, rfl, hbefore⟩
    rw [get?_append, get?_eq_none_iff.2 hbefore, Option.none_or, get?, if_pos rfl]

theorem keys_reverse (d : Dict α) : keys d.reverse = (keys d).reverse := List.map_reverse

theorem get?_reverse_eq_some_iff {d : Dict α} {key : String} {v : α} :
    get? d.reverse key = some v ↔ ∃ before after, d = before ++ (key, v) :: after ∧ key ∉ keys after := by
  rw [get?_eq_some_iff]
  constructor
  · rintro ⟨before, after, h, hbefore⟩
    refine ⟨after.reverse, before.reverse, ?_, by rwa [keys_reverse, List.mem_reverse]⟩
    rw [← List.reverse_reverse d, h]
    simp
  · rintro ⟨before, after, rfl, hafter⟩
    exact ⟨after.reverse, before.reverse, by simp, by rwa [keys_reverse, List.mem_reverse]⟩

theorem get?_filter (d : Dict α) (key k : String) :
    get? (d.filter (·.1 != key)) k = if k = key then none else get? d k := by
  induction d with
  | nil => simp [get?]
  | cons kv d ih =>
    obtain ⟨k', w⟩ := kv
    by_cases h : k' = key
    · subst h
      simp only [List.filter_cons, bne_self_eq_false, Bool.false_eq_true, if_false, ih, get?]
      by_cases hk : k = k'
      · rw [if_pos hk, if_pos hk]
      · rw [if_neg hk, if_neg hk, if_neg (Ne.symm hk)]
    · simp only [List.filter_cons, bne_iff_ne.mpr h, if_true, get?, ih]
      by_cases hk : k' = k
      · subst hk; rw [if_pos rfl, if_neg h, if_pos rfl]
      · rw [if_neg hk, if_neg hk]

theorem keys_put (d : Dict α) (key : String) (v : α) :
    keys (put d key v) = if key ∈ keys d then keys d else keys d ++ [key] := by
  induction d with
  | nil => simp [put, keys]
  | cons kv d ih =>
    obtain ⟨k', w⟩ := kv
    simp only [keys, List.map_cons, List.mem_cons] at ih ⊢
    simp only [put]
    by_cases h : k' = key
    · subst h; simp
    · rw [if_neg h, List.map_cons, ih]
      have hne : ¬ key = k' := fun e => h e.symm
      simp only [hne, false_or]
      split <;> rename_i hm <;> simp [hm]

theorem put_of_not_mem {d : Dict α} {key : String} (v : α) (h : key ∉ keys d) : put d key v = d ++ [(key, v)] := by
  induction d with
  | nil => rfl
  | cons kv d ih =>
    obtain ⟨k, w⟩ := kv
    simp only [keys, List.map_cons, List.mem_cons, not_or] at h
    rw [put, if_neg (Ne.symm h.1), ih h.2, List.cons_append]

theorem nodup_put (d : Dict α) (key : String) (v : α) (h : (keys d).Nodup) :
    (keys (put d key v)).Nodup := by
  rw [keys_put]
  split
  · exact h
  · rename_i hn
    rw [List.nodup_append]
    refine ⟨h, by simp, ?_⟩
    intro a ha b hb
    simp only [List.mem_singleton] at hb
    subst hb
    intro e
    subst e
    exact hn ha

/-! ## Entries -/

theorem mem_put {d : Dict α} {key : String} {v : α} {kv : String × α} (h : kv ∈ put d key v) :
    kv = (key, v) ∨ kv ∈ d := by
  induction d with
  | nil => exact Or.inl (List.mem_singleton.mp h)
  | cons kv' d ih =>
    obtain ⟨k, w⟩ := kv'
    simp only [put] at h
    split at h
    · rename_i hk
      subst hk
      rcases List.mem_cons.mp h with h | h
      · exact Or.inl h
      · exact Or.inr (List.mem_cons_of_mem _ h)
    · rcases List.mem_cons.mp h with h | h
      · exact Or.inr (List.mem_cons.mpr (Or.inl h))
      · rcases ih h with h | h
        · exact Or.inl h
        · exact Or.inr (List.mem_cons_of_mem _ h)

theorem mem_overlay {d e : Dict α} {kv : String × α} (h : kv ∈ overlay d e) : kv ∈ d ∨ kv ∈ e := by
  induction e generalizing d with
  | nil => exact Or.inl h
  | cons kv' e ih =>
    rcases ih h with h | h
    · rcases mem_put h with h | h
      · exact Or.inr (List.mem_cons.mpr (Or.inl h))
      · exact Or.inl h
    · exact Or.inr (List.mem_cons_of_mem _ h)

theorem nodup_overlay (d e : Dict α) (h : (keys d).Nodup) : (keys (overlay d e)).Nodup := by
  induction e generalizing d with
  | nil => exact h
  | cons kv e ih => exact ih _ (nodup_put d kv.1 kv.2 h)

/-- What has every key once is built by putting its entries in order. -/
theorem overlay_of_nodup {d e : Dict α} (h : (keys (d ++ e)).Nodup) : overlay d e = d ++ e := by
  induction e generalizing d with
  | nil => exact (List.append_nil d).symm
  | cons kv e ih =>
    have hkey : kv.1 ∉ keys d := by
      simp only [keys, List.map_append, List.map_cons] at h
      exact fun hmem => (List.nodup_append.1 h).2.2 _ hmem _ List.mem_cons_self rfl
    show overlay (put d kv.1 kv.2) e = _
    rw [put_of_not_mem _ hkey, ih (by rwa [List.append_assoc]), List.append_assoc]
    rfl

/-! ## Entries put one after another -/

/-- The last entry that is put under a key counts. -/
theorem get?_overlay (d e : Dict α) (key : String) :
    get? (overlay d e) key = (get? e.reverse key).or (get? d key) := by
  induction e generalizing d with
  | nil => rfl
  | cons kv e ih =>
    obtain ⟨k, v⟩ := kv
    have hput : get? (put d k v) key = (get? [(k, v)] key).or (get? d key) := by
      rw [get?_put, get?, get?]
      split <;> rfl
    rw [List.reverse_cons, get?_append, Option.or_assoc, ← hput]
    exact ih (put d k v)

theorem get?_overlay_of_not_mem (d : Dict α) {e : Dict α} {key : String} (h : key ∉ keys e) :
    get? (overlay d e) key = get? d key := by
  rw [get?_overlay, get?_eq_none_iff.2 (by rwa [keys_reverse, List.mem_reverse]), Option.none_or]

theorem keys_prefix_overlay (d e : Dict α) : keys d <+: keys (overlay d e) := by
  induction e generalizing d with
  | nil => exact List.prefix_rfl
  | cons kv e ih =>
    have hput : keys d <+: keys (put d kv.1 kv.2) := by
      rw [keys_put]
      split
      · exact List.prefix_rfl
      · exact List.prefix_append _ _
    exact hput.trans (ih (put d kv.1 kv.2))

end Dict

end MockSchema
