/-
  MockSchema.Proofs.Proper — values whose objects have each of their keys once.

  An object is a list of entries, so it could have a key twice. Those that are read from a text do not
  (`Json.read_proper`): the last value of a key takes the place of the ones before.
-/

import MockSchema.Json.Reader
import MockSchema.Proofs.Runs

namespace MockSchema

inductive Value.Proper : Value → Prop
  | null : Proper .null
  | bool (b : Bool) : Proper (.bool b)
  | int (n : Int) : Proper (.int n)
  | float (x : Float) : Proper (.float x)
  | str (s : String) : Proper (.str s)
  | list {xs : List Value} : (∀ x ∈ xs, Proper x) → Proper (.list xs)
  | object {fields : Dict Value} :
      (Dict.keys fields).Nodup → (∀ kv ∈ fields, Proper kv.2) → Proper (.object fields)

section
variable {fields : Dict Value}

theorem Value.Proper.nodup (h : Proper (.object fields)) : (Dict.keys fields).Nodup := by
  cases h with
  | object hn _ => exact hn

theorem Value.Proper.field (h : Proper (.object fields)) {key : String} {v : Value}
    (hv : Dict.get? fields key = some v) : v.Proper := by
  cases h with
  | object _ hf => exact hf _ (Dict.mem_of_get? hv)

theorem Value.proper_ofList {kvs : List (String × Value)} (h : ∀ kv ∈ kvs, kv.2.Proper) :
    Proper (.object (Dict.ofList kvs)) := by
  refine .object (Dict.nodup_overlay [] kvs .nil) fun kv hkv => ?_
  rcases Dict.mem_overlay hkv with hkv | hkv
  · cases hkv
  · exact h kv hkv

end

/-! ## Reading -/

namespace Json

/-- Whatever the reader reads is proper. -/
def ReadsProper (item : Reader Value) : Prop := ∀ cs v rest, item cs = some (v, rest) → v.Proper

variable {item : Reader Value}

theorem elements_proper (h : ReadsProper item) (n : Nat) {cs rest : List Char} {vs : List Value}
    (he : elements item n cs = some (vs, rest)) : ∀ v ∈ vs, v.Proper := by
  induction n generalizing cs rest vs with
  | zero => cases he
  | succ n ih =>
    obtain ⟨⟨v, r⟩, hv, he⟩ := Option.bind_eq_some_iff.1 he
    have hp := h _ _ _ hv
    dsimp only at he
    split at he
    · obtain ⟨⟨ws, r'⟩, hws, he⟩ := Option.bind_eq_some_iff.1 he
      cases he
      exact List.forall_mem_cons.2 ⟨hp, ih hws⟩
    · cases he
      exact List.forall_mem_singleton.2 hp
    · cases he

theorem entries_proper {κ : Type} {key : Reader κ} (h : ReadsProper item) (n : Nat) {cs rest : List Char}
    {kvs : List (κ × Value)} (he : entries key item n cs = some (kvs, rest)) : ∀ kv ∈ kvs, kv.2.Proper := by
  induction n generalizing cs rest kvs with
  | zero => cases he
  | succ n ih =>
    obtain ⟨⟨k, r⟩, _, he⟩ := Option.bind_eq_some_iff.1 he
    obtain ⟨r, _, he⟩ := Option.bind_eq_some_iff.1 he
    obtain ⟨⟨v, r⟩, hv, he⟩ := Option.bind_eq_some_iff.1 he
    have hp := h _ _ _ hv
    dsimp only at he
    split at he
    · obtain ⟨⟨ws, r'⟩, hws, he⟩ := Option.bind_eq_some_iff.1 he
      cases he
      exact List.forall_mem_cons.2 ⟨hp, ih hws⟩
    · cases he
      exact List.forall_mem_singleton.2 hp
    · cases he

theorem array_proper (h : ReadsProper item) (size : Nat) : ReadsProper (array size item) := by
  intro cs v rest hv
  unfold array at hv
  split at hv
  · cases hv; exact .list nofun
  · obtain ⟨⟨vs, r⟩, hvs, hv⟩ := Option.map_eq_some_iff.1 hv
    cases hv
    exact .list (elements_proper h size hvs)

theorem object_proper (h : ReadsProper item) (size : Nat) : ReadsProper (object size item) := by
  intro cs v rest hv
  unfold object at hv
  split at hv
  · cases hv; exact .object .nil nofun
  · obtain ⟨⟨kvs, r⟩, hkvs, hv⟩ := Option.map_eq_some_iff.1 hv
    cases hv
    exact Value.proper_ofList (entries_proper h size hkvs)

theorem number_proper : ReadsProper number := by
  intro cs v rest hv
  unfold number at hv
  dsimp only at hv
  split at hv
  all_goals
    obtain ⟨⟨whole, r⟩, _, hv⟩ := Option.bind_eq_some_iff.1 hv
    obtain ⟨⟨fraction, r⟩, _, hv⟩ := Option.bind_eq_some_iff.1 hv
    obtain ⟨⟨exponent, r⟩, _, hv⟩ := Option.bind_eq_some_iff.1 hv
    dsimp only at hv
    split at hv
    · cases hv; exact .int _
    · split at hv
      · cases hv; exact .int _
      · obtain ⟨x, _, hv⟩ := Option.bind_eq_some_iff.1 hv
        cases hv; exact .float _

theorem one_proper (h : ReadsProper item) (size : Nat) : ReadsProper (one size item) := by
  intro cs v rest hv
  unfold one at hv
  split at hv
  · exact array_proper h size _ _ _ hv
  · exact object_proper h size _ _ _ hv
  · obtain ⟨⟨s, r⟩, _, hv⟩ := Option.map_eq_some_iff.1 hv
    cases hv; exact .str s
  · obtain ⟨r, _, hv⟩ := Option.map_eq_some_iff.1 hv
    cases hv; exact .null
  · obtain ⟨r, _, hv⟩ := Option.map_eq_some_iff.1 hv
    cases hv; exact .bool true
  · obtain ⟨r, _, hv⟩ := Option.map_eq_some_iff.1 hv
    cases hv; exact .bool false
  · exact number_proper _ _ _ hv

theorem value_proper (size : Nat) (levels : Nat) : ReadsProper (value size levels) := by
  induction levels with
  | zero =>
    intro cs v rest hv
    unfold value at hv
    split at hv
    · cases hv
    · cases hv
    · exact one_proper (fun _ _ _ h => by cases h) size _ _ _ hv
  | succ n ih => exact one_proper ih size

/-- In what is read from a text every object has each of its keys once. -/
theorem read_proper {s : String} {v : Value} (h : read s = some v) : v.Proper := by
  unfold read readWithin at h
  dsimp only at h
  split at h
  · rename_i w rest hw
    split at h
    · cases h; exact value_proper _ _ _ _ _ hw
    · cases h
  · cases h

end Json

end MockSchema
