/-
  MockSchema.Proofs.WrittenLine — JSON text has no control characters, and so no line feed in it: a value takes one
  line, however deep it is and whatever its strings hold (`write_printable`).
-/

import MockSchema.Json.Writer

namespace MockSchema

/-- Without control characters. -/
def Printable (cs : List Char) : Prop := ∀ c ∈ cs, 0x20 ≤ c.toNat

instance (cs : List Char) : Decidable (Printable cs) :=
  decidable_of_iff (cs.all (0x20 ≤ ·.toNat) = true) (by simp [Printable])

namespace Printable

variable {cs ds : List Char}

theorem nil : Printable [] := nofun

theorem append (h : Printable cs) (h' : Printable ds) : Printable (cs ++ ds) := List.forall_mem_append.2 ⟨h, h'⟩

theorem text {s t : String} (h : Printable s.toList) (h' : Printable t.toList) : Printable (s ++ t).toList := by
  rw [String.toList_append]
  exact h.append h'

theorem sublist (h : Printable ds) (hs : cs.Sublist ds) : Printable cs := fun c hc => h c (hs.subset hc)

theorem ofList (h : Printable cs) : Printable (String.ofList cs).toList := by
  rw [String.toList_ofList]
  exact h

theorem digits (n : Nat) : Printable (Nat.toDigits 10 n) := by
  intro c hc
  have hd := Nat.isDigit_of_mem_toDigits (by decide) (by decide) hc
  simp only [Char.isDigit, Bool.and_eq_true, decide_eq_true_eq] at hd
  have : 48 ≤ c.toNat := hd.1
  omega

theorem nat (n : Nat) : Printable (toString n).toList := by
  rw [Nat.toString_eq_ofList_toDigits]
  exact (digits n).ofList

theorem int (n : Int) : Printable (toString n).toList := by
  cases n with
  | ofNat n => exact nat n
  | negSucc n => exact text (by decide) (nat (n + 1))

theorem intercalate {sep : String} {texts : List String} (hsep : Printable sep.toList)
    (h : ∀ t ∈ texts, Printable t.toList) : Printable (sep.intercalate texts).toList := by
  rw [String.toList_intercalate]
  induction texts with
  | nil => exact nil
  | cons t texts ih =>
    have ht : Printable t.toList := h t List.mem_cons_self
    have hrest := ih fun u hu => h u (List.mem_cons_of_mem _ hu)
    cases texts with
    | nil =>
      rw [List.map_singleton, List.intercalate_singleton]
      exact ht
    | cons u texts =>
      simp only [List.map_cons] at hrest ⊢
      rw [List.intercalate_cons_cons]
      exact (ht.append hsep).append hrest

end Printable

/-! ## Floats -/

namespace Decimal

theorem printable_zeros (n : Nat) : Printable (zeros n).toList := by
  refine Printable.ofList fun c hc => ?_
  rw [List.eq_of_mem_replicate hc]
  decide

theorem printable_positional (d : Digits) : Printable (positional ".0" d).toList := by
  have hds := Printable.digits d.digits
  unfold positional
  dsimp only
  split
  · exact (hds.ofList.text (printable_zeros _)).text (by decide)
  · split
    · exact ((hds.sublist (List.take_sublist ..)).ofList.text (by decide)).text
        (hds.sublist (List.drop_sublist ..)).ofList
    · exact (Printable.text (by decide) (printable_zeros _)).text hds.ofList

theorem printable_scientific (d : Digits) : Printable (scientific d).toList := by
  have hds := Printable.digits d.digits
  unfold scientific
  refine Printable.text (Printable.text (Printable.text ?_ (by decide)) ?_) (Printable.nat _)
  · split
    · exact hds.ofList
    · exact ((hds.sublist (List.take_sublist ..)).ofList.text (by decide)).text
        (hds.sublist (List.drop_sublist ..)).ofList
  · split <;> decide

theorem printable_signed {negative : Bool} {s : String} (h : Printable s.toList) :
    Printable (signed negative s).toList := by
  unfold signed
  split
  · exact Printable.text (by decide) h
  · exact h

theorem printable_valueText (x : Float) : Printable (valueText x).toList := by
  unfold valueText
  split
  · decide
  · exact printable_signed (by decide)
  · refine printable_signed ?_
    split
    · exact printable_positional _
    · exact printable_scientific _

end Decimal

/-! ## Values -/

namespace Json

theorem printable_hexDigit (n : Nat) : 0x20 ≤ (hexDigit n).toNat := by
  have hn : n % 16 < 16 := Nat.mod_lt _ (by decide)
  have hall : ∀ m < 16, 0x20 ≤ (Nat.digitChar m).toNat := by decide
  exact hall _ hn

theorem printable_escape (c : Char) : Printable (escape c) := by
  unfold escape
  split
  any_goals decide
  split
  · intro d hd
    simp only [List.mem_cons, List.not_mem_nil, or_false] at hd
    rcases hd with rfl | rfl | rfl | rfl | rfl | rfl
    any_goals decide
    · exact printable_hexDigit _
    · exact printable_hexDigit _
  · rename_i hc
    intro d hd
    rw [List.mem_singleton.1 hd]
    omega

theorem printable_quote (s : String) : Printable (quote s).toList := by
  refine Printable.text (Printable.text (by decide) (Printable.ofList fun c hc => ?_)) (by decide)
  obtain ⟨d, _, hd⟩ := List.mem_flatMap.1 hc
  exact printable_escape d c hd

mutual

theorem write_printable (v : Value) : Printable (write v).toList := by
  cases v with
  | null => decide
  | bool b => cases b <;> decide
  | int n => exact Printable.int n
  | float x => exact Decimal.printable_valueText x
  | str s => exact printable_quote s
  | list vs =>
    have hitems : Printable (",".intercalate (writeAll vs)).toList :=
      Printable.intercalate (by decide) (writeAll_printable vs)
    exact (Printable.text (by decide) hitems).text (by decide)
  | object fields =>
    have hentries : Printable (",".intercalate (writeFields fields)).toList :=
      Printable.intercalate (by decide) (writeFields_printable fields)
    exact (Printable.text (by decide) hentries).text (by decide)

theorem writeAll_printable (vs : List Value) : ∀ t ∈ writeAll vs, Printable t.toList := by
  cases vs with
  | nil => nofun
  | cons v vs => exact List.forall_mem_cons.2 ⟨write_printable v, writeAll_printable vs⟩

theorem writeFields_printable (fields : List (String × Value)) : ∀ t ∈ writeFields fields, Printable t.toList := by
  cases fields with
  | nil => nofun
  | cons kv fields =>
    obtain ⟨k, v⟩ := kv
    exact List.forall_mem_cons.2
      ⟨(Printable.text (printable_quote k) (by decide)).text (write_printable v), writeFields_printable fields⟩

end

end Json

end MockSchema
