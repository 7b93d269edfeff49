/-
  MockSchema.Proofs.Siblings — the elements of a list do not take levels from each other.

  A text that is accepted between brackets is read with one level less than the whole (`reads_of_bracketed`): what the
  reader of the brackets returned for it is what it is read as on its own, by the grammar. With these levels it is
  read wherever its tokens stand (`reads_of_ok`), and they stand between commas as they do alone
  (`scans_of_tokens`). So a list of such texts is accepted, however long it is (`parse_siblings`).
-/

import MockSchema.Proofs.Juxtaposition

namespace MockSchema

open Grammar

/-! ## The tokens of a part -/

theorem Grammar.spelled_append (ts rest : List Token) : Spelled (ts.map (·.kind)) (ts ++ rest) rest := by
  induction ts with
  | nil => exact .nil
  | cons t ts ih => exact .cons ih

namespace Scan

/-- The kinds of the tokens of a text, but for its end. -/
def kindsOf (s : String) : List Token.Kind :=
  match tokens s with
  | .ok ts => ts.dropLast.map (·.kind)
  | .error _ => []

theorem kindsOf_eq {s : String} {ts : List Token} (h : tokens s = .ok ts) : kindsOf s = ts.dropLast.map (·.kind) := by
  rw [kindsOf, h]

/-- Before a comma or a closing bracket a text is cut as it is alone. -/
theorem scans_of_tokens {s : String} {ts : List Token} (h : tokens s = .ok ts) : Scans Closed s.toList (kindsOf s) := by
  intro tail n o htail hn
  refine ⟨tail.length, o + width s.toList, Nat.le_refl _, fun rest hrest => ?_⟩
  have hsplits := (tokens_ok_iff.1 h).moved o
  rw [Nat.add_zero] at hsplits
  have hall := hsplits.append (.closed htail) (splits_of_tokensFrom (Nat.le_refl _) hrest)
  refine ⟨_, tokensFrom_of_splits hall hn, ?_⟩
  rw [kindsOf_eq h, ← List.map_dropLast, ← moved_kinds o]
  exact spelled_append _ _

end Scan

open Scan

namespace Parse

section
variable {n : Nat} {ts rest : List Token} {t : Expr}

/-! ## The levels of a part -/

/-- An expression that begins with an atom: whatever it is, the atom is read first. -/
theorem atom_of_conditional (hlead : lead (peek ts) = 1) (h : (level (n + 1)).conditional ts = .ok (t, rest)) :
    ∃ x mid, (level n).atom ts = .ok (x, mid) := by
  obtain ⟨_, h, -⟩ := bind_ok h
  obtain ⟨_, h, -⟩ := bind_ok h
  obtain ⟨_, h, -⟩ := bind_ok h
  unfold Level.negationHere at h
  split at h
  · cases hlead
  · obtain ⟨_, h, -⟩ := bind_ok h
    obtain ⟨_, h, -⟩ := bind_ok h
    obtain ⟨_, h, -⟩ := bind_ok h
    unfold Level.signedHere at h
    split at h
    · cases hlead
    · cases hlead
    · obtain ⟨_, h, -⟩ := bind_ok h
      obtain ⟨⟨x, mid⟩, h, -⟩ := bind_ok h
      exact ⟨x, mid, h⟩

/-- The first element of a sequence is read up to something that goes on with no expression. -/
theorem item_of_sequence {m : Nat} {es : List Expr} (hts : 0 < lead (peek ts))
    (h : sequence (level n).conditional .rbracket m ts = .ok (es, rest)) :
    ∃ e mid, (level n).conditional ts = .ok (e, mid) ∧ grip (peek mid) = 0 := by
  cases m with
  | zero => cases h
  | succ m =>
    simp only [sequence, eat?_none_of_lead (s := .rbracket) hts rfl] at h
    obtain ⟨⟨e, mid⟩, he, h⟩ := bind_ok h
    refine ⟨e, mid, he, ?_⟩
    dsimp only at h
    split at h
    · rename_i hcomma
      obtain ⟨o, rfl⟩ := eat?_some hcomma
      rfl
    · obtain ⟨_, hclose, -⟩ := bind_ok h
      obtain ⟨o, rfl⟩ := expect_ok hclose
      rfl

/-- Two readings of one list that stop where nothing goes on with an expression are one, whatever their levels. -/
theorem conditional_unique {m : Nat} {t' : Expr} {rest' : List Token} (h : (level n).conditional ts = .ok (t, rest))
    (h' : (level m).conditional ts = .ok (t', rest')) (hg : grip (peek rest) = 0) (hg' : grip (peek rest') = 0) :
    t = t' ∧ rest = rest' := by
  obtain ⟨k, _, hk⟩ := complete (sound h) (by omega)
  obtain ⟨k', _, hk'⟩ := complete (sound h') (by omega)
  have he := (hk (max k k') (by omega)).symm.trans (hk' (max k k') (by omega))
  cases he
  exact ⟨rfl, rfl⟩

end

section
variable {s : String} {t u : Expr}

/-- A text that is accepted is read as its tree with all levels. -/
theorem reads_of_parse (h : Expr.parse s = .ok t) : Reads (level maxDepth).conditional (kindsOf s) t 1 := by
  obtain ⟨ts, hts, h⟩ := bind_ok h
  obtain ⟨⟨e, rest⟩, he, h⟩ := bind_ok h
  dsimp only at h
  split at h
  · rename_i hp
    cases h
    obtain ⟨o, rfl⟩ := ((sound he).ended (tokens_ended hts)).eq_eof hp
    obtain ⟨ks, hs, -⟩ := (level_local maxDepth).conditional _ _ _ he
    have heof := (tokens_ok_iff.1 hts).ends.1
    have hkinds : ks = ts.dropLast.map (·.kind) := by
      have hall := hs.kinds
      rw [heof, List.map_append] at hall
      exact (List.append_cancel_right hall).symm
    rw [kindsOf_eq hts, ← hkinds]
    exact reads_of_ok he hs
  · cases h

/-- A text that is accepted in brackets too is read as its tree with one level less. -/
theorem reads_of_bracketed (h : Expr.parse s = .ok t) (h' : Expr.parse ("[" ++ s ++ "]") = .ok u) :
    Reads (level 127).conditional (kindsOf s) t 1 := by
  have hread := reads_of_parse h
  obtain ⟨ts, hts, -⟩ := bind_ok h
  have hscans := (scans_of_tokens hts).bracketed .lbracket .rbracket (by decide) (by decide) .rbracket
  have htext : ("[" ++ s ++ "]").toList = Symbol.lbracket.text.toList ++ (s.toList ++ Symbol.rbracket.text.toList) := by
    rw [String.toList_append, String.toList_append, List.append_assoc]
    rfl
  rw [← htext] at hscans
  obtain ⟨us, o, hus, hspelled⟩ := hscans.tokens trivial
  obtain ⟨_, body, rfl, hbody⟩ := hspelled.head
  obtain ⟨_, hinside, hclose⟩ := hbody.split
  obtain ⟨_, rfl⟩ := hclose.single
  have hwhole := hread.reads hinside (by simp [peek, grip])
  obtain ⟨us', hus', h'⟩ := bind_ok h'
  obtain rfl : _ = us' := Except.ok.inj (hus.symm.trans hus')
  obtain ⟨⟨u', rest⟩, hu, -⟩ := bind_ok h'
  obtain ⟨x, mid, hatom⟩ := atom_of_conditional (n := 127) rfl hu
  obtain ⟨⟨es, mid'⟩, hes, -⟩ := bind_ok hatom
  obtain ⟨e, mid'', he, hgrip⟩ := item_of_sequence (lead_of_reads hwhole) hes
  obtain ⟨rfl, rfl⟩ := conditional_unique he hwhole hgrip rfl
  exact reads_of_ok he hinside

end

end Parse

open Parse

/-- Texts that are accepted each in brackets are accepted together, with commas between them, as the list of their
trees. -/
theorem Expr.parse_siblings (xs : List (String × Expr))
    (h : ∀ x ∈ xs, Expr.parse x.1 = .ok x.2 ∧ Expr.parse ("[" ++ x.1 ++ "]") = .ok (.list [x.2])) :
    Expr.parse ("[" ++ ", ".intercalate (xs.map (·.1)) ++ "]") = .ok (.list (xs.map (·.2))) := by
  have hscans : ∀ x ∈ xs, Scans Closed x.1.toList (kindsOf x.1) := fun x hx => by
    obtain ⟨ts, hts, -⟩ := bind_ok (h x hx).1
    exact scans_of_tokens hts
  have hreads : ∀ x ∈ xs.map fun x => (kindsOf x.1, x.2), Reads (level 127).conditional x.1 x.2 1 := fun x hx => by
    obtain ⟨y, hy, rfl⟩ := List.mem_map.1 hx
    exact reads_of_bracketed (h y hy).1 (h y hy).2
  have hlist := (scans_separated hscans).bracketed .lbracket .rbracket (by decide) (by decide) .rbracket
  have htext : ("[" ++ ", ".intercalate (xs.map (·.1)) ++ "]").toList = Symbol.lbracket.text.toList ++
      ([',', ' '].intercalate (xs.map fun x => x.1.toList) ++ Symbol.rbracket.text.toList) := by
    rw [String.toList_append, String.toList_append, String.toList_intercalate, List.map_map, List.append_assoc]
    rfl
  rw [← htext] at hlist
  obtain ⟨ts, o, hts, hs⟩ := hlist.tokens trivial
  have hread := (Reads.list hreads).postfixed.power.signedHere.above
  rw [List.map_map, List.map_map] at hread
  have hall : (level maxDepth).conditional ts = .ok (.list (xs.map (·.2)), [⟨.eof, o⟩]) :=
    hread.reads hs (by simp [peek, grip])
  simp only [Expr.parse, hts, ok_bind, Parse.expression, hall]
  rfl

/-- A sign and a bracket, a choice, and a list in the list. -/
theorem Expr.parse_siblings_of_three : Expr.parse "[-(a), b if c else d, [x]]" =
    .ok (.list [.unary .neg (.name "a"), .conditional (.name "c") (.name "b") (.name "d"), .list [.name "x"]]) :=
  parse_siblings
    [("-(a)", .unary .neg (.name "a")), ("b if c else d", .conditional (.name "c") (.name "b") (.name "d")),
      ("[x]", .list [.name "x"])]
    (List.forall_mem_cons.2 ⟨⟨rfl, rfl⟩, List.forall_mem_cons.2 ⟨⟨rfl, rfl⟩, List.forall_mem_singleton.2 ⟨rfl, rfl⟩⟩⟩)

end MockSchema
