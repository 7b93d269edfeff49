/-
  MockSchema.Proofs.Reads — following a reader phrase by phrase, with the levels counted.

  `Reads r ks t g`: tokens spelled `ks` are read by `r` as `t`, when what follows them grips less than `g`. A phrase
  that is one of the next tighter is read as that all the way up (`Reads.power` to `Reads.conditional`).
  A sign takes a level, and so does what stands in brackets, read one element after another.
-/

import MockSchema.Proofs.ParserComplete

namespace MockSchema

open Grammar

theorem Grammar.Spelled.split {ks ks' : List Token.Kind} {ts rest : List Token}
    (h : Spelled (ks ++ ks') ts rest) : ∃ mid, Spelled ks ts mid ∧ Spelled ks' mid rest := by
  induction ks generalizing ts with
  | nil => exact ⟨ts, .nil, h⟩
  | cons k ks ih =>
    cases h with
    | cons h =>
      obtain ⟨mid, h₁, h₂⟩ := ih h
      exact ⟨mid, .cons h₁, h₂⟩

theorem Grammar.Spelled.append {ks ks' : List Token.Kind} {ts mid rest : List Token} (h : Spelled ks ts mid)
    (h' : Spelled ks' mid rest) : Spelled (ks ++ ks') ts rest := by
  induction h with
  | nil => exact h'
  | cons _ ih => exact .cons (ih h')

theorem Grammar.Spelled.head {k : Token.Kind} {ks : List Token.Kind} {ts rest : List Token}
    (h : Spelled ([k] ++ ks) ts rest) : ∃ o ts', ts = ⟨k, o⟩ :: ts' ∧ Spelled ks ts' rest := by
  cases h with
  | cons h => exact ⟨_, _, rfl, h⟩

theorem Grammar.Spelled.single {k : Token.Kind} {ts rest : List Token} (h : Spelled [k] ts rest) :
    ∃ o, ts = ⟨k, o⟩ :: rest := by
  cases h with
  | cons h =>
    cases h
    exact ⟨_, rfl⟩

namespace Parse

structure Reads (r : Reader Expr) (ks : List Token.Kind) (t : Expr) (g : Nat) : Prop where
  reads {ts rest : List Token} : Spelled ks ts rest → grip (peek rest) < g → r ts = .ok (t, rest)

/-! ## Up the levels -/

section
variable {below : Level} {ks : List Token.Kind} {t : Expr} {n : Nat}

theorem reads_name (name : String) : Reads below.atom [.ident name] (.name name) 9 where
  reads hs hg := by
    obtain ⟨o, rfl⟩ := hs.single
    exact atom_name _ hg

theorem Reads.postfixed (h : Reads below.atom ks t 9) : Reads below.postfixed ks t 8 where
  reads hs hg := by
    unfold Level.postfixed
    rw [h.reads hs (by omega)]
    exact Level.postfixRest_stop hg

theorem Reads.power (h : Reads below.postfixed ks t 8) : Reads below.power ks t 7 where
  reads {_ rest} hs hg := by
    have hk := h.reads hs (by omega)
    have he : eat? .starStar rest = none := eat?_none_of_grip hg
    simp only [Level.power, hk, ok_bind, he]
    rfl

/-- What is read without a sign does not begin with one. -/
theorem Reads.signedHere (h : Reads below.power ks t 7) : Reads below.signedHere ks t 7 where
  reads hs hg := by
    have hk := h.reads hs hg
    unfold Level.signedHere
    split
    · cases hk
    · cases hk
    · exact hk

theorem Reads.negated (h : Reads (level n).signedHere ks t 7) :
    Reads (level (n + 1)).signedHere ([.symbol .minus] ++ ks) (.unary .neg t) 7 where
  reads {_ rest} hs hg := by
    obtain ⟨o, ts, rfl, hks⟩ := hs.head
    have hk : (level (n + 1)).signed ts = .ok (t, rest) := h.reads hks hg
    simp only [Level.signedHere, hk, ok_bind]
    rfl

theorem Reads.term (h : Reads below.signedHere ks t 7) : Reads below.term ks t 6 where
  reads hs hg := by
    unfold Level.term
    rw [h.reads hs (by omega)]
    exact Level.termRest_stop hg

theorem Reads.sum (h : Reads below.term ks t 6) : Reads below.sum ks t 5 where
  reads hs hg := by
    unfold Level.sum
    rw [h.reads hs (by omega)]
    exact Level.sumRest_stop hg

theorem Reads.comparison (h : Reads below.sum ks t 5) : Reads below.comparison ks t 4 where
  reads hs hg := by
    unfold Level.comparison
    rw [h.reads hs (by omega)]
    show (below.links _ _ >>= _) = _
    rw [links_stop hg]
    rfl

/-- What is read without a `not` does not begin with one. -/
theorem Reads.negationHere (h : Reads below.comparison ks t 4) : Reads below.negationHere ks t 4 where
  reads hs hg := by
    have hk := h.reads hs hg
    unfold Level.negationHere
    split
    · cases hk
    · exact hk

theorem Reads.conjunction (h : Reads below.negationHere ks t 4) : Reads below.conjunction ks t 3 where
  reads hs hg := by
    unfold Level.conjunction
    rw [h.reads hs (by omega)]
    exact Level.andRest_stop hg

theorem Reads.disjunction (h : Reads below.conjunction ks t 3) : Reads below.disjunction ks t 2 where
  reads hs hg := by
    unfold Level.disjunction
    rw [h.reads hs (by omega)]
    exact Level.orRest_stop hg

theorem Reads.conditional (h : Reads below.disjunction ks t 2) : Reads below.above.conditional ks t 1 where
  reads {_ rest} hs hg := by
    have hk := h.reads hs (by omega)
    have he : eat? .kwIf rest = none := eat?_none_of_grip hg
    show below.conditionalHere _ = _
    simp only [Level.conditionalHere, hk, ok_bind, he]
    rfl

/-- From a phrase with a sign, or without, to a whole expression one level up. -/
theorem Reads.above (h : Reads (level n).signedHere ks t 7) : Reads (level (n + 1)).conditional ks t 1 :=
  h.term.sum.comparison.negationHere.conjunction.disjunction.conditional

end

/-! ## In brackets -/

/-- Phrases with a comma between each two of them. -/
def separated (kss : List (List Token.Kind)) : List Token.Kind := [.symbol .comma].intercalate kss

@[simp] theorem separated_singleton (ks : List Token.Kind) : separated [ks] = ks := by
  simp [separated, List.intercalate, List.intersperse]

@[simp] theorem separated_cons_cons (ks ks' : List Token.Kind) (kss : List (List Token.Kind)) :
    separated (ks :: ks' :: kss) = ks ++ ([.symbol .comma] ++ separated (ks' :: kss)) := by
  simp [separated, List.intercalate, List.intersperse]

section
variable {n : Nat}

/-- An expression begins with a token that can begin one, so with none that ends a sequence. -/
theorem lead_of_reads {ts rest : List Token} {t : Expr} (h : (level n).conditional ts = .ok (t, rest)) :
    0 < lead (peek ts) :=
  ((sound h).leads (by decide)).1

/-- A sequence is read by induction on its elements; each leaves a bound on their number that is enough for the rest. -/
theorem sequence_reads {close : Symbol} (hclose : lead (.symbol close) = 0) (hgrip : grip (.symbol close) = 0)
    (hcomma : close ≠ .comma) {xs : List (List Token.Kind × Expr)}
    (h : ∀ x ∈ xs, Reads (level n).conditional x.1 x.2 1) :
    ∀ {bound : Nat} {ts rest : List Token}, Spelled (separated (xs.map (·.1)) ++ [.symbol close]) ts rest →
      ts.length ≤ bound → sequence (level n).conditional close bound ts = .ok (xs.map (·.2), rest) := by
  induction xs with
  | nil =>
    intro bound ts rest hs hb
    obtain ⟨o, rfl⟩ := hs.single
    obtain ⟨bound, rfl⟩ : ∃ m, bound = m + 1 := ⟨bound - 1, by simp only [List.length_cons] at hb; omega⟩
    simp only [sequence, eat?_here]
    rfl
  | cons x xs ih =>
    intro bound ts rest hs hb
    have hx := h x List.mem_cons_self
    have hxs : ∀ y ∈ xs, Reads (level n).conditional y.1 y.2 1 := fun y hy => h y (List.mem_cons_of_mem _ hy)
    cases xs with
    | nil =>
      obtain ⟨mid, hitem, hend⟩ := hs.split
      obtain ⟨o, rfl⟩ := hend.single
      rw [List.map_cons, List.map_nil, separated_singleton] at hitem
      have hk := hx.reads hitem (by simp [peek, hgrip])
      have hlength := hitem.length_le
      obtain ⟨bound, rfl⟩ : ∃ m, bound = m + 1 := ⟨bound - 1, by simp only [List.length_cons] at hlength; omega⟩
      have he : eat? close ts = none := eat?_none_of_lead (lead_of_reads hk) hclose
      simp only [sequence, he, hk, ok_bind, eat?_other hcomma, expect_here]
      rfl
    | cons y ys =>
      simp only [List.map_cons, separated_cons_cons, List.append_assoc] at hs
      obtain ⟨mid, hitem, htail⟩ := hs.split
      obtain ⟨o, more, rfl, hmore⟩ := htail.head
      have hk := hx.reads hitem (by simp [peek, grip])
      have hlength := hitem.length_le
      obtain ⟨bound, rfl⟩ : ∃ m, bound = m + 1 := ⟨bound - 1, by simp only [List.length_cons] at hlength; omega⟩
      have he : eat? close ts = none := eat?_none_of_lead (lead_of_reads hk) hclose
      have hrest : sequence (level n).conditional close bound more = .ok ((y :: ys).map (·.2), rest) :=
        ih hxs hmore (by simp only [List.length_cons] at hlength; omega)
      simp only [sequence, he, hk, ok_bind, eat?_here, hrest]
      rfl

theorem Reads.list {xs : List (List Token.Kind × Expr)} (h : ∀ x ∈ xs, Reads (level n).conditional x.1 x.2 1) :
    Reads (level n).atom ([.symbol .lbracket] ++ (separated (xs.map (·.1)) ++ [.symbol .rbracket]))
      (.list (xs.map (·.2))) 9 where
  reads hs _ := by
    obtain ⟨o, ts, rfl, hitems⟩ := hs.head
    have hk := sequence_reads rfl rfl (by decide) h hitems (Nat.le_refl _)
    simp only [Level.atom, hk, ok_bind]
    rfl

/-- A key with its value. -/
structure Entry where
  keyKinds : List Token.Kind
  key : Expr
  valueKinds : List Token.Kind
  value : Expr

def Entry.kinds (x : Entry) : List Token.Kind := x.keyKinds ++ ([.symbol .colon] ++ x.valueKinds)

theorem entries_reads {xs : List Entry} (h : ∀ x ∈ xs, Reads (level n).conditional x.keyKinds x.key 1 ∧
      Reads (level n).conditional x.valueKinds x.value 1) :
    ∀ {bound : Nat} {ts rest : List Token}, Spelled (separated (xs.map Entry.kinds) ++ [.symbol .rbrace]) ts rest →
      ts.length ≤ bound → entries (level n).conditional bound ts = .ok (xs.map fun x => (x.key, x.value), rest) := by
  induction xs with
  | nil =>
    intro bound ts rest hs hb
    obtain ⟨o, rfl⟩ := hs.single
    obtain ⟨bound, rfl⟩ : ∃ m, bound = m + 1 := ⟨bound - 1, by simp only [List.length_cons] at hb; omega⟩
    simp only [entries, eat?_here]
    rfl
  | cons x xs ih =>
    intro bound ts rest hs hb
    obtain ⟨hkey, hvalue⟩ := h x List.mem_cons_self
    have hxs := fun y hy => h y (List.mem_cons_of_mem _ hy)
    cases xs with
    | nil =>
      rw [List.map_cons, List.map_nil, separated_singleton, Entry.kinds, List.append_assoc, List.append_assoc] at hs
      obtain ⟨_, hks, hcolon⟩ := hs.split
      obtain ⟨o, mid, rfl, hbody⟩ := hcolon.head
      obtain ⟨_, hvs, hend⟩ := hbody.split
      obtain ⟨o', rfl⟩ := hend.single
      have hk := hkey.reads hks (by simp [peek, grip])
      have hw := hvalue.reads hvs (by simp [peek, grip])
      have hlength := hks.length_le
      obtain ⟨bound, rfl⟩ : ∃ m, bound = m + 1 := ⟨bound - 1, by simp only [List.length_cons] at hlength; omega⟩
      have he : eat? .rbrace ts = none := eat?_none_of_lead (lead_of_reads hk) rfl
      simp only [entries, he, hk, ok_bind, expect_here, hw, eat?_other (by decide : Symbol.rbrace ≠ .comma)]
      rfl
    | cons y ys =>
      rw [List.map_cons, List.map_cons, separated_cons_cons, Entry.kinds, List.append_assoc, List.append_assoc,
        List.append_assoc, List.append_assoc] at hs
      obtain ⟨_, hks, hcolon⟩ := hs.split
      obtain ⟨o, mid, rfl, hbody⟩ := hcolon.head
      obtain ⟨_, hvs, htail⟩ := hbody.split
      obtain ⟨o', more, rfl, hmore⟩ := htail.head
      have hk := hkey.reads hks (by simp [peek, grip])
      have hw := hvalue.reads hvs (by simp [peek, grip])
      have hlength := hks.length_le
      have hlength' := hvs.length_le
      obtain ⟨bound, rfl⟩ : ∃ m, bound = m + 1 := ⟨bound - 1, by simp only [List.length_cons] at hlength; omega⟩
      have he : eat? .rbrace ts = none := eat?_none_of_lead (lead_of_reads hk) rfl
      have hrest : entries (level n).conditional bound more =
          .ok ((y :: ys).map fun x => (x.key, x.value), rest) :=
        ih hxs hmore (by simp only [List.length_cons] at hlength hlength'; omega)
      simp only [entries, he, hk, ok_bind, expect_here, hw, eat?_here, hrest]
      rfl

theorem Reads.dict {xs : List Entry} (h : ∀ x ∈ xs, Reads (level n).conditional x.keyKinds x.key 1 ∧
      Reads (level n).conditional x.valueKinds x.value 1) :
    Reads (level n).atom ([.symbol .lbrace] ++ (separated (xs.map Entry.kinds) ++ [.symbol .rbrace]))
      (.dict (xs.map fun x => (x.key, x.value))) 9 where
  reads hs _ := by
    obtain ⟨o, ts, rfl, hentries⟩ := hs.head
    have hk := entries_reads h hentries (Nat.le_refl _)
    simp only [Level.atom, hk, ok_bind]
    rfl

end

end Parse

end MockSchema
