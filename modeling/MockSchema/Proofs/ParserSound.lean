/-
  MockSchema.Proofs.ParserSound — what the parser accepts, the grammar derives.

  `Level.Sound` says it of the readers of one level: those that begin a phrase return what the
  grammar derives, and those that go on with a left operand turn a derivation of it into one of what
  they return. The floor is sound because it accepts nothing, and a level on top of a sound one
  is sound (`Level.Sound.above`), so every level is (`sound`).
-/

import MockSchema.Proofs.Grammar
import MockSchema.Proofs.Runs

namespace MockSchema.Parse

open Grammar

/-! ## Steps of a reader -/

theorem eat?_some {s : Symbol} {ts rest : List Token} (h : eat? s ts = some rest) :
    ∃ o, ts = ⟨.symbol s, o⟩ :: rest := by
  unfold eat? at h
  split at h
  · split at h
    · rename_i hs; subst hs; cases h; exact ⟨_, rfl⟩
    · cases h
  · cases h

theorem expect_ok {s : Symbol} {ts rest : List Token} (h : expect s ts = .ok rest) :
    ∃ o, ts = ⟨.symbol s, o⟩ :: rest := by
  unfold expect at h
  split at h
  · rename_i he; cases h; exact eat?_some he
  · cases h

theorem name_of_ofName? {s : String} {f : Builtin} (h : Builtin.ofName? s = some f) : f.name = s := by
  have := List.find?_some h
  simpa using this

/-! ## Sequences -/

theorem sequence_sound {item : Reader Expr} {close : Symbol}
    (hi : ∀ ts e rest, item ts = .ok (e, rest) → Derives .conditional ts e rest) :
    ∀ n ts es rest, sequence item close n ts = .ok (es, rest) → Derives (.items close) ts es rest := by
  intro n
  induction n with
  | zero => intro ts es rest h; cases h
  | succ n ih =>
    intro ts es rest h
    simp only [sequence] at h
    split at h
    · rename_i he; cases h; obtain ⟨o, rfl⟩ := eat?_some he; exact .noItem
    · obtain ⟨⟨e, ts₁⟩, he, h⟩ := bind_ok h
      have hd := hi _ _ _ he
      simp only at h
      split at h
      · rename_i hc
        obtain ⟨⟨es', ts₂⟩, hs, h⟩ := bind_ok h
        cases h
        obtain ⟨o, rfl⟩ := eat?_some hc
        exact .item hd (ih _ _ _ hs)
      · obtain ⟨ts₂, hc, h⟩ := bind_ok h
        cases h
        obtain ⟨o, rfl⟩ := expect_ok hc
        exact .lastItem hd

theorem entries_sound {item : Reader Expr}
    (hi : ∀ ts e rest, item ts = .ok (e, rest) → Derives .conditional ts e rest) :
    ∀ n ts kvs rest, entries item n ts = .ok (kvs, rest) → Derives .entries ts kvs rest := by
  intro n
  induction n with
  | zero => intro ts kvs rest h; cases h
  | succ n ih =>
    intro ts kvs rest h
    simp only [entries] at h
    split at h
    · rename_i he; cases h; obtain ⟨o, rfl⟩ := eat?_some he; exact .noEntry
    · obtain ⟨⟨k, ts₁⟩, hk, h⟩ := bind_ok h
      obtain ⟨ts₂, hcolon, h⟩ := bind_ok h
      obtain ⟨⟨v, ts₃⟩, hv, h⟩ := bind_ok h
      have hk := hi _ _ _ hk
      have hv := hi _ _ _ hv
      simp only at h hcolon
      split at h
      · rename_i hc
        obtain ⟨⟨kvs', ts₄⟩, hs, h⟩ := bind_ok h
        cases h
        obtain ⟨o₁, rfl⟩ := expect_ok hcolon
        obtain ⟨o₂, rfl⟩ := eat?_some hc
        exact .entry hk hv (ih _ _ _ hs)
      · obtain ⟨ts₄, hc, h⟩ := bind_ok h
        cases h
        obtain ⟨o₁, rfl⟩ := expect_ok hcolon
        obtain ⟨o₂, rfl⟩ := expect_ok hc
        exact .lastEntry hk hv

theorem strings_sound (ts : List Token) {s : String} {o : Nat} :
    Derives .strings (⟨.str s, o⟩ :: ts) (s ++ (strings ts).1) (strings ts).2 := by
  induction ts using strings.induct generalizing s o with
  | case1 t o' ts _ _ _ ih => exact .string ih
  | case2 ts h => simpa [strings] using Derives.lastString

/-! ## Levels -/

namespace Level

structure Sound (l : Level) : Prop where
  conditional {ts rest : List Token} {e : Expr} :
    l.conditional ts = .ok (e, rest) → Derives .conditional ts e rest
  negation {ts rest : List Token} {e : Expr} :
    l.negation ts = .ok (e, rest) → Derives .negation ts e rest
  signed {ts rest : List Token} {e : Expr} :
    l.signed ts = .ok (e, rest) → Derives .signed ts e rest
  orRight {ts₀ ts rest : List Token} {a e : Expr} {o : Nat} :
    Derives .disjunction ts₀ a (⟨.symbol .kwOr, o⟩ :: ts) → l.orRight a ts = .ok (e, rest) →
      Derives .disjunction ts₀ e rest
  andRight {ts₀ ts rest : List Token} {a e : Expr} {o : Nat} :
    Derives .conjunction ts₀ a (⟨.symbol .kwAnd, o⟩ :: ts) → l.andRight a ts = .ok (e, rest) →
      Derives .conjunction ts₀ e rest
  sumRight {ts₀ ts rest : List Token} {s : Symbol} {op : BinaryOp} {a e : Expr} {o : Nat} :
    sumOp? s = some op → Derives .sum ts₀ a (⟨.symbol s, o⟩ :: ts) →
      l.sumRight op a ts = .ok (e, rest) → Derives .sum ts₀ e rest
  termRight {ts₀ ts rest : List Token} {s : Symbol} {op : BinaryOp} {a e : Expr} {o : Nat} :
    termOp? s = some op → Derives .term ts₀ a (⟨.symbol s, o⟩ :: ts) →
      l.termRight op a ts = .ok (e, rest) → Derives .term ts₀ e rest
  subscript {ts₀ ts rest : List Token} {a e : Expr} {o : Nat} :
    Derives .postfixed ts₀ a (⟨.symbol .lbracket, o⟩ :: ts) → l.subscript a ts = .ok (e, rest) →
      Derives .postfixed ts₀ e rest
  member {ts₀ ts rest : List Token} {a e : Expr} {o : Nat} :
    Derives .postfixed ts₀ a (⟨.symbol .dot, o⟩ :: ts) → l.member a ts = .ok (e, rest) →
      Derives .postfixed ts₀ e rest

theorem Sound.floor : floor.Sound where
  conditional h := nomatch h
  negation h := nomatch h
  signed h := nomatch h
  orRight _ h := nomatch h
  andRight _ h := nomatch h
  sumRight _ _ h := nomatch h
  termRight _ _ h := nomatch h
  subscript _ h := nomatch h
  member _ h := nomatch h

section
variable {below : Level} (hb : below.Sound) {ts₀ ts rest : List Token} {a e : Expr}
include hb

theorem Sound.atom (h : below.atom ts = .ok (e, rest)) : Derives .atom ts e rest := by
  unfold Level.atom at h
  split at h
  · cases h; exact .int
  · split at h
    · rename_i hx; cases h; exact .float hx
    · cases h
  · cases h; exact .text (strings_sound _)
  · split at h
    · cases h; exact .name
    · rename_i hp
      split at h
      · cases h
      · rename_i f hf
        obtain ⟨⟨args, ts₂⟩, hs, h⟩ := bind_ok h
        cases h
        obtain ⟨o, rfl⟩ := eat?_some hp
        cases name_of_ofName? hf
        exact .call (sequence_sound (fun _ _ _ => hb.conditional) _ _ _ _ hs)
  · cases h; exact .constant rfl
  · cases h; exact .constant rfl
  · cases h; exact .constant rfl
  · obtain ⟨⟨e', ts₁⟩, he, h⟩ := bind_ok h
    obtain ⟨ts₂, hp, h⟩ := bind_ok h
    cases h
    obtain ⟨o, rfl⟩ := expect_ok hp
    exact .paren (hb.conditional he)
  · obtain ⟨⟨es, ts₁⟩, hs, h⟩ := bind_ok h
    cases h
    exact .list (sequence_sound (fun _ _ _ => hb.conditional) _ _ _ _ hs)
  · obtain ⟨⟨kvs, ts₁⟩, hs, h⟩ := bind_ok h
    cases h
    exact .dict (entries_sound (fun _ _ _ => hb.conditional) _ _ _ _ hs)
  · cases h

theorem Sound.postfixRest (ha : Derives .postfixed ts₀ a ts)
    (h : below.postfixRest a ts = .ok (e, rest)) : Derives .postfixed ts₀ e rest := by
  unfold Level.postfixRest at h
  split at h
  · exact hb.subscript ha h
  · exact hb.member ha h
  · cases h
  · cases h; exact ha

theorem Sound.postfixed (h : below.postfixed ts = .ok (e, rest)) : Derives .postfixed ts e rest := by
  obtain ⟨⟨a, ts₁⟩, ha, h⟩ := bind_ok h
  exact hb.postfixRest (.atom (hb.atom ha)) h

theorem Sound.power (h : below.power ts = .ok (e, rest)) : Derives .power ts e rest := by
  obtain ⟨⟨a, ts₁⟩, ha, h⟩ := bind_ok h
  have ha := hb.postfixed ha
  simp only at h
  split at h
  · rename_i hs
    obtain ⟨⟨b, ts₂⟩, hx, h⟩ := bind_ok h
    cases h
    obtain ⟨o, rfl⟩ := eat?_some hs
    exact .raise ha (hb.signed hx)
  · cases h; exact .postfixed ha

theorem Sound.signedHere (h : below.signedHere ts = .ok (e, rest)) : Derives .signed ts e rest := by
  unfold Level.signedHere at h
  split at h
  · obtain ⟨⟨a, ts₁⟩, ha, h⟩ := bind_ok h
    cases h; exact .sign rfl (hb.signed ha)
  · obtain ⟨⟨a, ts₁⟩, ha, h⟩ := bind_ok h
    cases h; exact .sign rfl (hb.signed ha)
  · exact .power (hb.power h)

theorem Sound.termRest (ha : Derives .term ts₀ a ts) (h : below.termRest a ts = .ok (e, rest)) :
    Derives .term ts₀ e rest := by
  unfold Level.termRest at h
  split at h
  · exact hb.termRight rfl ha h
  · exact hb.termRight rfl ha h
  · exact hb.termRight rfl ha h
  · exact hb.termRight rfl ha h
  · cases h; exact ha

theorem Sound.term (h : below.term ts = .ok (e, rest)) : Derives .term ts e rest := by
  obtain ⟨⟨a, ts₁⟩, ha, h⟩ := bind_ok h
  exact hb.termRest (.signed (hb.signedHere ha)) h

theorem Sound.sumRest (ha : Derives .sum ts₀ a ts) (h : below.sumRest a ts = .ok (e, rest)) :
    Derives .sum ts₀ e rest := by
  unfold Level.sumRest at h
  split at h
  · exact hb.sumRight rfl ha h
  · exact hb.sumRight rfl ha h
  · cases h; exact ha

theorem Sound.sum (h : below.sum ts = .ok (e, rest)) : Derives .sum ts e rest := by
  obtain ⟨⟨a, ts₁⟩, ha, h⟩ := bind_ok h
  exact hb.sumRest (.term (hb.term ha)) h

omit hb in
theorem relation?_some {r : Relation} (h : relation? ts = some (r, rest)) :
    Spelled (spelling r) ts rest := by
  unfold relation? at h
  split at h <;> cases h
  all_goals first | exact .cons .nil | exact .cons (.cons .nil)

theorem Sound.links : ∀ n ts ls rest, below.links n ts = .ok (ls, rest) →
    (ls = [] ∧ rest = ts) ∨ Derives .links ts ls rest := by
  intro n
  induction n with
  | zero => intro ts ls rest h; cases h; exact Or.inl ⟨rfl, rfl⟩
  | succ n ih =>
    intro ts ls rest h
    simp only [Level.links] at h
    split at h
    · cases h; exact Or.inl ⟨rfl, rfl⟩
    · rename_i r ts₁ hr
      obtain ⟨⟨e, ts₂⟩, he, h⟩ := bind_ok h
      obtain ⟨⟨ls', ts₃⟩, hl, h⟩ := bind_ok h
      cases h
      have he := hb.sum he
      rcases ih _ _ _ hl with ⟨rfl, rfl⟩ | hl
      · exact Or.inr (.lastLink (relation?_some hr) he)
      · exact Or.inr (.link (relation?_some hr) he hl)

theorem Sound.comparison (h : below.comparison ts = .ok (e, rest)) :
    Derives .comparison ts e rest := by
  obtain ⟨⟨first, ts₁⟩, hf, h⟩ := bind_ok h
  obtain ⟨⟨ls, ts₂⟩, hl, h⟩ := bind_ok h
  cases h
  have hf := hb.sum hf
  rcases hb.links _ _ _ _ hl with ⟨rfl, rfl⟩ | hd
  · exact .sum hf
  · cases ls with
    | nil => cases hd
    | cons l ls => exact .compare hf hd

theorem Sound.negationHere (h : below.negationHere ts = .ok (e, rest)) :
    Derives .negation ts e rest := by
  unfold Level.negationHere at h
  split at h
  · obtain ⟨⟨a, ts₁⟩, ha, h⟩ := bind_ok h
    cases h; exact .not (hb.negation ha)
  · exact .comparison (hb.comparison h)

theorem Sound.andRest (ha : Derives .conjunction ts₀ a ts) (h : below.andRest a ts = .ok (e, rest)) :
    Derives .conjunction ts₀ e rest := by
  unfold Level.andRest at h
  split at h
  · exact hb.andRight ha h
  · cases h; exact ha

theorem Sound.conjunction (h : below.conjunction ts = .ok (e, rest)) :
    Derives .conjunction ts e rest := by
  obtain ⟨⟨a, ts₁⟩, ha, h⟩ := bind_ok h
  exact hb.andRest (.negation (hb.negationHere ha)) h

theorem Sound.orRest (ha : Derives .disjunction ts₀ a ts) (h : below.orRest a ts = .ok (e, rest)) :
    Derives .disjunction ts₀ e rest := by
  unfold Level.orRest at h
  split at h
  · exact hb.orRight ha h
  · cases h; exact ha

theorem Sound.disjunction (h : below.disjunction ts = .ok (e, rest)) :
    Derives .disjunction ts e rest := by
  obtain ⟨⟨a, ts₁⟩, ha, h⟩ := bind_ok h
  exact hb.orRest (.conjunction (hb.conjunction ha)) h

theorem Sound.conditionalHere (h : below.conditionalHere ts = .ok (e, rest)) :
    Derives .conditional ts e rest := by
  obtain ⟨⟨yes, ts₁⟩, hy, h⟩ := bind_ok h
  have hy := hb.disjunction hy
  simp only at h
  split at h
  · cases h; exact .disjunction hy
  · rename_i hi
    obtain ⟨⟨c, ts₂⟩, hc, h⟩ := bind_ok h
    obtain ⟨ts₃, he, h⟩ := bind_ok h
    obtain ⟨⟨no, ts₄⟩, hn, h⟩ := bind_ok h
    cases h
    have hc := hb.disjunction hc
    have hn := hb.conditional hn
    obtain ⟨o₁, rfl⟩ := eat?_some hi
    obtain ⟨o₂, rfl⟩ := expect_ok he
    exact .choice hy hc hn

theorem Sound.bound {b : Option Expr} (h : below.bound ts = .ok (b, rest)) :
    Derives .bound ts b rest := by
  unfold Level.bound at h
  split at h
  · cases h; exact .noBound
  · cases h; exact .noBound
  · obtain ⟨⟨e, ts₁⟩, he, h⟩ := bind_ok h
    cases h; exact .aBound (hb.conditional he)

theorem Sound.sliceRest {ts₁ : List Token} {start : Option Expr} {o₁ o₂ : Nat}
    (ha : Derives .postfixed ts₀ a (⟨.symbol .lbracket, o₁⟩ :: ts₁))
    (hs : Derives .bound ts₁ start (⟨.symbol .colon, o₂⟩ :: ts))
    (h : below.sliceRest a start ts = .ok (e, rest)) : Derives .postfixed ts₀ e rest := by
  obtain ⟨⟨stop, ts₂⟩, hstop, h⟩ := bind_ok h
  have hstop := hb.bound hstop
  simp only at h
  split at h
  · rename_i hcolon
    obtain ⟨⟨step, ts₃⟩, hstep, h⟩ := bind_ok h
    obtain ⟨ts₄, hc, h⟩ := bind_ok h
    cases h
    have hstep := hb.bound hstep
    obtain ⟨o₃, rfl⟩ := eat?_some hcolon
    obtain ⟨o₄, rfl⟩ := expect_ok hc
    exact .steppedSlice ha hs hstop hstep
  · obtain ⟨⟨step, ts₃⟩, hn, h⟩ := bind_ok h
    obtain ⟨ts₄, hc, h⟩ := bind_ok h
    cases hn
    cases h
    obtain ⟨o₄, rfl⟩ := expect_ok hc
    exact .slice ha hs hstop

theorem Sound.subscriptHere {o : Nat} (ha : Derives .postfixed ts₀ a (⟨.symbol .lbracket, o⟩ :: ts))
    (h : below.subscriptHere a ts = .ok (e, rest)) : Derives .postfixed ts₀ e rest := by
  unfold Level.subscriptHere at h
  split at h
  · rename_i hc
    obtain ⟨o', rfl⟩ := eat?_some hc
    exact hb.sliceRest ha .noBound h
  · obtain ⟨⟨i, ts₁⟩, hi, h⟩ := bind_ok h
    have hi := hb.conditional hi
    simp only at h
    split at h
    · rename_i hc
      obtain ⟨o', rfl⟩ := eat?_some hc
      exact hb.sliceRest ha (.aBound hi) h
    · obtain ⟨ts₂, hc, h⟩ := bind_ok h
      cases h
      obtain ⟨o', rfl⟩ := expect_ok hc
      exact .index ha hi

end

theorem memberHere_sound {ts₀ ts rest : List Token} {a e : Expr} {o : Nat}
    (ha : Derives .postfixed ts₀ a (⟨.symbol .dot, o⟩ :: ts))
    (h : memberHere a ts = .ok (e, rest)) : Derives .postfixed ts₀ e rest := by
  unfold memberHere at h
  split at h
  · split at h
    · cases h
    · cases h; exact .member ha
  · cases h

theorem Sound.above {below : Level} (hb : below.Sound) : below.above.Sound where
  conditional := hb.conditionalHere
  negation := hb.negationHere
  signed := hb.signedHere
  orRight ha h := by
    obtain ⟨⟨b, ts₁⟩, hr, h⟩ := bind_ok h
    exact hb.orRest (.or ha (hb.conjunction hr)) h
  andRight ha h := by
    obtain ⟨⟨b, ts₁⟩, hr, h⟩ := bind_ok h
    exact hb.andRest (.and ha (hb.negationHere hr)) h
  sumRight hs ha h := by
    obtain ⟨⟨b, ts₁⟩, hr, h⟩ := bind_ok h
    exact hb.sumRest (.add hs ha (hb.term hr)) h
  termRight hs ha h := by
    obtain ⟨⟨b, ts₁⟩, hr, h⟩ := bind_ok h
    exact hb.termRest (.multiply hs ha (hb.signedHere hr)) h
  subscript ha h := by
    obtain ⟨⟨b, ts₁⟩, hr, h⟩ := bind_ok h
    exact hb.postfixRest (hb.subscriptHere ha hr) h
  member ha h := by
    obtain ⟨⟨b, ts₁⟩, hr, h⟩ := bind_ok h
    exact hb.postfixRest (memberHere_sound ha hr) h

end Level

theorem level_sound (n : Nat) : (level n).Sound := by
  induction n with
  | zero => exact .floor
  | succ n ih => exact ih.above

/-- What is accepted within any number of levels is derived. -/
theorem sound {n : Nat} {ts rest : List Token} {e : Expr}
    (h : (level n).conditional ts = .ok (e, rest)) : Derives .conditional ts e rest :=
  (level_sound n).conditional h

/-- A whole token list as one expression within `n` levels. -/
def expressionWithin (n : Nat) (ts : List Token) : Result Expr := do
  let (e, rest) ← (level n).conditional ts
  match peek rest with
  | .eof => return e
  | _ => unexpected rest

theorem expressionWithin_sound {n : Nat} {ts : List Token} {e : Expr}
    (h : expressionWithin n ts = .ok e) : Spells ts e := by
  obtain ⟨⟨e', rest⟩, he, h⟩ := bind_ok h
  simp only at h
  split at h
  · rename_i hp; cases h; exact ⟨rest, sound he, hp⟩
  · cases h

theorem expression_sound {ts : List Token} {e : Expr} (h : expression ts = .ok e) : Spells ts e :=
  expressionWithin_sound (show expressionWithin maxDepth ts = .ok e from h)

end MockSchema.Parse
