/-
  MockSchema.Proofs.TreeDepth — how deep a tree the parser builds.

  The number of levels left bounds how far the readers go down, not how deep a tree they
  return: a loop over left operands puts what it has read under another node at each turn and
  gives its levels back when it ends, so the loops of one level each add as many nodes as there
  are levels left, and `**`, a chain of comparisons and the choice put their left part under a
  node for nothing.

  `Level.Shallow` is the invariant of the readers of one level, `deepest n` what it comes to
  for `n` levels (`parse_depth_le`): about 5n² / 2, not n.
-/

import MockSchema.Proofs.ParserSound

namespace MockSchema

namespace Expr

mutual

/-- The levels of a tree. A leaf is one, any other node is one more than its deepest child. -/
def depth : Expr → Nat
  | .literal _ => 1
  | .name _ => 1
  | .list items => depthAll items + 1
  | .dict entries => depthPairs entries + 1
  | .unary _ e => depth e + 1
  | .binary _ a b => max (depth a) (depth b) + 1
  | .and a b => max (depth a) (depth b) + 1
  | .or a b => max (depth a) (depth b) + 1
  | .compare first links => max (depth first) (depthLinks links) + 1
  | .conditional c yes no => max (depth c) (max (depth yes) (depth no)) + 1
  | .index target i => max (depth target) (depth i) + 1
  | .slice target start stop step =>
    max (depth target) (max (depthBound start) (max (depthBound stop) (depthBound step))) + 1
  | .member target _ => depth target + 1
  | .call _ args => depthAll args + 1
  termination_by structural e => e

def depthAll : List Expr → Nat
  | [] => 0
  | e :: es => max (depth e) (depthAll es)
  termination_by structural es => es

def depthPairs : List (Expr × Expr) → Nat
  | [] => 0
  | (k, v) :: kvs => max (max (depth k) (depth v)) (depthPairs kvs)
  termination_by structural kvs => kvs

def depthLinks : List (Relation × Expr) → Nat
  | [] => 0
  | (_, e) :: links => max (depth e) (depthLinks links)
  termination_by structural links => links

def depthBound : Option Expr → Nat
  | none => 0
  | some e => depth e
  termination_by structural e => e

end

theorem depth_pos (e : Expr) : 0 < e.depth := by
  cases e <;> simp only [depth] <;> omega

end Expr

namespace Parse

open MockSchema.Expr

/-- The depth of the deepest tree within `n` levels. -/
def deepest : Nat → Nat
  | 0 => 0
  | 1 => 2
  | n + 2 => deepest (n + 1) + 5 * n + 9

theorem deepest_succ (n : Nat) : deepest (n + 1) = deepest n + 5 * n + 2 + 2 * min 1 (deepest n) := by
  cases n with
  | zero => rfl
  | succ n =>
    have : 0 < deepest (n + 1) := by cases n <;> simp [deepest]
    simp only [deepest]
    omega

/-! ## Sequences -/

theorem sequence_depth {item : Reader Expr} {close : Symbol} {a : Nat}
    (hi : ∀ ts e rest, item ts = .ok (e, rest) → e.depth ≤ a) :
    ∀ n ts es rest, sequence item close n ts = .ok (es, rest) → depthAll es ≤ a := by
  intro n
  induction n with
  | zero => intro ts es rest h; cases h
  | succ n ih =>
    intro ts es rest h
    simp only [sequence] at h
    split at h
    · cases h; exact Nat.zero_le _
    · obtain ⟨⟨e, ts₁⟩, he, h⟩ := bind_ok h
      have he := hi _ _ _ he
      simp only at h
      split at h
      · obtain ⟨⟨es', ts₂⟩, hs, h⟩ := bind_ok h
        have hs := ih _ _ _ hs
        cases h; simp only [depthAll]; omega
      · obtain ⟨ts₂, _, h⟩ := bind_ok h
        cases h; simp only [depthAll]; omega

theorem entries_depth {item : Reader Expr} {a : Nat}
    (hi : ∀ ts e rest, item ts = .ok (e, rest) → e.depth ≤ a) :
    ∀ n ts kvs rest, entries item n ts = .ok (kvs, rest) → depthPairs kvs ≤ a := by
  intro n
  induction n with
  | zero => intro ts kvs rest h; cases h
  | succ n ih =>
    intro ts kvs rest h
    simp only [entries] at h
    split at h
    · cases h; exact Nat.zero_le _
    · obtain ⟨⟨k, ts₁⟩, hk, h⟩ := bind_ok h
      obtain ⟨ts₂, _, h⟩ := bind_ok h
      obtain ⟨⟨v, ts₃⟩, hv, h⟩ := bind_ok h
      have hk := hi _ _ _ hk
      have hv := hi _ _ _ hv
      simp only at h
      split at h
      · obtain ⟨⟨kvs', ts₄⟩, hs, h⟩ := bind_ok h
        have hs := ih _ _ _ hs
        cases h; simp only [depthPairs]; omega
      · obtain ⟨ts₄, _, h⟩ := bind_ok h
        cases h; simp only [depthPairs]; omega

/-! ## Levels -/

namespace Level

/-- With `n` levels left an expression is at most `a` deep, and going on with a left operand adds
at most `n` to the deeper of the two. -/
structure Shallow (l : Level) (n a : Nat) : Prop where
  conditional {ts rest : List Token} {e : Expr} : l.conditional ts = .ok (e, rest) → e.depth ≤ a
  negation {ts rest : List Token} {e : Expr} : l.negation ts = .ok (e, rest) → e.depth ≤ a
  signed {ts rest : List Token} {e : Expr} : l.signed ts = .ok (e, rest) → e.depth ≤ a
  orRight {ts rest : List Token} {left e : Expr} :
    l.orRight left ts = .ok (e, rest) → e.depth ≤ max left.depth a + n
  andRight {ts rest : List Token} {left e : Expr} :
    l.andRight left ts = .ok (e, rest) → e.depth ≤ max left.depth a + n
  sumRight {ts rest : List Token} {op : BinaryOp} {left e : Expr} :
    l.sumRight op left ts = .ok (e, rest) → e.depth ≤ max left.depth a + n
  termRight {ts rest : List Token} {op : BinaryOp} {left e : Expr} :
    l.termRight op left ts = .ok (e, rest) → e.depth ≤ max left.depth a + n
  subscript {ts rest : List Token} {target e : Expr} :
    l.subscript target ts = .ok (e, rest) → e.depth ≤ max target.depth a + n
  member {ts rest : List Token} {target e : Expr} :
    l.member target ts = .ok (e, rest) → e.depth ≤ max target.depth a + n

theorem Shallow.floor : floor.Shallow 0 0 where
  conditional h := nomatch h
  negation h := nomatch h
  signed h := nomatch h
  orRight h := nomatch h
  andRight h := nomatch h
  sumRight h := nomatch h
  termRight h := nomatch h
  subscript h := nomatch h
  member h := nomatch h

section
variable {below : Level} {n a : Nat} (hb : below.Shallow n a) {ts rest : List Token} {left e : Expr}
include hb

theorem Shallow.atom (h : below.atom ts = .ok (e, rest)) : e.depth ≤ a + 1 := by
  unfold Level.atom at h
  split at h
  · cases h; simp only [depth]; omega
  · split at h
    · cases h; simp only [depth]; omega
    · cases h
  · cases h; simp only [depth]; omega
  · split at h
    · cases h; simp only [depth]; omega
    · split at h
      · cases h
      · obtain ⟨⟨args, ts₁⟩, hs, h⟩ := bind_ok h
        cases h
        have := sequence_depth (fun _ _ _ => hb.conditional) _ _ _ _ hs
        simp only [depth]; omega
  · cases h; simp only [depth]; omega
  · cases h; simp only [depth]; omega
  · cases h; simp only [depth]; omega
  · obtain ⟨⟨e', ts₁⟩, he, h⟩ := bind_ok h
    obtain ⟨ts₂, _, h⟩ := bind_ok h
    cases h
    have := hb.conditional he
    omega
  · obtain ⟨⟨es, ts₁⟩, hs, h⟩ := bind_ok h
    cases h
    have := sequence_depth (fun _ _ _ => hb.conditional) _ _ _ _ hs
    simp only [depth]; omega
  · obtain ⟨⟨kvs, ts₁⟩, hs, h⟩ := bind_ok h
    cases h
    have := entries_depth (fun _ _ _ => hb.conditional) _ _ _ _ hs
    simp only [depth]; omega
  · cases h

theorem Shallow.postfixRest (h : below.postfixRest left ts = .ok (e, rest)) :
    e.depth ≤ max left.depth a + n := by
  unfold Level.postfixRest at h
  split at h
  · exact hb.subscript h
  · exact hb.member h
  · cases h
  · cases h; omega

theorem Shallow.postfixed (h : below.postfixed ts = .ok (e, rest)) : e.depth ≤ a + n + 1 := by
  obtain ⟨⟨e', ts₁⟩, he, h⟩ := bind_ok h
  have he := hb.atom he
  have := hb.postfixRest h
  omega

/-- An exponent is read only where there is a level for it, hence the minimum. -/
theorem Shallow.power (h : below.power ts = .ok (e, rest)) : e.depth ≤ a + n + 1 + min 1 a := by
  obtain ⟨⟨base, ts₁⟩, hx, h⟩ := bind_ok h
  have hx := hb.postfixed hx
  simp only at h
  split at h
  · obtain ⟨⟨y, ts₂⟩, hy, h⟩ := bind_ok h
    cases h
    have hy := hb.signed hy
    have := y.depth_pos
    simp only [depth]; omega
  · cases h; omega

theorem Shallow.signedHere (h : below.signedHere ts = .ok (e, rest)) :
    e.depth ≤ a + n + 1 + min 1 a := by
  unfold Level.signedHere at h
  split at h
  · obtain ⟨⟨e', ts₁⟩, he, h⟩ := bind_ok h
    cases h
    have he := hb.signed he
    have := e'.depth_pos
    simp only [depth]; omega
  · obtain ⟨⟨e', ts₁⟩, he, h⟩ := bind_ok h
    cases h
    have he := hb.signed he
    have := e'.depth_pos
    simp only [depth]; omega
  · exact hb.power h

theorem Shallow.termRest (h : below.termRest left ts = .ok (e, rest)) :
    e.depth ≤ max left.depth a + n := by
  unfold Level.termRest at h
  split at h
  · exact hb.termRight h
  · exact hb.termRight h
  · exact hb.termRight h
  · exact hb.termRight h
  · cases h; omega

theorem Shallow.term (h : below.term ts = .ok (e, rest)) : e.depth ≤ a + 2 * n + 1 + min 1 a := by
  obtain ⟨⟨e', ts₁⟩, he, h⟩ := bind_ok h
  have he := hb.signedHere he
  have := hb.termRest h
  omega

theorem Shallow.sumRest (h : below.sumRest left ts = .ok (e, rest)) :
    e.depth ≤ max left.depth a + n := by
  unfold Level.sumRest at h
  split at h
  · exact hb.sumRight h
  · exact hb.sumRight h
  · cases h; omega

theorem Shallow.sum (h : below.sum ts = .ok (e, rest)) : e.depth ≤ a + 3 * n + 1 + min 1 a := by
  obtain ⟨⟨e', ts₁⟩, he, h⟩ := bind_ok h
  have he := hb.term he
  have := hb.sumRest h
  omega

theorem Shallow.links : ∀ k ts ls rest, below.links k ts = .ok (ls, rest) →
    depthLinks ls ≤ a + 3 * n + 1 + min 1 a := by
  intro k
  induction k with
  | zero => intro ts ls rest h; cases h; exact Nat.zero_le _
  | succ k ih =>
    intro ts ls rest h
    simp only [Level.links] at h
    split at h
    · cases h; exact Nat.zero_le _
    · obtain ⟨⟨e, ts₂⟩, he, h⟩ := bind_ok h
      obtain ⟨⟨ls', ts₃⟩, hl, h⟩ := bind_ok h
      cases h
      have he := hb.sum he
      have hl := ih _ _ _ hl
      simp only [depthLinks]; omega

theorem Shallow.comparison (h : below.comparison ts = .ok (e, rest)) :
    e.depth ≤ a + 3 * n + 2 + min 1 a := by
  obtain ⟨⟨first, ts₁⟩, hf, h⟩ := bind_ok h
  obtain ⟨⟨ls, ts₂⟩, hl, h⟩ := bind_ok h
  cases h
  have hf := hb.sum hf
  have hl := hb.links _ _ _ _ hl
  cases ls with
  | nil => simp only [chain]; omega
  | cons l ls => simp only [chain, depth]; omega

theorem Shallow.negationHere (h : below.negationHere ts = .ok (e, rest)) :
    e.depth ≤ a + 3 * n + 2 + min 1 a := by
  unfold Level.negationHere at h
  split at h
  · obtain ⟨⟨e', ts₁⟩, he, h⟩ := bind_ok h
    cases h
    have he := hb.negation he
    simp only [depth]; omega
  · exact hb.comparison h

theorem Shallow.andRest (h : below.andRest left ts = .ok (e, rest)) :
    e.depth ≤ max left.depth a + n := by
  unfold Level.andRest at h
  split at h
  · exact hb.andRight h
  · cases h; omega

theorem Shallow.conjunction (h : below.conjunction ts = .ok (e, rest)) :
    e.depth ≤ a + 4 * n + 2 + min 1 a := by
  obtain ⟨⟨e', ts₁⟩, he, h⟩ := bind_ok h
  have he := hb.negationHere he
  have := hb.andRest h
  omega

theorem Shallow.orRest (h : below.orRest left ts = .ok (e, rest)) :
    e.depth ≤ max left.depth a + n := by
  unfold Level.orRest at h
  split at h
  · exact hb.orRight h
  · cases h; omega

theorem Shallow.disjunction (h : below.disjunction ts = .ok (e, rest)) :
    e.depth ≤ a + 5 * n + 2 + min 1 a := by
  obtain ⟨⟨e', ts₁⟩, he, h⟩ := bind_ok h
  have he := hb.conjunction he
  have := hb.orRest h
  omega

theorem Shallow.conditionalHere (h : below.conditionalHere ts = .ok (e, rest)) :
    e.depth ≤ a + 5 * n + 2 + 2 * min 1 a := by
  obtain ⟨⟨yes, ts₁⟩, hy, h⟩ := bind_ok h
  have hy := hb.disjunction hy
  simp only at h
  split at h
  · cases h; omega
  · obtain ⟨⟨c, ts₂⟩, hc, h⟩ := bind_ok h
    obtain ⟨ts₃, _, h⟩ := bind_ok h
    obtain ⟨⟨no, ts₄⟩, hn, h⟩ := bind_ok h
    cases h
    have hc := hb.disjunction hc
    have hn := hb.conditional hn
    have := no.depth_pos
    simp only [depth]; omega

theorem Shallow.bound {b : Option Expr} (h : below.bound ts = .ok (b, rest)) : depthBound b ≤ a := by
  unfold Level.bound at h
  split at h
  · cases h; exact Nat.zero_le _
  · cases h; exact Nat.zero_le _
  · obtain ⟨⟨e', ts₁⟩, he, h⟩ := bind_ok h
    cases h
    exact hb.conditional he

theorem Shallow.sliceRest {start : Option Expr} (hs : depthBound start ≤ a)
    (h : below.sliceRest left start ts = .ok (e, rest)) : e.depth ≤ max left.depth a + 1 := by
  obtain ⟨⟨stop, ts₁⟩, hstop, h⟩ := bind_ok h
  have hstop := hb.bound hstop
  simp only at h
  split at h
  · obtain ⟨⟨step, ts₂⟩, hstep, h⟩ := bind_ok h
    obtain ⟨ts₃, _, h⟩ := bind_ok h
    cases h
    have hstep := hb.bound hstep
    simp only [depth]; omega
  · obtain ⟨⟨step, ts₂⟩, hn, h⟩ := bind_ok h
    obtain ⟨ts₃, _, h⟩ := bind_ok h
    cases hn
    cases h
    simp only [depth, depthBound]; omega

theorem Shallow.subscriptHere (h : below.subscriptHere left ts = .ok (e, rest)) :
    e.depth ≤ max left.depth a + 1 := by
  unfold Level.subscriptHere at h
  split at h
  · exact hb.sliceRest (Nat.zero_le _) h
  · obtain ⟨⟨i, ts₁⟩, hi, h⟩ := bind_ok h
    have hi := hb.conditional hi
    simp only at h
    split at h
    · exact hb.sliceRest (by simpa only [depthBound] using hi) h
    · obtain ⟨ts₂, _, h⟩ := bind_ok h
      cases h
      simp only [depth]; omega

end

theorem memberHere_depth {ts rest : List Token} {target e : Expr}
    (h : memberHere target ts = .ok (e, rest)) : e.depth = target.depth + 1 := by
  unfold memberHere at h
  split at h
  · split at h
    · cases h
    · cases h; simp only [depth]
  · cases h

theorem Shallow.above {below : Level} {n a : Nat} (hb : below.Shallow n a) :
    below.above.Shallow (n + 1) (a + 5 * n + 2 + 2 * min 1 a) where
  conditional := hb.conditionalHere
  negation h := by have := hb.negationHere h; omega
  signed h := by have := hb.signedHere h; omega
  orRight h := by
    obtain ⟨⟨right, ts₁⟩, hr, h⟩ := bind_ok h
    have hr := hb.conjunction hr
    have := hb.orRest h
    simp only [depth] at this; omega
  andRight h := by
    obtain ⟨⟨right, ts₁⟩, hr, h⟩ := bind_ok h
    have hr := hb.negationHere hr
    have := hb.andRest h
    simp only [depth] at this; omega
  sumRight h := by
    obtain ⟨⟨right, ts₁⟩, hr, h⟩ := bind_ok h
    have hr := hb.term hr
    have := hb.sumRest h
    simp only [depth] at this; omega
  termRight h := by
    obtain ⟨⟨right, ts₁⟩, hr, h⟩ := bind_ok h
    have hr := hb.signedHere hr
    have := hb.termRest h
    simp only [depth] at this; omega
  subscript h := by
    obtain ⟨⟨x, ts₁⟩, hx, h⟩ := bind_ok h
    have hx := hb.subscriptHere hx
    have := hb.postfixRest h
    omega
  member h := by
    obtain ⟨⟨x, ts₁⟩, hx, h⟩ := bind_ok h
    have hx := memberHere_depth hx
    have := hb.postfixRest h
    omega

end Level

theorem level_shallow (n : Nat) : (level n).Shallow n (deepest n) := by
  induction n with
  | zero => exact .floor
  | succ n ih => rw [deepest_succ]; exact ih.above

/-! ## Whole texts -/

theorem expressionWithin_depth {n : Nat} {ts : List Token} {e : Expr}
    (h : expressionWithin n ts = .ok e) : e.depth ≤ deepest n := by
  obtain ⟨⟨e', rest⟩, he, h⟩ := bind_ok h
  simp only at h
  split at h
  · cases h; exact (level_shallow n).conditional he
  · cases h

end Parse

/-- The tree of an expression text that may nest `n` levels. -/
def Expr.parseWithin (n : Nat) (source : String) : Except SyntaxError Expr := do
  Parse.expressionWithin n (← Scan.tokens source)

theorem Expr.parse_eq_parseWithin : Expr.parse = Expr.parseWithin maxDepth := rfl

/-- No text has a tree deeper than `deepest`. -/
theorem Expr.parseWithin_depth {n : Nat} {source : String} {e : Expr}
    (h : Expr.parseWithin n source = .ok e) : e.depth ≤ Parse.deepest n := by
  obtain ⟨ts, _, h⟩ := bind_ok h
  exact Parse.expressionWithin_depth h

end MockSchema
