/-
  MockSchema.Proofs.DeepText — the depth a limit on nesting allows, exactly.

  `deepKinds n` spells an expression that takes all of what `n` levels leave room for: the deepest
  within one level less, in a list, and then, each as often as there are levels, a
  member, a factor, a summand, an `and` and an `or`, and between them what costs no level at all, a
  power, a comparison and a choice. Its text is accepted within `n` levels (`deepText_parses`)
  and its tree is `deepest n` deep, so no bound below that holds of all texts (`depth_bounded_iff`).
-/

import Mathlib.Order.Monotone.Basic
import MockSchema.Proofs.Reads
import MockSchema.Proofs.TreeDepth

namespace MockSchema

open Grammar

/-! ## Texts with a blank before each token -/

namespace Scan

def spell : Token.Kind → List Char
  | .ident name => name.toList
  | .symbol s => s.text.toList
  | _ => []

def spaced (ks : List Token.Kind) : List Char := ks.flatMap fun k => ' ' :: spell k

/-- A symbol, or the one name that the texts here use. -/
def Plain (k : Token.Kind) : Prop := k = .ident "a" ∨ ∃ s, k = .symbol s

theorem tokensFrom_plain {k : Token.Kind} (hk : Plain k) {cs : List Char}
    (hcs : cs = [] ∨ ∃ cs', cs = ' ' :: cs') (n o : Nat) :
    ∃ o', tokensFrom (n + 1) o (' ' :: spell k ++ cs) =
      tokensFrom n o' cs >>= fun ts => .ok (⟨k, o + 1⟩ :: ts) := by
  rcases hk with rfl | ⟨s, rfl⟩
  · rcases hcs with rfl | ⟨cs', rfl⟩ <;> exact ⟨_, rfl⟩
  · rcases hcs with rfl | ⟨cs', rfl⟩ <;> cases s <;> exact ⟨_, rfl⟩

theorem spaced_head (ks : List Token.Kind) : spaced ks = [] ∨ ∃ cs, spaced ks = ' ' :: cs := by
  cases ks with
  | nil => exact Or.inl rfl
  | cons k ks => exact Or.inr ⟨_, rfl⟩

theorem tokensFrom_spaced (ks : List Token.Kind) (hk : ∀ k ∈ ks, Plain k) :
    ∀ n o, ks.length ≤ n → ∃ ts o', tokensFrom n o (spaced ks) = .ok ts ∧ Spelled ks ts [⟨.eof, o'⟩] := by
  induction ks with
  | nil => intro n o _; cases n <;> exact ⟨_, _, rfl, .nil⟩
  | cons k ks ih =>
    intro n o hn
    obtain ⟨n, rfl⟩ : ∃ n', n = n' + 1 := ⟨n - 1, by simp only [List.length_cons] at hn; omega⟩
    obtain ⟨o₁, h₁⟩ := tokensFrom_plain (hk k (List.mem_cons_self ..)) (spaced_head ks) n o
    obtain ⟨ts, o₂, h₂, hs⟩ := ih (fun k' h => hk k' (List.mem_cons_of_mem _ h)) n o₁
      (by simp only [List.length_cons] at hn; omega)
    refine ⟨⟨k, o + 1⟩ :: ts, o₂, ?_, .cons hs⟩
    show tokensFrom (n + 1) o (' ' :: spell k ++ spaced ks) = _
    rw [h₁, h₂]
    rfl

theorem spaced_length (ks : List Token.Kind) : ks.length ≤ (spaced ks).length := by
  induction ks with
  | nil => exact Nat.le_refl _
  | cons k ks ih =>
    show _ ≤ (' ' :: spell k ++ spaced ks).length
    simp only [List.length_append, List.length_cons]
    omega

/-- A text with a blank before each token scans to these tokens. -/
theorem tokens_spaced {ks : List Token.Kind} (hk : ∀ k ∈ ks, Plain k) :
    ∃ ts o, tokens (String.ofList (spaced ks)) = .ok ts ∧ Spelled ks ts [⟨.eof, o⟩] := by
  unfold tokens
  rw [String.toList_ofList]
  exact tokensFrom_spaced ks hk _ _ (spaced_length ks)

end Scan

namespace Parse

/-! ## Reading phrase by phrase -/

/-- The name that stands for every operand. -/
def letter : Token.Kind := .ident "a"

def many (n : Nat) (ks : List Token.Kind) : List Token.Kind := (List.replicate n ks).flatten

theorem grip_many {n : Nat} {s : Symbol} {ts rest : List Token}
    (h : Spelled (many n [.symbol s, letter]) ts rest) (hg : grip (peek rest) < grip (.symbol s)) :
    grip (peek ts) ≤ grip (.symbol s) := by
  cases n with
  | zero => cases h; exact Nat.le_of_lt hg
  | succ n => cases h; exact Nat.le_refl _

/-- A loop with `n` levels left makes as many turns. -/
theorem loop_reads {r : Nat → Expr → Reader Expr} {s : Symbol} {wrap : Expr → Expr}
    (stop : ∀ n e ts, grip (peek ts) < grip (.symbol s) → r n e ts = .ok (e, ts))
    (turn : ∀ n e ts o o', grip (peek ts) ≤ grip (.symbol s) →
      r (n + 1) e (⟨.symbol s, o⟩ :: ⟨letter, o'⟩ :: ts) = r n (wrap e) ts) :
    ∀ n e ts rest, Spelled (many n [.symbol s, letter]) ts rest → grip (peek rest) < grip (.symbol s) →
      r n e ts = .ok (wrap^[n] e, rest) := by
  intro n
  induction n with
  | zero => intro e ts rest h hg; cases h; exact stop _ _ _ hg
  | succ n ih =>
    intro e ts rest h hg
    have h' : Spelled ([.symbol s, letter] ++ many n [.symbol s, letter]) ts rest := h
    obtain ⟨mid, h₁, h₂⟩ := h'.split
    obtain _ | ⟨_ | ⟨_ | _⟩⟩ := h₁
    rw [turn n e mid _ _ (grip_many h₂ hg)]
    exact ih _ _ _ h₂ hg

/-! ### Operands -/

section
variable {below : Level} {ks : List Token.Kind} {t : Expr} {n : Nat}

theorem reads_letter : Reads below.postfixed [letter] (.name "a") 8 := (reads_name "a").postfixed

theorem conjunction_letter (below : Level) : Reads below.conjunction [letter] (.name "a") 3 :=
  reads_letter.power.signedHere.term.sum.comparison.negationHere.conjunction

theorem disjunction_letter (below : Level) : Reads below.disjunction [letter] (.name "a") 2 :=
  (conjunction_letter below).disjunction

/-! ### What adds to a tree for nothing -/

theorem Reads.bracketed (h : Reads (level n).conditional ks t 1) :
    Reads (level n).atom ([.symbol .lbracket] ++ ks ++ [.symbol .rbracket]) (.list [t]) 9 := by
  have hlist := Reads.list (List.forall_mem_singleton.2 h : ∀ x ∈ [(ks, t)], Reads (level n).conditional x.1 x.2 1)
  rwa [List.map_singleton, separated_singleton, ← List.append_assoc] at hlist

theorem Reads.raise (h : Reads (level (n + 1)).postfixed ks t 8) :
    Reads (level (n + 1)).power (ks ++ [.symbol .starStar, letter]) (.binary .pow t (.name "a")) 7 where
  reads {_ rest} hs hg := by
    obtain ⟨_, hs, hr⟩ := hs.split
    obtain _ | ⟨hr⟩ := hr
    have hk := h.reads hs (by simp [peek, grip])
    have hl : (level (n + 1)).signed _ = .ok (.name "a", rest) := reads_letter.power.signedHere.reads hr hg
    simp only [Level.power, hk, ok_bind, eat?_here, hl]
    rfl

theorem Reads.compare (h : Reads below.sum ks t 5) :
    Reads below.comparison (ks ++ [.symbol .lt, letter]) (.compare t [(.lt, .name "a")]) 4 where
  reads {_ rest} hs hg := by
    obtain ⟨_, hs, hr⟩ := hs.split
    obtain _ | ⟨hr⟩ := hr
    have hk := h.reads hs (by simp [peek, grip])
    have hl : below.sum _ = .ok (.name "a", rest) :=
      reads_letter.power.signedHere.term.sum.reads hr (by omega)
    simp only [Level.comparison, hk, ok_bind, List.length_cons, Level.links, Level.relation?, hl, links_stop hg]
    rfl

theorem Reads.choice (h : Reads (level (n + 1)).disjunction ks t 2) :
    Reads (level (n + 2)).conditional (ks ++ [.symbol .kwIf, letter, .symbol .kwElse, letter])
      (.conditional (.name "a") t (.name "a")) 1 where
  reads {_ rest} hs hg := by
    obtain ⟨_, hs, hr⟩ := hs.split
    obtain _ | ⟨_ | ⟨_ | ⟨hr⟩⟩⟩ := hr
    have hk := h.reads hs (by simp [peek, grip])
    have hc : ∀ ts o o', (level (n + 1)).disjunction (⟨letter, o⟩ :: ⟨.symbol .kwElse, o'⟩ :: ts) =
        .ok (.name "a", ⟨.symbol .kwElse, o'⟩ :: ts) := fun ts o o' =>
      (disjunction_letter _).reads (.cons .nil) (by simp [peek, grip])
    have hn : (level (n + 1)).conditional _ = .ok (.name "a", rest) :=
      (disjunction_letter (level n)).conditional.reads hr hg
    show (level (n + 1)).conditionalHere _ = _
    simp only [Level.conditionalHere, hk, ok_bind, eat?_here, hc, expect_here, hn]
    rfl

end

/-! ### Loops, as often as there are levels -/

section
variable {ks : List Token.Kind} {t : Expr} {n : Nat}

/-- A reader that goes on with a loop. -/
theorem Reads.looped {first : Reader Expr} {r : Nat → Expr → Reader Expr} {s : Symbol} {wrap : Expr → Expr}
    (h : Reads first ks t (grip (.symbol s) + 1))
    (stop : ∀ n e ts, grip (peek ts) < grip (.symbol s) → r n e ts = .ok (e, ts))
    (turn : ∀ n e ts o o', grip (peek ts) ≤ grip (.symbol s) →
      r (n + 1) e (⟨.symbol s, o⟩ :: ⟨letter, o'⟩ :: ts) = r n (wrap e) ts) :
    Reads (fun ts => first ts >>= fun x => r n x.1 x.2) (ks ++ many n [.symbol s, letter]) (wrap^[n] t)
      (grip (.symbol s)) where
  reads hs hg := by
    obtain ⟨_, hs, hr⟩ := hs.split
    simp only [h.reads hs (Nat.lt_succ_of_le (grip_many hr hg)), ok_bind]
    exact loop_reads stop turn _ _ _ _ hr hg

theorem Reads.members (h : Reads (level n).atom ks t 9) :
    Reads (level n).postfixed (ks ++ many n [.symbol .dot, letter]) ((Expr.member · "a")^[n] t) 8 :=
  h.looped (r := fun n => (level n).postfixRest) (s := .dot) (fun _ _ _ => Level.postfixRest_stop)
    fun n e ts o o' hg => by
      show (memberHere e _ >>= _) = _
      rw [letter, memberHere_name (Nat.lt_succ_of_le hg)]
      rfl

theorem Reads.factors (h : Reads (level n).signedHere ks t 7) :
    Reads (level n).term (ks ++ many n [.symbol .star, letter])
      ((Expr.binary .mul · (.name "a"))^[n] t) 6 :=
  h.looped (r := fun n => (level n).termRest) (s := .star) (fun _ _ _ => Level.termRest_stop)
    fun n e ts o o' hg => by
      show ((level n).signedHere _ >>= _) = _
      rw [reads_letter.power.signedHere.reads (.cons .nil) (Nat.lt_succ_of_le hg)]
      rfl

theorem Reads.summands (h : Reads (level n).term ks t 6) :
    Reads (level n).sum (ks ++ many n [.symbol .plus, letter])
      ((Expr.binary .add · (.name "a"))^[n] t) 5 :=
  h.looped (r := fun n => (level n).sumRest) (s := .plus) (fun _ _ _ => Level.sumRest_stop)
    fun n e ts o o' hg => by
      show ((level n).term _ >>= _) = _
      rw [reads_letter.power.signedHere.term.reads (.cons .nil) (Nat.lt_succ_of_le hg)]
      rfl

theorem Reads.ands (h : Reads (level n).negationHere ks t 4) :
    Reads (level n).conjunction (ks ++ many n [.symbol .kwAnd, letter])
      ((Expr.and · (.name "a"))^[n] t) 3 :=
  h.looped (r := fun n => (level n).andRest) (s := .kwAnd) (fun _ _ _ => Level.andRest_stop)
    fun n e ts o o' hg => by
      show ((level n).negationHere _ >>= _) = _
      rw [reads_letter.power.signedHere.term.sum.comparison.negationHere.reads (.cons .nil) (Nat.lt_succ_of_le hg)]
      rfl

theorem Reads.ors (h : Reads (level n).conjunction ks t 3) :
    Reads (level n).disjunction (ks ++ many n [.symbol .kwOr, letter])
      ((Expr.or · (.name "a"))^[n] t) 2 :=
  h.looped (r := fun n => (level n).orRest) (s := .kwOr) (fun _ _ _ => Level.orRest_stop)
    fun n e ts o o' hg => by
      show ((level n).conjunction _ >>= _) = _
      rw [(conjunction_letter _).reads (.cons .nil) (Nat.lt_succ_of_le hg)]
      rfl

end

/-! ## The deepest tree -/

def deepKinds : Nat → List Token.Kind
  | 0 => []
  | 1 => [letter] ++ [.symbol .lt, letter]
  | n + 2 =>
    [.symbol .lbracket] ++ deepKinds (n + 1) ++ [.symbol .rbracket] ++
      many (n + 1) [.symbol .dot, letter] ++ [.symbol .starStar, letter] ++
      many (n + 1) [.symbol .star, letter] ++ many (n + 1) [.symbol .plus, letter] ++
      [.symbol .lt, letter] ++ many (n + 1) [.symbol .kwAnd, letter] ++
      many (n + 1) [.symbol .kwOr, letter] ++ [.symbol .kwIf, letter, .symbol .kwElse, letter]

def deepTree : Nat → Expr
  | 0 => .name "a"
  | 1 => .compare (.name "a") [(.lt, .name "a")]
  | n + 2 =>
    let base := (Expr.member · "a")^[n + 1] (.list [deepTree (n + 1)])
    let term := (Expr.binary .mul · (.name "a"))^[n + 1] (.binary .pow base (.name "a"))
    let sum := (Expr.binary .add · (.name "a"))^[n + 1] term
    let conjunction := (Expr.and · (.name "a"))^[n + 1] (.compare sum [(.lt, .name "a")])
    .conditional (.name "a") ((Expr.or · (.name "a"))^[n + 1] conjunction) (.name "a")

theorem deep_reads (n : Nat) : Reads (level (n + 1)).conditional (deepKinds (n + 1)) (deepTree (n + 1)) 1 := by
  induction n with
  | zero => exact reads_letter.power.signedHere.term.sum.compare.negationHere.conjunction.disjunction.conditional
  | succ n ih => exact ih.bracketed.members.raise.signedHere.factors.summands.compare.negationHere.ands.ors.choice

theorem depth_iterate (wrap : Expr → Expr) (hw : ∀ e, (wrap e).depth = e.depth + 1) (n : Nat) (e : Expr) :
    (wrap^[n] e).depth = e.depth + n := by
  induction n generalizing e with
  | zero => rfl
  | succ n ih => rw [Function.iterate_succ_apply, ih, hw]; omega

theorem max_leaf (e : Expr) (name : String) : max e.depth (Expr.name name).depth = e.depth := by
  have := e.depth_pos
  simp only [Expr.depth]
  omega

theorem deepTree_depth (n : Nat) : (deepTree (n + 1)).depth = deepest (n + 1) := by
  induction n with
  | zero => rfl
  | succ n ih =>
    have hmember := depth_iterate (Expr.member · "a") fun e => rfl
    have hbinary := fun op => depth_iterate (Expr.binary op · (.name "a")) fun e =>
      congrArg (· + 1) (max_leaf e "a")
    have hand := depth_iterate (Expr.and · (.name "a")) fun e => congrArg (· + 1) (max_leaf e "a")
    have hor := depth_iterate (Expr.or · (.name "a")) fun e => congrArg (· + 1) (max_leaf e "a")
    have hcompare : ∀ e, (Expr.compare e [(.lt, .name "a")]).depth = e.depth + 1 := fun e =>
      congrArg (· + 1) (max_leaf e "a")
    have hpow : ∀ e, (Expr.binary .pow e (.name "a")).depth = e.depth + 1 := fun e =>
      congrArg (· + 1) (max_leaf e "a")
    have hlist : ∀ e, (Expr.list [e]).depth = e.depth + 1 := fun e => by
      simp only [Expr.depth, Expr.depthAll]; omega
    have hchoice : ∀ e, (Expr.conditional (.name "a") e (.name "a")).depth = e.depth + 1 := fun e => by
      have := e.depth_pos
      simp only [Expr.depth]; omega
    simp only [deepTree, hchoice, hor, hand, hcompare, hbinary, hpow, hmember, hlist, ih, deepest]
    omega

theorem plain_letter : Scan.Plain letter := Or.inl rfl

theorem plain_symbol (s : Symbol) : Scan.Plain (.symbol s) := Or.inr ⟨s, rfl⟩

theorem plain_many (n : Nat) (s : Symbol) : ∀ k ∈ many n [.symbol s, letter], Scan.Plain k := by
  intro k hk
  obtain ⟨ks, hks, hk⟩ := List.mem_flatten.1 hk
  obtain rfl := List.eq_of_mem_replicate hks
  simp only [List.mem_cons, List.not_mem_nil, or_false] at hk
  rcases hk with rfl | rfl
  · exact plain_symbol s
  · exact plain_letter

theorem deepKinds_plain (n : Nat) : ∀ k ∈ deepKinds n, Scan.Plain k := by
  induction n using deepKinds.induct with
  | case1 => simp [deepKinds]
  | case2 => simp [deepKinds, plain_letter, plain_symbol]
  | case3 n ih =>
    simp only [deepKinds, List.forall_mem_append]
    simp only [List.forall_mem_cons, List.not_mem_nil, false_imp_iff, implies_true, plain_letter, plain_symbol,
      and_true, true_and]
    exact ⟨⟨⟨⟨⟨ih, plain_many _ _⟩, plain_many _ _⟩, plain_many _ _⟩, plain_many _ _⟩, plain_many _ _⟩

def deepText (n : Nat) : String := String.ofList (Scan.spaced (deepKinds n))

/-- What is as deep as `n` levels allow is accepted within them. -/
theorem deepText_parses (n : Nat) : Expr.parseWithin (n + 1) (deepText (n + 1)) = .ok (deepTree (n + 1)) := by
  obtain ⟨ts, o, hts, hs⟩ := Scan.tokens_spaced (deepKinds_plain (n + 1))
  simp only [Expr.parseWithin, deepText, hts, ok_bind, expressionWithin]
  rw [(deep_reads n).reads hs (by simp [peek, grip])]
  rfl

theorem deepest_mono {n m : Nat} (h : n ≤ m) : deepest n ≤ deepest m :=
  monotone_nat_of_le_succ (fun n => by rw [deepest_succ]; omega) h

theorem depth_bounded_iff (n bound : Nat) :
    (∀ source e, Expr.parseWithin n source = .ok e → e.depth ≤ bound) ↔ deepest n ≤ bound := by
  constructor
  · intro h
    cases n with
    | zero => exact Nat.zero_le _
    | succ n => rw [← deepTree_depth]; exact h _ _ (deepText_parses n)
  · intro h source e he
    exact Nat.le_trans (Expr.parseWithin_depth he) h

end Parse

namespace Expr

open Parse

/-- More levels never change a tree. -/
theorem parseWithin_mono {n m : Nat} {source : String} {e : Expr} (hm : n ≤ m)
    (h : parseWithin n source = .ok e) : parseWithin m source = .ok e := by
  obtain ⟨ts, hts, h⟩ := bind_ok h
  simp only [parseWithin, hts]
  exact expressionWithin_mono hm h

/-- Within `n` levels a bound on the depth of trees holds of every text just if it is at least
`deepest n`. For the parser's own limit that is 41150, so the limit is no bound: it is one only
for the texts that nest six levels at most. -/
theorem depth_limit (n bound : Nat) :
    ((∀ source e, parseWithin n source = .ok e → e.depth ≤ bound) ↔ deepest n ≤ bound) ∧
    ((∀ source e, parseWithin n source = .ok e → e.depth ≤ maxDepth) ↔ n ≤ 6) ∧
    (∀ m source e, n ≤ m → parseWithin n source = .ok e → parseWithin m source = .ok e) ∧
    parse = parseWithin maxDepth ∧ deepest maxDepth = 41150 := by
  refine ⟨depth_bounded_iff n bound, ?_, fun _ _ _ => parseWithin_mono, parse_eq_parseWithin, by decide +kernel⟩
  rw [depth_bounded_iff]
  constructor
  · intro h
    by_contra hn
    have h7 : deepest 7 ≤ deepest n := deepest_mono (by omega)
    exact absurd (Nat.le_trans h7 h) (by decide)
  · intro h
    exact Nat.le_trans (deepest_mono h) (by decide)

/-- The 127 signs take all levels but the outermost and give them back when their operand is
read; then the sum puts one more node on top. -/
theorem accepted_too_deep :
    ∃ e, parse (String.ofList (List.replicate 127 '-' ++ ['a', '+', 'a'])) = .ok e ∧ ¬ e.depth ≤ maxDepth := by
  have h : (match parse (String.ofList (List.replicate 127 '-' ++ ['a', '+', 'a'])) with
      | .ok e => decide (¬ e.depth ≤ maxDepth)
      | .error _ => false) = true := by decide +kernel
  split at h
  · rename_i e he
    exact ⟨e, he, of_decide_eq_true h⟩
  · cases h

end Expr

end MockSchema
