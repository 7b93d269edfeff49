/-
  MockSchema.Proofs.RowName — the name that a node gives its rows, and what expressions make of it.

  A node may name its rows by any word. An expression reads as a name what begins with a letter or `_`, goes on with
  letters, numbers and `_`, and is no keyword (`IsIdentifier`). The two differ: `1` and `in` are words, and so
  is a letter with a mark after it.

  Every name in a compiled expression is an identifier (`Formula.compile_names`). So a row's name that is one stands
  for the row in the expressions of its node, and a name that is none makes no difference to any
  expression (`row_name_reached`).
-/

import Mathlib.Data.List.TakeWhile
import MockSchema.Proofs.Confinement
import MockSchema.Proofs.ParserExact
import MockSchema.Proofs.Validation
import MockSchema.Proofs.WrittenTokens

namespace MockSchema

/-! ## Classes of characters -/

namespace Text

/-- Below U+0080 the letters are those of the alphabet; above, the table tells. -/
theorem isLetter_cases {c : Char} (h : isLetter c = true) :
    (65 ≤ c.toNat ∧ c.toNat ≤ 90 ∨ 97 ≤ c.toNat ∧ c.toNat ≤ 122) ∨
      128 ≤ c.toNat ∧ inRanges letterRanges c.toNat = true := by
  unfold isLetter at h
  split at h
  · left
    have halpha : (c.isUpper || c.isLower) = true := h
    rcases Bool.or_eq_true_iff.1 halpha with h | h
    · exact Or.inl (of_decide_eq_true h)
    · obtain ⟨hlow, hhigh⟩ := Bool.and_eq_true_iff.1 h
      exact Or.inr ⟨of_decide_eq_true hlow, of_decide_eq_true hhigh⟩
  · exact Or.inr ⟨by omega, h⟩

/-- Two tables have no number in common if no range of one meets a range of the other. -/
theorem inRanges_disjoint {rs ss : List (Nat × Nat)}
    (h : (rs.all fun r => ss.all fun s => decide (r.2 < s.1 ∨ s.2 < r.1)) = true) {n : Nat}
    (hn : inRanges rs n = true) : inRanges ss n = false := by
  obtain ⟨r, hr, hrn⟩ := List.any_eq_true.1 hn
  refine List.any_eq_false.2 fun s hs hsn => ?_
  have hapart := of_decide_eq_true (List.all_eq_true.1 (List.all_eq_true.1 h r hr) s hs)
  simp only [Bool.and_eq_true, decide_eq_true_eq] at hrn hsn
  omega

theorem isBlank_of_isLetter {c : Char} (h : isLetter c = true) : isBlank c = false := by
  rcases isLetter_cases h with h | ⟨_, h⟩
  · simp [isBlank, inRanges, blankRanges]
    omega
  · exact inRanges_disjoint (by decide +kernel) h

end Text

/-! ## Identifiers -/

/-- What an expression reads as a name. -/
structure IsIdentifier (a : String) : Prop where
  begins : ∃ c cs, a.toList = c :: cs ∧ Scan.opensWord c = true
  chars : ∀ c ∈ a.toList, Scan.isNameChar c = true
  free : Symbol.ofWord? a = none

namespace Scan

open Text

section
variable {c : Char} {cs : List Char} {o : Nat}

theorem isNameChar_of_opensWord (h : opensWord c = true) : isNameChar c = true := by
  rw [opensWord, Bool.or_eq_true] at h
  rw [isNameChar, isAlphanumeric]
  rcases h with h | h <;> simp [h]

theorem isBlank_of_opensWord (h : opensWord c = true) : isBlank c = false := by
  rw [opensWord, Bool.or_eq_true] at h
  rcases h with h | h
  · exact isBlank_of_isLetter h
  · rw [eq_of_beq h]; decide

/-- No number and no string begins as a word does. -/
theorem lexeme_word (h : opensWord c = true) : lexeme o (c :: cs) = .ok (word (c :: cs)) := by
  have hcode : 128 ≤ c.toNat ∨ 65 ≤ c.toNat ∧ c.toNat ≤ 122 := by
    have h' := h
    rw [opensWord, Bool.or_eq_true] at h'
    rcases h' with h' | h'
    · have := isLetter_cases h'; omega
    · rw [eq_of_beq h']; decide
  have hdigit : isDigit c = false := by
    rw [Bool.eq_false_iff]
    intro hd
    simp only [isDigit, Bool.and_eq_true, decide_eq_true_eq] at hd
    have hd : 48 ≤ c.toNat ∧ c.toNat ≤ 57 := hd
    omega
  have hne : ∀ d : Char, d.toNat < 65 → (c == d) = false := by
    intro d hd
    refine beq_eq_false_iff_ne.2 fun e => ?_
    subst e
    omega
  rw [opensWord] at h
  simp only [lexeme, hdigit, hne '.' (by decide), hne '\x27' (by decide), hne '"' (by decide), h, Bool.false_and,
    Bool.or_self, Bool.false_eq_true, if_false, if_true]

/-- A word that is read as a name is an identifier. -/
theorem word_identifier {n : String} (h : opensWord c = true) (hk : (word (c :: cs)).kind = .ident n) :
    IsIdentifier n := by
  simp only [word] at hk
  split at hk
  · cases hk
  · rename_i hfree
    cases hk
    refine ⟨⟨c, cs.takeWhile isNameChar, ?_, h⟩, ?_, hfree⟩
    · rw [String.toList_ofList, List.takeWhile_cons, isNameChar_of_opensWord h, if_pos rfl]
    · rw [String.toList_ofList]
      exact fun d hd => List.mem_takeWhile_imp hd

theorem lexeme_identifier {l : Lexeme} {n : String} (h : lexeme o (c :: cs) = .ok l) (hk : l.kind = .ident n) :
    IsIdentifier n := by
  rcases lexeme_cases h with ⟨hopens, rfl⟩ | ⟨_, hne⟩
  · exact word_identifier hopens hk
  · exact absurd hk (hne n)

end

end Scan

/-! ## Names in a tree -/

namespace Grammar

/-- The names in what a phrase is read as. -/
def Phrase.names : (p : Phrase) → p.Tree → List String
  | .links => Expr.namesLinks
  | .strings => fun _ => []
  | .bound => Expr.namesBound
  | .items _ => Expr.namesAll
  | .entries => Expr.namesPairs
  | .conditional | .disjunction | .conjunction | .negation | .comparison | .sum | .term | .signed | .power
  | .postfixed | .atom => Expr.names

section
variable {Q : String → Prop} {ts rest : List Token}

/-- All names among the tokens are like this. -/
def Named (Q : String → Prop) (ts : List Token) : Prop := ∀ n o, ⟨.ident n, o⟩ ∈ ts → Q n

theorem named_cons {t : Token} : Named Q (t :: ts) ↔ (∀ n o, t = ⟨.ident n, o⟩ → Q n) ∧ Named Q ts := by
  simp only [Named, List.mem_cons]
  constructor
  · intro h
    exact ⟨fun n o e => h n o (Or.inl e.symm), fun n o hm => h n o (Or.inr hm)⟩
  · rintro ⟨ht, hts⟩ n o (hm | hm)
    · exact ht n o hm.symm
    · exact hts n o hm

theorem Spelled.named {ks : List Token.Kind} (h : Spelled ks ts rest) : Named Q ts → Named Q rest := by
  induction h with
  | nil => exact id
  | cons _ ih => exact fun hts => ih (named_cons.1 hts).2

/-- A tree has no names but those among its tokens; what is left after them is looked at next. -/
theorem Derives.named {p : Phrase} {t : p.Tree} (h : Derives p ts t rest) :
    Named Q ts → (∀ n ∈ p.names t, Q n) ∧ Named Q rest := by
  induction h with
  | lastLink hs _ ih =>
    intro hts
    simpa [Phrase.names, Expr.namesLinks] using ih (hs.named hts)
  | link hs _ _ ih ih' =>
    intro hts
    obtain ⟨hn, hmid⟩ := ih (hs.named hts)
    obtain ⟨hn', hrest⟩ := ih' hmid
    exact ⟨List.forall_mem_append.2 ⟨hn, hn'⟩, hrest⟩
  | _ =>
    intro hts
    simp_all [named_cons, Phrase.names, Expr.names, Expr.namesAll, Expr.namesPairs, Expr.namesBound, or_imp, forall_and]

end

end Grammar

open Grammar

theorem Scan.tokensFrom_named {k o : Nat} {cs : List Char} {ts : List Token} (h : tokensFrom k o cs = .ok ts) :
    Named IsIdentifier ts := by
  induction k generalizing o cs ts with
  | zero => cases h; exact named_cons.2 ⟨nofun, nofun⟩
  | succ k ih =>
    simp only [tokensFrom] at h
    split at h
    · cases h; exact named_cons.2 ⟨nofun, nofun⟩
    · rename_i hne
      obtain ⟨l, hl, h⟩ := bind_ok h
      obtain ⟨rest, hrest, h⟩ := bind_ok h
      cases h
      obtain ⟨c, cs', hc⟩ := List.exists_cons_of_ne_nil hne
      rw [hc] at hl
      refine named_cons.2 ⟨fun n o e => ?_, ih hrest⟩
      exact lexeme_identifier hl (Token.mk.inj e).1

theorem Formula.compile_names {s : String} {f : Formula} (h : Formula.compile s = .ok f) :
    ∀ n ∈ f.names, IsIdentifier n := by
  obtain ⟨e, he, h⟩ := bind_ok h
  obtain ⟨ts, hts, he⟩ := bind_ok he
  cases h
  obtain ⟨rest, hd, _⟩ := Parse.expression_sound he
  exact (hd.named (Scan.tokensFrom_named hts)).1

/-! ## Reading an identifier -/

theorem Scan.scans_identifier {a : String} (h : IsIdentifier a) : Scans (· = []) a.toList [.ident a] := by
  obtain ⟨c, cs, ha, hc⟩ := h.begins
  rw [ha]
  refine .lexeme (isBlank_of_opensWord hc) fun o tail ht => ⟨(word (c :: cs)).width, ?_⟩
  have hall : ∀ d ∈ c :: cs, isNameChar d = true := by rw [← ha]; exact h.chars
  have htake : (c :: cs).takeWhile isNameChar = c :: cs := List.takeWhile_eq_self_iff.2 hall
  have hdrop : (c :: cs).dropWhile isNameChar = [] := List.dropWhile_eq_nil_iff.2 hall
  have hname : String.ofList (c :: cs) = a := by rw [← ha, String.ofList_toList]
  rw [ht, List.append_nil, lexeme_word hc]
  simp only [word, htake, hdrop, hname, h.free]

/-- An identifier compiles to its name, and what compiles to its own name is an identifier. -/
theorem Formula.compile_identifier {a : String} : Formula.compile a = .ok ⟨a, .name a⟩ ↔ IsIdentifier a := by
  constructor
  · intro h
    exact compile_names h a (List.mem_singleton_self a)
  · intro h
    obtain ⟨ts, o, hts, hs⟩ := (Scan.scans_identifier h).tokens rfl
    have hname : Parse.Reads (Parse.level 127).atom [.ident a] (.name a) 9 := Parse.reads_name a
    have hread := hname.postfixed.power.signedHere.above.reads hs (by simp [Parse.peek, grip])
    have hparse : Expr.parse a = .ok (.name a) := by
      simp only [Expr.parse, hts, ok_bind, Parse.expression, maxDepth, hread]
      rfl
    simp only [Formula.compile, hparse, ok_bind]
    rfl

/-! ## Names of rows -/

namespace Planning

theorem binding_names (node : Row) :
    Ensures (binding node) (fun b => ∀ a, b.rowName = some a → IsName a) fun _ => True := by
  unfold binding
  split
  · exact .malformed trivial
  · split
    · rename_i hn
      refine .pure fun a ha => ?_
      cases ha
      exact isName_iff.1 hn
    · exact .malformed trivial
  · exact .malformed trivial
  · split
    · rename_i p hp
      refine .pure fun a ha => ?_
      obtain ⟨outer, inner⟩ := p
      cases ha
      exact (ofText?_pair.1 hp).1
    · exact .malformed trivial
  · exact .malformed trivial
  · exact .pure nofun

/-- The name can be given to the rows of a node, by `__name__` or by `__from__`. -/
def NamesRows (a : String) : Prop := ∃ node c b c', binding node c = (.ok b, c') ∧ b.rowName = some a

theorem namesRows_iff {a : String} : NamesRows a ↔ IsName a := by
  constructor
  · rintro ⟨node, c, b, c', hb, ha⟩
    exact (binding_names node).ok hb a ha
  · intro h
    refine ⟨[(Keyword.name, .str a)], [], .name a, [], ?_, rfl⟩
    have hn : isName a = true := isName_iff.2 h
    simp [binding, Dict.get?, Keyword.name, Keyword.entity, hn]
    rfl

/-- A node takes any word as the name of its rows. The word compiles to this name just if it is an identifier: it then
has the row as its value in the scope of the node's fields, its filter and its sort key. If it is none, no
expression has another value than it would have without the name. -/
theorem row_name_reached (a : String) :
    (NamesRows a ↔ IsName a) ∧
    (Formula.compile a = .ok ⟨a, .name a⟩ ↔ IsIdentifier a) ∧
    (IsIdentifier a → ∀ (env : Env) row f, Formula.compile a = .ok f →
      f.eval (env.withRow (some a) row) = .ok (.object row)) ∧
    (¬ IsIdentifier a → ∀ (env : Env) row s f, Formula.compile s = .ok f →
      f.eval (env.withRow (some a) row) = f.eval (env.withRow none row)) := by
  refine ⟨namesRows_iff, Formula.compile_identifier, fun h env row f hf => ?_, fun h env row s f hf => ?_⟩
  · rw [Formula.compile_identifier.2 h] at hf
    cases hf
    simp [Formula.eval, Expr.eval, Env.withRow]
  · refine Expr.eval_agree f.tree fun n hn => ?_
    have hne : a ≠ n := fun e => h (e ▸ Formula.compile_names hf n hn)
    simp [Env.withRow, hne]

/-- A number, a keyword and a letter with an accent after it: each names the rows of a node, and is compiled to
something else or to nothing. -/
theorem row_names_not_read :
    (NamesRows "1" ∧ Formula.compile "1" = .ok ⟨"1", .literal (.int 1)⟩) ∧
    (NamesRows "in" ∧ (Formula.compile "in").toOption.isNone) ∧
    (NamesRows "e\u0301" ∧ (Formula.compile "e\u0301").toOption.isNone) := by
  refine ⟨⟨namesRows_iff.2 (isName_iff.1 (by decide)), rfl⟩, ⟨namesRows_iff.2 (isName_iff.1 (by decide)), rfl⟩,
    ⟨namesRows_iff.2 (isName_iff.1 (by decide +kernel)), by decide +kernel⟩⟩

end Planning

end MockSchema
