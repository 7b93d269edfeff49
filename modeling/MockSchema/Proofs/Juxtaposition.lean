/-
  MockSchema.Proofs.Juxtaposition — two texts with blanks between them have the tokens of the one and then of the other.

  `Splits o cs ts` is the scanner without its bound on the number of tokens (`tokensFrom_ok_iff`): blanks, a lexeme,
  blanks, a lexeme, and blanks up to the end. No lexeme reaches into what is written behind its text, if this begins
  with a blank (`Cut.append`), so by induction none of the text's does (`Splits.append`). The tokens behind it
  stand as far to the right as the text is long (`Splits.moved`). Blanks are in no token, and the tree of a text is
  that of its tokens wherever they stand (`expression_kinds`); so how many blanks there are is of no account.
-/

import MockSchema.Proofs.Lexemes
import MockSchema.Proofs.Locality

namespace MockSchema

open Text

/-- The same token, further to the right. -/
def Token.moved (d : Nat) (t : Token) : Token := ⟨t.kind, d + t.offset⟩

namespace Scan

/-! ## Texts as blanks and lexemes -/

def Blank (cs : List Char) : Prop := ∀ c ∈ cs, isBlank c = true

inductive Splits : Nat → List Char → List Token → Prop
  | done {o : Nat} {bs : List Char} : Blank bs → Splits o bs [⟨.eof, o + width bs⟩]
  | token {o : Nat} {bs taken rest : List Char} {c : Char} {k : Token.Kind} {ts : List Token} :
      Blank bs → isBlank c = false → Cut k (c :: taken) rest → Splits (o + width bs + width (c :: taken)) rest ts →
      Splits o (bs ++ (c :: taken ++ rest)) (⟨k, o + width bs⟩ :: ts)

section
variable {o : Nat} {bs cs tail : List Char} {ts us : List Token}

theorem Splits.ne_nil (h : Splits o cs ts) : ts ≠ [] := by
  cases h <;> simp

theorem splits_of_tokensFrom {n : Nat} (hn : cs.length ≤ n) (h : tokensFrom n o cs = .ok ts) : Splits o cs ts := by
  induction n generalizing o cs ts with
  | zero =>
    obtain rfl : cs = [] := List.length_eq_zero_iff.1 (Nat.le_zero.1 hn)
    cases h
    exact .done nofun
  | succ n ih =>
    have hcs : cs.takeWhile isBlank ++ cs.dropWhile isBlank = cs := List.takeWhile_append_dropWhile
    have hblank : Blank (cs.takeWhile isBlank) := fun c hc => List.mem_takeWhile_imp hc
    simp only [tokensFrom] at h
    split at h
    · rename_i hdrop
      cases h
      rw [hdrop, List.append_nil] at hcs
      rw [hcs] at hblank ⊢
      exact .done hblank
    · rename_i hne
      obtain ⟨l, hl, h⟩ := bind_ok h
      obtain ⟨us, hus, h⟩ := bind_ok h
      cases h
      cases hdrop : cs.dropWhile isBlank with
      | nil => exact absurd hdrop hne
      | cons c cs' =>
        rw [hdrop] at hl hcs
        have hc : isBlank c = false := by
          have := List.head?_dropWhile_not isBlank cs
          rw [hdrop] at this
          simpa using this
        obtain ⟨taken, htaken, hwidth, hcut⟩ := cuts_of_lexeme hl
        obtain ⟨c', taken, rfl⟩ := List.exists_cons_of_ne_nil hcut.ne_nil
        obtain rfl : c = c' := (List.cons.inj htaken).1
        have hlength : l.rest.length ≤ n := by
          have := congrArg List.length hcs
          rw [htaken] at this
          simp only [List.length_append, List.length_cons] at this
          omega
        have hrest := ih hlength hus
        rw [hwidth] at hrest
        rw [htaken] at hcs
        have hsplits := Splits.token hblank hc hcut hrest
        rwa [hcs] at hsplits

theorem tokensFrom_of_splits (h : Splits o cs ts) {n : Nat} (hn : cs.length ≤ n) : tokensFrom n o cs = .ok ts := by
  induction h generalizing n with
  | @done o bs hblank =>
    have htake : bs.takeWhile isBlank = bs := List.takeWhile_eq_self_iff.2 hblank
    have hdrop : bs.dropWhile isBlank = [] := List.dropWhile_eq_nil_iff.2 hblank
    cases n with
    | zero => rw [tokensFrom, htake]
    | succ n => simp only [tokensFrom, htake, hdrop]
  | @token o bs taken rest c k ts hblank hc hcut _ ih =>
    have htake : (bs ++ (c :: taken ++ rest)).takeWhile isBlank = bs := by
      rw [List.takeWhile_append_of_pos hblank, List.cons_append, List.takeWhile_cons, hc]
      simp
    have hdrop : (bs ++ (c :: taken ++ rest)).dropWhile isBlank = c :: (taken ++ rest) := by
      rw [List.dropWhile_append_of_pos hblank, List.cons_append, List.dropWhile_cons, hc]
      simp
    have hlexeme := hcut.reads (.closed .done) (o + width bs)
    rw [List.append_nil, List.cons_append] at hlexeme
    simp only [List.length_append, List.length_cons] at hn
    obtain ⟨n, rfl⟩ : ∃ m, n = m + 1 := ⟨n - 1, by omega⟩
    simp only [tokensFrom, htake, hdrop, hlexeme, ok_bind, ih (n := n) (by omega)]
    rfl

theorem tokens_ok_iff {s : String} : tokens s = .ok ts ↔ Splits 0 s.toList ts :=
  ⟨splits_of_tokensFrom (Nat.le_refl _), fun h => tokensFrom_of_splits h (Nat.le_refl _)⟩

/-! ## One text after another -/

theorem Splits.blank (hb : Blank bs) (h : Splits (o + width bs) cs ts) : Splits o (bs ++ cs) ts := by
  cases h with
  | done hb' =>
    have hsplits : Splits o (bs ++ cs) _ := .done (List.forall_mem_append.2 ⟨hb, hb'⟩)
    rwa [width_append, ← Nat.add_assoc] at hsplits
  | @token _ bs' taken rest c k ts hb' hc hcut h =>
    rw [Nat.add_assoc o, ← width_append] at h ⊢
    rw [← List.append_assoc]
    exact .token (List.forall_mem_append.2 ⟨hb, hb'⟩) hc hcut h

/-- All tokens but the end, and behind them those of what is written behind the text. -/
theorem Splits.append (h : Splits o cs ts) (ht : Apart tail) (h' : Splits (o + width cs) tail us) :
    Splits o (cs ++ tail) (ts.dropLast ++ us) := by
  induction h with
  | done hblank => exact .blank hblank h'
  | @token o bs taken rest c k ts hblank hc hcut hrest ih =>
    rw [width_append, width_append, ← Nat.add_assoc, ← Nat.add_assoc] at h'
    rw [List.append_assoc, List.append_assoc, List.dropLast_cons_of_ne_nil hrest.ne_nil]
    exact .token hblank hc (hcut.append ht) (ih h')

theorem Splits.moved (h : Splits o cs ts) (d : Nat) : Splits (d + o) cs (ts.map (Token.moved d)) := by
  induction h with
  | done hblank =>
    rw [List.map_singleton, Token.moved, ← Nat.add_assoc]
    exact .done hblank
  | token hblank hc hcut _ ih =>
    rw [List.map_cons, Token.moved, ← Nat.add_assoc]
    rw [← Nat.add_assoc, ← Nat.add_assoc] at ih
    exact .token hblank hc hcut ih

theorem Cut.ne_eof {k : Token.Kind} {taken rest : List Char} (h : Cut k taken rest) : k ≠ .eof := by
  obtain ⟨c, taken, rfl⟩ := List.exists_cons_of_ne_nil h.ne_nil
  exact lexeme_ne_eof (h.reads (.closed .done) 0)

/-- The end is the last token, behind the last character. -/
theorem Splits.ends (h : Splits o cs ts) :
    ts = ts.dropLast ++ [⟨.eof, o + width cs⟩] ∧ ∀ t ∈ ts.dropLast, t.kind ≠ .eof := by
  induction h with
  | done _ => exact ⟨rfl, nofun⟩
  | token _ _ hcut hrest ih =>
    rw [List.dropLast_cons_of_ne_nil hrest.ne_nil, width_append, width_append, ← Nat.add_assoc, ← Nat.add_assoc]
    exact ⟨congrArg _ ih.1, List.forall_mem_cons.2 ⟨hcut.ne_eof, ih.2⟩⟩

end

theorem width_toList (s : String) : width s.toList = s.utf8ByteSize := by
  have hwidth : ∀ cs : List Char, width cs = (String.ofList cs).utf8ByteSize := fun cs => by
    induction cs with
    | nil => rfl
    | cons c cs ih => rw [width, ih, String.ofList_cons, String.utf8ByteSize_append, String.utf8ByteSize_singleton]
  rw [hwidth, String.ofList_toList]

section
variable {s t w : String} {ss us : List Token}

/-- The tokens of two texts with a blank between them. -/
theorem tokens_juxtaposed (hs : tokens s = .ok ss) (ht : tokens t = .ok us) (hne : w ≠ "") (hw : Blank w.toList) :
    tokens (s ++ w ++ t) = .ok (ss.dropLast ++ us.map (Token.moved (s ++ w).utf8ByteSize)) := by
  obtain ⟨c, cs, hcs⟩ : ∃ c cs, w.toList = c :: cs := List.exists_cons_of_ne_nil (by simpa using hne)
  have hapart : Apart (w.toList ++ t.toList) := by
    rw [hcs] at hw ⊢
    exact .blank (hw c List.mem_cons_self)
  have hsecond := (tokens_ok_iff.1 ht).moved (s ++ w).utf8ByteSize
  rw [← width_toList, String.toList_append, width_append, Nat.add_zero, ← Nat.zero_add (width s.toList)] at hsecond
  have hboth := (tokens_ok_iff.1 hs).append hapart (.blank hw hsecond)
  rw [tokens_ok_iff, String.toList_append, String.toList_append, List.append_assoc, ← width_toList,
    String.toList_append, width_append, ← Nat.zero_add (width s.toList)]
  exact hboth

theorem moved_kinds (d : Nat) (ts : List Token) : (ts.map (Token.moved d)).map (·.kind) = ts.map (·.kind) := by
  rw [List.map_map]
  rfl

end

end Scan

open Scan

/-- Texts with tokens of the same kinds have the same tree, or both have none. -/
theorem Expr.parse_kinds {u v : String} {us vs : List Token} (hu : tokens u = .ok us) (hv : tokens v = .ok vs)
    (h : us.map (·.kind) = vs.map (·.kind)) (e : Expr) : Expr.parse u = .ok e ↔ Expr.parse v = .ok e := by
  simp only [Expr.parse, hu, hv, ok_bind]
  exact ⟨Parse.expression_kinds h, Parse.expression_kinds h.symm⟩

/-- Two texts with blanks between them have the tokens of the first but for its end, where they stand in it, and then
those of the second with its end, further to the right by the first text and the blanks. Every text with tokens of these
kinds, however it is spaced, has the same tree or has none either; so has one with other blanks in this place. -/
theorem Scan.tokens_compositional (s t w : String) (ss us : List Token) (hs : tokens s = .ok ss)
    (ht : tokens t = .ok us) (hne : w ≠ "") (hw : Blank w.toList) :
    ∃ ts, ss = ts ++ [⟨.eof, s.utf8ByteSize⟩] ∧ (∀ x ∈ ts, x.kind ≠ .eof) ∧
      tokens (s ++ w ++ t) = .ok (ts ++ us.map (Token.moved (s ++ w).utf8ByteSize)) ∧
      (∀ v vs, tokens v = .ok vs → vs.map (·.kind) = ts.map (·.kind) ++ us.map (·.kind) →
        ∀ e, Expr.parse v = .ok e ↔ Expr.parse (s ++ w ++ t) = .ok e) ∧
      ∀ w', w' ≠ "" → Blank w'.toList → ∀ e, Expr.parse (s ++ w' ++ t) = .ok e ↔ Expr.parse (s ++ w ++ t) = .ok e := by
  have hkinds : ∀ d, (ss.dropLast ++ us.map (Token.moved d)).map (·.kind) =
      ss.dropLast.map (·.kind) ++ us.map (·.kind) := fun d => by rw [List.map_append, moved_kinds]
  obtain ⟨heof, hinside⟩ := (tokens_ok_iff.1 hs).ends
  rw [Nat.zero_add, width_toList] at heof
  have htokens := tokens_juxtaposed hs ht hne hw
  refine ⟨ss.dropLast, heof, hinside, htokens, fun v vs hv hvs => ?_, fun w' hne' hw' => ?_⟩
  · exact Expr.parse_kinds hv htokens (hvs.trans (hkinds _).symm)
  · exact Expr.parse_kinds (tokens_juxtaposed hs ht hne' hw') htokens ((hkinds _).trans (hkinds _).symm)

/-- Two keywords that are one relation, with a blank of three bytes between them or with one of one byte. -/
theorem Scan.tokens_compositional_of_keywords :
    tokens "a not\u2003in b" =
      .ok [⟨.ident "a", 0⟩, ⟨.symbol .kwNot, 2⟩, ⟨.symbol .kwIn, 8⟩, ⟨.ident "b", 11⟩, ⟨.eof, 12⟩] ∧
    Expr.parse "a not\u2003in b" = .ok (.compare (.name "a") [(.notMem, .name "b")]) := by
  have hfirst : tokens "a not" = .ok [⟨.ident "a", 0⟩, ⟨.symbol .kwNot, 2⟩, ⟨.eof, 5⟩] := rfl
  have hsecond : tokens "in b" = .ok [⟨.symbol .kwIn, 0⟩, ⟨.ident "b", 3⟩, ⟨.eof, 4⟩] := rfl
  have hwide : Blank ['\u2003'] := List.forall_mem_singleton.2 (by decide)
  have hspace : Blank [' '] := List.forall_mem_singleton.2 (by decide)
  obtain ⟨ts, hts, -, htokens, -, hspaces⟩ := tokens_compositional "a not" "in b" "\u2003" _ _ hfirst hsecond
    (by decide) hwide
  obtain rfl : ts = [⟨.ident "a", 0⟩, ⟨.symbol .kwNot, 2⟩] := (List.append_inj_left' hts rfl).symm
  exact ⟨htokens, (hspaces " " (by decide) hspace _).1 rfl⟩

end MockSchema
