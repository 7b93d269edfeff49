/-
  MockSchema.Proofs.ParserExact — the parser is the grammar, but for its limit on nesting.

  The scanner ends a token list with `eof` and puts it nowhere else (`tokens_ended`), and no rule of
  the grammar takes an `eof` (`Derives.ended`): what a scanned text spells, all its tokens derive.
  `expression_exact` puts soundness, completeness and unambiguity together.
-/

import MockSchema.Proofs.ParserComplete

namespace MockSchema

open Grammar

/-! ## Where a token list ends -/

inductive Ended : List Token → Prop
  | eof {o : Nat} : Ended [⟨.eof, o⟩]
  | cons {kind : Token.Kind} {o : Nat} {ts : List Token} :
      kind ≠ .eof → Ended ts → Ended (⟨kind, o⟩ :: ts)

theorem ended_cons {kind : Token.Kind} {o : Nat} {ts : List Token} (hk : kind ≠ .eof) :
    Ended (⟨kind, o⟩ :: ts) ↔ Ended ts := by
  constructor
  · intro h
    cases h with
    | eof => exact absurd rfl hk
    | cons _ h => exact h
  · exact .cons hk

theorem Ended.eq_eof {ts : List Token} (h : Ended ts) (hp : Parse.peek ts = .eof) :
    ∃ o, ts = [⟨.eof, o⟩] := by
  cases h with
  | eof => exact ⟨_, rfl⟩
  | cons hk _ => exact absurd hp hk

namespace Scan

/-- What a word can begin with. -/
def opensWord (c : Char) : Bool := Text.isLetter c || c == '_'

/-- A word is the only lexeme that can be a name, and none is the end of the text. -/
theorem lexeme_cases {c : Char} {cs : List Char} {o : Nat} {l : Lexeme} (h : lexeme o (c :: cs) = .ok l) :
    opensWord c = true ∧ l = word (c :: cs) ∨ l.kind ≠ .eof ∧ ∀ n, l.kind ≠ .ident n := by
  simp only [lexeme] at h
  split at h
  · right
    unfold number at h
    cases hk : (numeral (c :: cs)).1.kind o with
    | error e => simp [hk, Except.map] at h
    | ok kind =>
      simp only [hk, Except.map, Except.ok.injEq] at h
      subst h
      simp only [Numeral.kind] at hk
      split at hk
      · split at hk
        · cases hk; simp
        · cases hk
      · cases hk; simp
  · split at h
    · right
      obtain ⟨x, _, hx⟩ := bind_ok h
      cases hx; simp
    · split at h
      · rename_i hopens
        cases h
        exact Or.inl ⟨hopens, rfl⟩
      · right
        unfold operator at h
        split at h
        · cases h; simp
        · cases h

theorem lexeme_ne_eof {c : Char} {cs : List Char} {o : Nat} {l : Lexeme}
    (h : lexeme o (c :: cs) = .ok l) : l.kind ≠ .eof := by
  rcases lexeme_cases h with ⟨_, rfl⟩ | ⟨hne, _⟩
  · simp only [word]
    split <;> simp
  · exact hne

theorem tokensFrom_ended {n o : Nat} {cs : List Char} {ts : List Token}
    (h : tokensFrom n o cs = .ok ts) : Ended ts := by
  induction n generalizing o cs ts with
  | zero => cases h; exact .eof
  | succ n ih =>
    simp only [tokensFrom] at h
    split at h
    · cases h; exact .eof
    · rename_i cs' hne
      obtain ⟨l, hl, h⟩ := bind_ok h
      obtain ⟨ts', hts, h⟩ := bind_ok h
      cases h
      cases hc : cs.dropWhile Text.isBlank with
      | nil => exact absurd hc hne
      | cons c cs' => rw [hc] at hl; exact .cons (lexeme_ne_eof hl) (ih hts)

/-- A scanned list has one `eof`, at its end. -/
theorem tokens_ended {source : String} {ts : List Token} (h : tokens source = .ok ts) : Ended ts :=
  tokensFrom_ended h

end Scan

namespace Grammar

theorem Spelled.ended {r : Relation} {ts rest : List Token} (h : Spelled (spelling r) ts rest) :
    Ended ts → Ended rest := by
  intro he
  cases r <;> rcases h with _ | ⟨_ | ⟨_ | _⟩⟩ <;> simp_all [ended_cons]

/-- A phrase never takes the `eof`. -/
theorem Derives.ended {p : Phrase} {ts rest : List Token} {t : p.Tree} (h : Derives p ts t rest) :
    Ended ts → Ended rest := by
  induction h with
  | lastLink hs _ ih => exact fun h => ih (hs.ended h)
  | link hs _ _ ih ih' => exact fun h => ih' (ih (hs.ended h))
  | _ => intro h; simp_all [ended_cons]

theorem Spells.derives {ts : List Token} {e : Expr} (h : Spells ts e) (he : Ended ts) :
    ∃ o, Derives .conditional ts e [⟨.eof, o⟩] := by
  obtain ⟨rest, hd, hp⟩ := h
  obtain ⟨o, rfl⟩ := (hd.ended he).eq_eof hp
  exact ⟨o, hd⟩

end Grammar

namespace Parse

/-- The parser accepts what the grammar spells and nothing else, and with the one tree the grammar
gives it; what else it says to a text that the grammar spells is that it nests too deeply. In a
scanned list that text is all there is before the `eof` at the end. -/
theorem expression_exact (ts : List Token) :
    (∀ e, expression ts = .ok e → Spells ts e) ∧
    (∀ e, Spells ts e → expression ts = .ok e ∨ ∃ o, expression ts = .error ⟨.tooDeep, o⟩) ∧
    (∀ e e', Spells ts e → Spells ts e' → e = e') ∧
    (∀ source, Scan.tokens source = .ok ts →
      ∀ e, Spells ts e ↔ ∃ o, Derives .conditional ts e [⟨.eof, o⟩]) ∧
    SyntaxCause.tooDeep.text = "expression nested too deeply" := by
  refine ⟨fun e => expression_sound, fun e => expression_complete, fun e e' => spells_unique, ?_, rfl⟩
  intro source hs e
  constructor
  · intro h
    exact h.derives (Scan.tokens_ended hs)
  · rintro ⟨o, h⟩
    exact ⟨_, h, rfl⟩

end Parse

end MockSchema
