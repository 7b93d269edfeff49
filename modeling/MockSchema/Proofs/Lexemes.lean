/-
  MockSchema.Proofs.Lexemes — what a lexeme takes from its text, and where it ends.

  A lexeme takes the beginning of what it is read from (`cut_of_lexeme`) and looks at most two characters further: a
  number at an exponent that it may not have, an operator at a second character, a point at a digit. None of them goes
  on with a blank, with a comma or with a bracket that closes (`Apart`). So where one of these is written
  behind a text, the lexemes of the text stay what they are (`Cut`), however the text ends.
-/

import MockSchema.Proofs.EscapeGrammar
import MockSchema.Proofs.RowName

namespace MockSchema

open Text

theorem Text.isBlank_of_isAlphanumeric {c : Char} (h : isAlphanumeric c = true) : isBlank c = false := by
  rw [isAlphanumeric, Bool.or_eq_true] at h
  rcases h with h | h
  · exact isBlank_of_isLetter h
  · split at h
    · exact Scan.isBlank_of_isDigit h
    · exact inRanges_disjoint (by decide +kernel) h

namespace Scan

/-! ## What no lexeme goes on with -/

/-- The end, a comma or a closing bracket, or a blank. -/
inductive Apart : List Char → Prop
  | closed {cs : List Char} : Closed cs → Apart cs
  | blank {c : Char} {cs : List Char} : isBlank c = true → Apart (c :: cs)

/-- A name, a number or an operator may go on with these, or with an alphanumeric character. -/
def joining : List Char := ['_', '.', '+', '-', '*', '/', '=']

section
variable {c d : Char} {cs tail tail' : List Char}

theorem Apart.append (h : Apart tail) (h' : Apart tail') : Apart (tail ++ tail') := by
  cases h with
  | closed h =>
    cases h with
    | done => exact h'
    | comma cs => exact .closed (.comma _)
    | rbracket cs => exact .closed (.rbracket _)
    | rbrace cs => exact .closed (.rbrace _)
  | blank h => exact .blank h

theorem Apart.not_joining (h : Apart (c :: cs)) : isAlphanumeric c = false ∧ c ∉ joining := by
  cases h with
  | closed h => cases h <;> decide
  | blank h =>
    constructor
    · refine Bool.eq_false_iff.2 fun hc => ?_
      rw [isBlank_of_isAlphanumeric hc] at h
      cases h
    · have hjoining : joining.all (fun d => !isBlank d) = true := by decide
      intro hc
      have := List.all_eq_true.1 hjoining c hc
      rw [h] at this
      cases this

theorem Apart.not_nameChar (h : Apart (c :: cs)) : isNameChar c = false := by
  obtain ⟨halphanumeric, hjoining⟩ := h.not_joining
  have hne : c ≠ '_' := fun e => hjoining (e ▸ by decide)
  simp [isNameChar, halphanumeric, hne]

theorem isNameChar_of_isDigit (h : isDigit c = true) : isNameChar c = true := by
  have hcode : c.toNat < 0x80 := by
    simp only [isDigit, Bool.and_eq_true, decide_eq_true_eq] at h
    have : c.toNat ≤ 57 := h.2
    omega
  simp [isNameChar, isAlphanumeric, if_pos hcode, h]

theorem Apart.not_digit (h : Apart (c :: cs)) : isDigit c = false := by
  refine Bool.eq_false_iff.2 fun hc => ?_
  have := h.not_nameChar
  rw [isNameChar_of_isDigit hc] at this
  cases this

theorem Apart.not_numeralChar (h : Apart (c :: cs)) : isNumeralChar c = false := by
  have hne : c ≠ '_' := fun e => h.not_joining.2 (e ▸ by decide)
  simp [isNumeralChar, h.not_digit, hne]

theorem Apart.not_exponent (h : Apart (c :: cs)) : (c == 'e' || c == 'E') = false := by
  refine Bool.eq_false_iff.2 fun hc => ?_
  have := h.not_nameChar
  simp only [Bool.or_eq_true, beq_iff_eq] at hc
  rcases hc with rfl | rfl <;> exact absurd this (by decide)

/-- If a text does not go on with such a character, it does not with more behind it. -/
theorem Apart.append_ne (h : Apart tail) (hd : d ∈ joining) (hcs : ∀ r, cs ≠ d :: r) (r : List Char) :
    cs ++ tail ≠ d :: r := by
  cases cs with
  | nil =>
    rintro rfl
    exact h.not_joining.2 hd
  | cons c cs =>
    intro he
    exact hcs cs (by rw [(List.cons.inj he).1])

theorem Apart.takeWhile_append {p : Char → Bool} (h : Apart tail) (cs : List Char)
    (hp : ∀ c cs, Apart (c :: cs) → p c = false) :
    (cs ++ tail).takeWhile p = cs.takeWhile p ∧ (cs ++ tail).dropWhile p = cs.dropWhile p ++ tail := by
  induction cs with
  | nil =>
    cases tail with
    | nil => exact ⟨rfl, rfl⟩
    | cons c tail => simp [hp c tail h]
  | cons c cs ih => by_cases hc : p c = true <;> simp [hc, ih]

end

/-! ## Numbers -/

section
variable {cs tail : List Char}

theorem startsWithDigit_append (h : Apart tail) : startsWithDigit (cs ++ tail) = startsWithDigit cs := by
  cases cs with
  | nil =>
    cases tail with
    | nil => rfl
    | cons c tail => exact h.not_digit
  | cons c cs => rfl

theorem exponentMark_append (h : Apart tail) :
    exponentMark (cs ++ tail) = (exponentMark cs).map fun x => (x.1, x.2 ++ tail) := by
  match cs with
  | [] =>
    match tail with
    | [] => rfl
    | [_] => rfl
    | c :: d :: tail => simp [exponentMark, h.not_exponent]
  | [e] =>
    cases tail with
    | nil => rfl
    | cons s tail =>
      have hs : (s == '+' || s == '-') = false := by
        refine Bool.eq_false_iff.2 fun hs => h.not_joining.2 ?_
        simp only [Bool.or_eq_true, beq_iff_eq] at hs
        rcases hs with rfl | rfl <;> decide
      simp [exponentMark, hs, h.not_digit]
  | e :: s :: cs =>
    simp only [List.cons_append, exponentMark, startsWithDigit_append h]
    split
    · split
      · split <;> rfl
      · split <;> rfl
    · rfl

/-- The fraction of a number, if a point follows its digits. -/
def fractionPart : List Char → Option (List Char) × List Char
  | '.' :: r => (some (r.takeWhile isNumeralChar), r.dropWhile isNumeralChar)
  | r => (none, r)

/-- The exponent of a number, if one follows. -/
def exponentPart (cs : List Char) : Option (List Char × List Char) × List Char :=
  match exponentMark cs with
  | some (mark, r) => (some (mark, r.takeWhile isNumeralChar), r.dropWhile isNumeralChar)
  | none => (none, cs)

theorem numeral_eq : numeral cs =
    let (fraction, r) := fractionPart (cs.dropWhile isNumeralChar)
    let (exponent, rest) := exponentPart r
    (⟨cs.takeWhile isNumeralChar, fraction, exponent⟩, rest) := by
  have hfraction : numeral cs = match exponentMark (fractionPart (cs.dropWhile isNumeralChar)).2 with
      | some (mark, r) => (⟨cs.takeWhile isNumeralChar, (fractionPart (cs.dropWhile isNumeralChar)).1,
          some (mark, r.takeWhile isNumeralChar)⟩, r.dropWhile isNumeralChar)
      | none => (⟨cs.takeWhile isNumeralChar, (fractionPart (cs.dropWhile isNumeralChar)).1, none⟩,
          (fractionPart (cs.dropWhile isNumeralChar)).2) := rfl
  rw [hfraction]
  dsimp only
  unfold exponentPart
  split <;> rfl

theorem numeralChars_append (h : Apart tail) : (cs ++ tail).takeWhile isNumeralChar = cs.takeWhile isNumeralChar ∧
    (cs ++ tail).dropWhile isNumeralChar = cs.dropWhile isNumeralChar ++ tail :=
  h.takeWhile_append cs fun _ _ h => h.not_numeralChar

theorem fractionPart_none (h : ∀ r, cs ≠ '.' :: r) : fractionPart cs = (none, cs) := by
  unfold fractionPart
  split
  · exact absurd rfl (h _)
  · rfl

theorem fractionPart_append (h : Apart tail) :
    fractionPart (cs ++ tail) = ((fractionPart cs).1, (fractionPart cs).2 ++ tail) := by
  by_cases hpoint : ∃ r, cs = '.' :: r
  · obtain ⟨r, rfl⟩ := hpoint
    simp only [List.cons_append, fractionPart, numeralChars_append h]
  · have hcs : ∀ r, cs ≠ '.' :: r := fun r hr => hpoint ⟨r, hr⟩
    rw [fractionPart_none hcs, fractionPart_none (h.append_ne (by decide) hcs)]

theorem exponentPart_append (h : Apart tail) :
    exponentPart (cs ++ tail) = ((exponentPart cs).1, (exponentPart cs).2 ++ tail) := by
  unfold exponentPart
  rw [exponentMark_append h]
  cases exponentMark cs with
  | none => rfl
  | some x => simp only [Option.map_some, numeralChars_append h]

/-- A number is read the same with something behind it that no number goes on with. -/
theorem numeral_append (h : Apart tail) (cs : List Char) :
    numeral (cs ++ tail) = ((numeral cs).1, (numeral cs).2 ++ tail) := by
  simp only [numeral_eq, numeralChars_append h, fractionPart_append h, exponentPart_append h]

/-- What a number takes is the beginning of its text, and a byte for each character. -/
def Takes (cs taken rest : List Char) : Prop := cs = taken ++ rest ∧ ∀ c ∈ taken, c.toNat < 128

theorem Takes.append {taken taken' rest rest' : List Char} (h : Takes cs taken rest) (h' : Takes rest taken' rest') :
    Takes cs (taken ++ taken') rest' :=
  ⟨by rw [h.1, h'.1, List.append_assoc], List.forall_mem_append.2 ⟨h.2, h'.2⟩⟩

theorem utf8Size_of_lt {c : Char} (h : c.toNat < 128) : c.utf8Size = 1 := by
  have hval : c.val ≤ 0x7F := by
    rw [UInt32.le_iff_toNat_le]
    show c.toNat ≤ 127
    omega
  simp [Char.utf8Size, hval]

theorem Takes.width {taken rest : List Char} (h : Takes cs taken rest) : width taken = taken.length := by
  obtain ⟨-, h⟩ := h
  induction taken with
  | nil => rfl
  | cons c taken ih =>
    obtain ⟨hc, htaken⟩ := List.forall_mem_cons.1 h
    rw [Scan.width, ih htaken, utf8Size_of_lt hc, List.length_cons, Nat.add_comm]

theorem takes_numeralChars (cs : List Char) : Takes cs (cs.takeWhile isNumeralChar) (cs.dropWhile isNumeralChar) := by
  refine ⟨List.takeWhile_append_dropWhile.symm, fun c hc => ?_⟩
  have hc := List.mem_takeWhile_imp hc
  simp only [isNumeralChar, isDigit, Bool.or_eq_true, Bool.and_eq_true, decide_eq_true_eq, beq_iff_eq] at hc
  rcases hc with hc | rfl
  · have : c.toNat ≤ 57 := hc.2
    omega
  · decide

def fractionText : Option (List Char) → List Char
  | some f => '.' :: f
  | none => []

def exponentText : Option (List Char × List Char) → List Char
  | some (mark, ds) => mark ++ ds
  | none => []

theorem takes_fraction (cs : List Char) : Takes cs (fractionText (fractionPart cs).1) (fractionPart cs).2 := by
  by_cases hpoint : ∃ r, cs = '.' :: r
  · obtain ⟨r, rfl⟩ := hpoint
    have hr := takes_numeralChars r
    exact ⟨congrArg _ hr.1, List.forall_mem_cons.2 ⟨by decide, hr.2⟩⟩
  · rw [fractionPart_none fun r hr => hpoint ⟨r, hr⟩]
    exact ⟨rfl, nofun⟩

theorem takes_exponentMark {mark r : List Char} (h : exponentMark cs = some (mark, r)) : Takes cs mark r := by
  have hmark : ∀ {e : Char}, (e == 'e' || e == 'E') = true → e.toNat < 128 := fun he => by
    simp only [Bool.or_eq_true, beq_iff_eq] at he
    rcases he with rfl | rfl <;> decide
  have hsign : ∀ {s : Char}, (s == '+' || s == '-') = true → s.toNat < 128 := fun hs => by
    simp only [Bool.or_eq_true, beq_iff_eq] at hs
    rcases hs with rfl | rfl <;> decide
  unfold exponentMark at h
  split at h
  · split at h
    · rename_i he
      split at h
      · rename_i hs
        split at h
        · cases h
          exact ⟨rfl, List.forall_mem_cons.2 ⟨hmark he, List.forall_mem_singleton.2 (hsign hs)⟩⟩
        · cases h
      · split at h
        · cases h
          exact ⟨rfl, List.forall_mem_singleton.2 (hmark he)⟩
        · cases h
    · cases h
  · cases h

theorem takes_exponent (cs : List Char) : Takes cs (exponentText (exponentPart cs).1) (exponentPart cs).2 := by
  unfold exponentPart
  cases hmark : exponentMark cs with
  | none => exact ⟨rfl, nofun⟩
  | some x => exact (takes_exponentMark hmark).append (takes_numeralChars x.2)

/-- A number takes the characters that it is spelled with. -/
theorem takes_numeral (cs : List Char) : Takes cs (numeral cs).1.spelling (numeral cs).2 := by
  have hnumber := ((takes_numeralChars cs).append (takes_fraction _)).append (takes_exponent _)
  rw [numeral_eq]
  exact hnumber

/-! ## Operators -/

/-- The operators of one character that are the beginning of a longer one, with what makes them longer. -/
def extended : List (Char × Char × Symbol) := [('*', '*', .star), ('/', '/', .slash), ('<', '=', .lt), ('>', '=', .gt)]

theorem ofPunctuation?_single {c d : Char} {s : Symbol} (hs : (c, d, s) ∈ extended) (h : ∀ r, cs ≠ d :: r) :
    Symbol.ofPunctuation? (c :: cs) = some (s, cs) := by
  simp only [extended, List.mem_cons, Prod.mk.injEq, List.not_mem_nil, or_false] at hs
  rcases hs with ⟨rfl, rfl, rfl⟩ | ⟨rfl, rfl, rfl⟩ | ⟨rfl, rfl, rfl⟩ | ⟨rfl, rfl, rfl⟩ <;>
    simp [Symbol.ofPunctuation?]

/-- An operator takes its text, and is no longer with something behind it that no operator goes on with. -/
theorem ofPunctuation?_append {s : Symbol} {rest : List Char} (hs : Symbol.ofPunctuation? cs = some (s, rest))
    (h : Apart tail) : cs = s.text.toList ++ rest ∧ Symbol.ofPunctuation? (cs ++ tail) = some (s, rest ++ tail) := by
  have hsingle : ∀ c d s, (c, d, s) ∈ extended → (∀ r, rest ≠ d :: r) →
      Symbol.ofPunctuation? (c :: rest ++ tail) = some (s, rest ++ tail) := fun c d s hs hrest =>
    ofPunctuation?_single hs (h.append_ne ((by decide : ∀ x ∈ extended, x.2.1 ∈ joining) _ hs) hrest)
  unfold Symbol.ofPunctuation? at hs
  split at hs <;> cases hs <;> refine ⟨rfl, ?_⟩ <;> try rfl
  all_goals
    rename_i hrest
    exact hsingle _ _ _ (by decide) hrest

/-! ## Lexemes -/

/-- One token with `rest` behind it, and with more behind this. -/
structure Cut (k : Token.Kind) (taken rest : List Char) : Prop where
  ne_nil : taken ≠ []
  reads {tail : List Char} : Apart tail → ∀ o, lexeme o (taken ++ (rest ++ tail)) = .ok ⟨k, width taken, rest ++ tail⟩

theorem Cut.append {k : Token.Kind} {taken rest : List Char} (h : Cut k taken rest) (ht : Apart tail) :
    Cut k taken (rest ++ tail) where
  ne_nil := h.ne_nil
  reads htail o := by
    rw [List.append_assoc]
    exact h.reads (ht.append htail) o

/-- What is read from the beginning of a text is a token, and stays one however the text ends. -/
def Cuts (cs : List Char) (l : Lexeme) : Prop :=
  ∃ taken, cs = taken ++ l.rest ∧ l.width = width taken ∧ Cut l.kind taken l.rest

section
variable {c : Char} {o : Nat} {l : Lexeme}

theorem Cuts.mk (taken : List Char) (hcs : cs = taken ++ l.rest) (hne : taken ≠ []) (hwidth : l.width = width taken)
    (h : ∀ tail o, Apart tail → lexeme o (cs ++ tail) = .ok ⟨l.kind, l.width, l.rest ++ tail⟩) : Cuts cs l := by
  refine ⟨taken, hcs, hwidth, hne, fun {tail} htail o => ?_⟩
  rw [← List.append_assoc, ← hcs, ← hwidth]
  exact h tail o htail

theorem Numeral.kind_offset {n : Numeral} {k : Token.Kind} (h : n.kind o = .ok k) (o' : Nat) : n.kind o' = .ok k := by
  unfold Numeral.kind at h ⊢
  split at h
  · dsimp only at h ⊢
    split at h
    · rename_i hle
      simpa only [if_pos hle] using h
    · cases h
  · exact h

theorem numeral_spelling_ne_nil (hc : (isDigit c || (c == '.' && startsWithDigit cs)) = true) :
    (numeral (c :: cs)).1.spelling ≠ [] := by
  rw [numeral_eq]
  show (c :: cs).takeWhile isNumeralChar ++ fractionText (fractionPart ((c :: cs).dropWhile isNumeralChar)).1 ++ _ ≠ []
  by_cases hdigit : isDigit c = true
  · have hchar : isNumeralChar c = true := by rw [isNumeralChar, hdigit, Bool.true_or]
    simp [hchar]
  · have hpoint := (Bool.and_eq_true_iff.1 ((Bool.or_eq_true_iff.1 hc).resolve_left hdigit)).1
    obtain rfl : c = '.' := eq_of_beq hpoint
    simp [show isNumeralChar '.' = false from rfl, fractionPart, fractionText]

theorem cuts_number (hc : (isDigit c || (c == '.' && startsWithDigit cs)) = true) (h : number o (c :: cs) = .ok l) :
    Cuts (c :: cs) l := by
  have hspelled := takes_numeral (c :: cs)
  unfold number at h
  dsimp only at h
  cases hk : (numeral (c :: cs)).1.kind o with
  | error e => rw [hk] at h; cases h
  | ok k =>
    rw [hk] at h
    cases h
    refine .mk _ hspelled.1 (numeral_spelling_ne_nil hc) hspelled.width.symm fun tail o' htail => ?_
    have happend := numeral_append htail (c :: cs)
    rw [List.cons_append] at happend ⊢
    simp only [lexeme, startsWithDigit_append htail, hc, if_true, number, happend, Numeral.kind_offset hk]
    rfl

theorem cuts_string (hc : IsQuote c) (h : string c o cs = .ok l) : Cuts (c :: cs) l := by
  obtain ⟨b, s, hcs, hpieces, hl⟩ := string_ok hc h
  refine .mk (c :: b ++ [c]) (by rw [hcs]; simp) (by simp) (by rw [hl]) fun tail o' _ => ?_
  have hread := string_of_pieces hc hpieces o' (l.rest ++ tail)
  have hlexeme : ∀ cs, lexeme o' (c :: cs) = string c o' cs := fun cs => by
    rcases hc with rfl | rfl <;> rfl
  rw [hcs, List.cons_append, List.append_assoc, List.cons_append, hlexeme, hread, hl]

theorem cuts_word (hc : opensWord c = true) : Cuts (c :: cs) (word (c :: cs)) := by
  refine .mk _ List.takeWhile_append_dropWhile.symm ?_ rfl fun tail o' htail => ?_
  · simp [isNameChar_of_opensWord hc]
  · have happend := htail.takeWhile_append (c :: cs) fun _ _ => Apart.not_nameChar
    rw [List.cons_append, lexeme_word hc]
    simp only [word, ← List.cons_append, happend]

theorem cuts_operator (h : operator o cs = .ok l)
    (hlexeme : ∀ tail o', Apart tail → lexeme o' (cs ++ tail) = operator o' (cs ++ tail)) : Cuts cs l := by
  unfold operator at h
  split at h
  · rename_i s rest hs
    cases h
    have hspelled := (ofPunctuation?_append hs (.closed .done)).1
    have hascii : ∀ s : Symbol, s.text.toList ≠ [] ∧ width s.text.toList = s.text.length := fun s => by
      cases s <;> decide
    refine .mk _ hspelled (hascii s).1 (hascii s).2.symm fun tail o' htail => ?_
    rw [hlexeme tail o' htail, operator, (ofPunctuation?_append hs htail).2]
  · cases h

/-- A lexeme takes at least a character, and no more if something follows that none goes on with. -/
theorem cuts_of_lexeme (h : lexeme o (c :: cs) = .ok l) : Cuts (c :: cs) l := by
  simp only [lexeme] at h
  split at h
  · exact cuts_number ‹_› h
  · rename_i hnumber
    split at h
    · rename_i hquote
      simp only [Bool.or_eq_true, beq_iff_eq] at hquote
      exact cuts_string hquote h
    · rename_i hquote
      split at h
      · rename_i hword
        cases h
        exact cuts_word hword
      · rename_i hword
        refine cuts_operator h fun tail o' htail => ?_
        simp only [List.cons_append, lexeme, startsWithDigit_append htail, if_neg hnumber, if_neg hquote, if_neg hword]

end

end

end Scan

end MockSchema
