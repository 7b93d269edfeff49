/-
  MockSchema.Proofs.TrailingSpace — JSON text with spaces after it.

  A reader that goes on over a longer text reads the same and leaves the spaces behind what it left before
  (`Trails`). The bound on the number of elements, which is the length of the text, grows with it; it does not
  matter as soon as it is the length of what is left (`elements_trail`), because no reader leaves a longer text
  than it was given (`Shrinks`).

  So a text is read as it is read without the spaces at its end (`read_spaced`).
-/

import Mathlib.Data.List.TakeWhile
import MockSchema.Json.Reader

namespace MockSchema.Json

open MockSchema.Text MockSchema.Decimal

def Spaces (w : List Char) : Prop := ∀ c ∈ w, isSpace c = true

/-- The same reading, with more text after what is left. -/
def leaving {α : Type} (w : List Char) (o : Option (α × List Char)) : Option (α × List Char) :=
  o.map fun p => (p.1, p.2 ++ w)

section
variable {α κ : Type} {w : List Char} {k : Nat} {item item' : Reader α}

@[simp] theorem leaving_none : leaving w (none : Option (α × List Char)) = none := rfl

@[simp] theorem leaving_some (p : α × List Char) : leaving w (some p) = some (p.1, p.2 ++ w) := rfl

def Shrinks (r : Reader α) : Prop := ∀ cs v rest, r cs = some (v, rest) → rest.length < cs.length

/-- On a text of at most `k` characters, and spaces after it, one reader does what the other does without them. -/
def Trails (w : List Char) (k : Nat) (r r' : Reader α) : Prop :=
  ∀ cs : List Char, cs.length ≤ k → r' (cs ++ w) = leaving w (r cs)

theorem Shrinks.nil {r : Reader α} (h : Shrinks r) : r [] = none := by
  cases hr : r [] with
  | none => rfl
  | some p => exact absurd (h [] p.1 p.2 hr) (Nat.not_lt_zero _)

/-! ## Single characters -/

theorem space_cases {c : Char} (h : isSpace c = true) : c = ' ' ∨ c = '\n' ∨ c = '\t' ∨ c = '\r' := by
  simp only [isSpace, Bool.or_eq_true, beq_iff_eq] at h
  rcases h with ((h | h) | h) | h
  · exact Or.inl h
  · exact Or.inr (Or.inl h)
  · exact Or.inr (Or.inr (Or.inl h))
  · exact Or.inr (Or.inr (Or.inr h))

theorem isDigit_of_space {c : Char} (h : isSpace c = true) : isDigit c = false := by
  rcases space_cases h with rfl | rfl | rfl | rfl <;> decide

theorem ne_of_space {c d : Char} (h : isSpace c = true) (hd : isSpace d = false) : c ≠ d := by
  rintro rfl
  rw [h] at hd
  cases hd

/-- Spaces at the end give a text no new beginning. -/
theorem append_ne_cons (hw : Spaces w) {d : Char} (hd : isSpace d = false) {cs : List Char}
    (h : ∀ ds, cs ≠ d :: ds) (ds : List Char) : cs ++ w ≠ d :: ds := by
  intro e
  cases cs with
  | nil =>
    rw [List.nil_append] at e
    exact ne_of_space (hw d (e ▸ List.mem_cons_self)) hd rfl
  | cons c cs => exact h cs (by rw [(List.cons.inj e).1])

theorem skipSpace_length (cs : List Char) : (skipSpace cs).length ≤ cs.length := List.length_dropWhile_le ..

theorem skipSpace_spaces (hw : Spaces w) : skipSpace w = [] := List.dropWhile_eq_nil_iff.2 hw

/-- Spaces at the end are skipped with those at the beginning if there is nothing in between. -/
theorem skipSpace_append (hw : Spaces w) (cs : List Char) :
    skipSpace cs = [] ∧ skipSpace (cs ++ w) = [] ∨
      skipSpace cs ≠ [] ∧ skipSpace (cs ++ w) = skipSpace cs ++ w := by
  rw [skipSpace, skipSpace, List.dropWhile_append]
  by_cases he : (cs.dropWhile isSpace) = []
  · left
    refine ⟨he, ?_⟩
    rw [if_pos (by simp [he])]
    exact skipSpace_spaces hw
  · right
    refine ⟨he, ?_⟩
    rw [if_neg (by simpa using he)]

theorem after_append (hw : Spaces w) {ws : List Char} (hws : ws.any isSpace = false) (cs : List Char) :
    after ws (cs ++ w) = (after ws cs).map (· ++ w) := by
  induction ws generalizing cs with
  | nil => rfl
  | cons x ws ih =>
    rw [List.any_cons, Bool.or_eq_false_iff] at hws
    obtain ⟨hx, hrest⟩ := hws
    cases cs with
    | nil =>
      cases w with
      | nil => rfl
      | cons c w =>
        have hne : x ≠ c := fun e => ne_of_space (hw c List.mem_cons_self) hx e.symm
        simp [after, hne]
    | cons c cs =>
      by_cases e : x = c
      · simp [after, e, ih hrest]
      · simp [after, e]

theorem after_length {ws cs rest : List Char} (h : after ws cs = some rest) : rest.length ≤ cs.length := by
  induction ws generalizing cs with
  | nil => cases h; exact Nat.le_refl _
  | cons x ws ih =>
    cases cs with
    | nil => cases h
    | cons c cs =>
      simp only [after] at h
      split at h
      · have := ih h
        simp only [List.length_cons]
        omega
      · cases h

/-! ## Strings -/

theorem quoted_spaces (hw : Spaces w) (done : List Char) : quoted done w = none := by
  induction w generalizing done with
  | nil => rfl
  | cons c w ih =>
    have hc : isSpace c = true := hw c List.mem_cons_self
    have hrest : Spaces w := fun d hd => hw d (List.mem_cons_of_mem _ hd)
    rcases space_cases hc with rfl | rfl | rfl | rfl <;> exact ih hrest _

theorem quoted_cons {c : Char} (hq : c ≠ '"') (hb : c ≠ '\\') (done cs : List Char) :
    quoted done (c :: cs) = quoted (c :: done) cs := by
  rw [quoted]
  · exact hq
  · intro d ds e
    exact absurd e hb

theorem quoted_append (hw : Spaces w) (done cs : List Char) :
    quoted done (cs ++ w) = leaving w (quoted done cs) := by
  fun_induction quoted done cs with
  | case1 done => exact quoted_spaces hw done
  | case2 done cs => rfl
  | case3 done c cs ih => exact ih
  | case4 done c cs hq hb ih =>
    by_cases hc : c = '\\'
    · subst hc
      -- a backslash at the very end takes a space along, and the quote is missing all the same
      cases cs with
      | cons d cs => exact absurd rfl (hb d cs rfl)
      | nil =>
        cases w with
        | nil => rfl
        | cons d w => exact quoted_spaces (fun x hx => hw x (List.mem_cons_of_mem _ hx)) _
    · rw [List.cons_append, quoted_cons hq hc]
      exact ih

theorem quoted_length {done cs inner rest : List Char} (h : quoted done cs = some (inner, rest)) :
    rest.length < cs.length := by
  fun_induction quoted done cs with
  | case1 done => cases h
  | case2 done cs =>
    cases h
    simp
  | case3 done c cs ih =>
    have := ih h
    simp only [List.length_cons]
    omega
  | case4 done c cs hq hb ih =>
    have := ih h
    simp only [List.length_cons]
    omega

theorem string_other {cs : List Char} (h : ∀ ds, cs ≠ '"' :: ds) : string cs = none := by
  unfold string
  split
  · rename_i ds
    exact absurd rfl (h ds)
  · rfl

theorem string_append (hw : Spaces w) (cs : List Char) : string (cs ++ w) = leaving w (string cs) := by
  by_cases hq : ∃ ds, cs = '"' :: ds
  · obtain ⟨ds, rfl⟩ := hq
    simp only [List.cons_append, string, quoted_append hw]
    cases quoted [] ds with
    | none => rfl
    | some p =>
      simp only [leaving_some, Option.bind_eq_bind, Option.bind_some]
      cases meant p.1.length [] p.1 <;> rfl
  · have hcs : ∀ ds, cs ≠ '"' :: ds := fun ds e => hq ⟨ds, e⟩
    rw [string_other hcs, string_other (append_ne_cons hw (by decide) hcs)]
    rfl

theorem shrinks_string : Shrinks string := by
  intro cs v rest h
  unfold string at h
  split at h
  · rename_i ds
    obtain ⟨⟨inner, r⟩, hq, h⟩ := Option.bind_eq_some_iff.1 h
    obtain ⟨m, _, h⟩ := Option.bind_eq_some_iff.1 h
    cases h
    have := quoted_length hq
    simp only [List.length_cons]
    omega
  · cases h

/-! ## Numbers -/

theorem takeWhile_digits (hw : Spaces w) (cs : List Char) : (cs ++ w).takeWhile isDigit = cs.takeWhile isDigit := by
  induction cs with
  | nil =>
    cases w with
    | nil => rfl
    | cons c w => rw [List.nil_append, List.takeWhile_cons, isDigit_of_space (hw c List.mem_cons_self)]; rfl
  | cons c cs ih =>
    rw [List.cons_append, List.takeWhile_cons, List.takeWhile_cons, ih]

theorem dropWhile_digits (hw : Spaces w) (cs : List Char) :
    (cs ++ w).dropWhile isDigit = cs.dropWhile isDigit ++ w := by
  induction cs with
  | nil =>
    cases w with
    | nil => rfl
    | cons c w => rw [List.nil_append, List.dropWhile_cons, isDigit_of_space (hw c List.mem_cons_self)]; rfl
  | cons c cs ih =>
    rw [List.cons_append, List.dropWhile_cons, List.dropWhile_cons, ih]
    split <;> rfl

theorem someDigits_append (hw : Spaces w) (cs : List Char) : someDigits (cs ++ w) = leaving w (someDigits cs) := by
  simp only [someDigits, takeWhile_digits hw, dropWhile_digits hw]
  split <;> rfl

theorem someDigits_length {cs ds rest : List Char} (h : someDigits cs = some (ds, rest)) : rest.length < cs.length := by
  simp only [someDigits] at h
  split at h
  · cases h
  · rename_i hne
    cases h
    have hsum : (cs.takeWhile isDigit).length + (cs.dropWhile isDigit).length = cs.length := by
      rw [← List.length_append, List.takeWhile_append_dropWhile]
    have hpos : 0 < (cs.takeWhile isDigit).length := List.length_pos_iff.2 (by simpa using hne)
    omega

/-- A zero, and a digit after it. -/
def zeroLed : List Char → Bool
  | c :: d :: _ => c == '0' && isDigit d
  | _ => false

theorem wholePart_eq (cs : List Char) : wholePart cs = if zeroLed cs then none else someDigits cs := by
  unfold wholePart
  split
  · rename_i c r
    by_cases hc : isDigit c = true
    · simp [zeroLed, hc]
    · simp [zeroLed, hc, someDigits, show isDigit '0' = true by decide]
  · rename_i hother
    have hled : zeroLed cs = false := by
      unfold zeroLed
      split
      · rename_i c d r
        have hc : c ≠ '0' := fun e => hother d r (by rw [e])
        simp [hc]
      · rfl
    rw [hled]
    rfl

theorem zeroLed_append (hw : Spaces w) (cs : List Char) : zeroLed (cs ++ w) = zeroLed cs := by
  rcases cs with _ | ⟨c, _ | ⟨d, cs⟩⟩
  · rcases w with _ | ⟨c, _ | ⟨d, w⟩⟩
    · rfl
    · rfl
    · have hc : c ≠ '0' := ne_of_space (hw c List.mem_cons_self) (by decide)
      simp [zeroLed, hc]
  · rcases w with _ | ⟨d, w⟩
    · rfl
    · simp [zeroLed, isDigit_of_space (hw d List.mem_cons_self)]
  · rfl

theorem wholePart_append (hw : Spaces w) (cs : List Char) : wholePart (cs ++ w) = leaving w (wholePart cs) := by
  rw [wholePart_eq, wholePart_eq, zeroLed_append hw, someDigits_append hw]
  split <;> rfl

theorem wholePart_length {cs ds rest : List Char} (h : wholePart cs = some (ds, rest)) : rest.length < cs.length := by
  rw [wholePart_eq] at h
  split at h
  · cases h
  · exact someDigits_length h

theorem fractionPart_append (hw : Spaces w) (cs : List Char) :
    fractionPart (cs ++ w) = leaving w (fractionPart cs) := by
  rcases cs with _ | ⟨c, cs⟩
  · rcases w with _ | ⟨c, w⟩
    · rfl
    · have hc : c ≠ '.' := ne_of_space (hw c List.mem_cons_self) (by decide)
      simp [fractionPart, hc]
  · by_cases hc : c = '.'
    · subst hc
      simp only [List.cons_append, fractionPart, someDigits_append hw]
      cases someDigits cs <;> rfl
    · simp [fractionPart, hc]

theorem fractionPart_length {cs rest : List Char} {f : Option (List Char)} (h : fractionPart cs = some (f, rest)) :
    rest.length ≤ cs.length := by
  unfold fractionPart at h
  split at h
  · obtain ⟨⟨ds, r⟩, hds, h⟩ := Option.map_eq_some_iff.1 h
    cases h
    have := someDigits_length hds
    simp only [List.length_cons]
    omega
  · cases h
    exact Nat.le_refl _

theorem sign_append (hw : Spaces w) (cs : List Char) : sign (cs ++ w) = ((sign cs).1, (sign cs).2 ++ w) := by
  rcases cs with _ | ⟨c, cs⟩
  · rcases w with _ | ⟨c, w⟩
    · rfl
    · rcases space_cases (hw c List.mem_cons_self) with rfl | rfl | rfl | rfl <;> rfl
  · by_cases hm : c = '-'
    · subst hm; rfl
    · by_cases hp : c = '+'
      · subst hp; rfl
      · simp [sign, hm, hp]

theorem sign_length (cs : List Char) : (sign cs).2.length ≤ cs.length := by
  unfold sign
  split <;> simp

theorem exponentPart_append (hw : Spaces w) (cs : List Char) :
    exponentPart (cs ++ w) = leaving w (exponentPart cs) := by
  rcases cs with _ | ⟨c, cs⟩
  · rcases w with _ | ⟨c, w⟩
    · rfl
    · rcases space_cases (hw c List.mem_cons_self) with rfl | rfl | rfl | rfl <;> rfl
  · simp only [List.cons_append, exponentPart, sign_append hw, someDigits_append hw]
    split
    · cases someDigits (sign cs).2 <;> rfl
    · rfl

theorem exponentPart_length {cs rest : List Char} {e : Option Int} (h : exponentPart cs = some (e, rest)) :
    rest.length ≤ cs.length := by
  unfold exponentPart at h
  split at h
  · cases h
    exact Nat.le_refl _
  · rename_i c r
    split at h
    · obtain ⟨⟨ds, r'⟩, hds, h⟩ := Option.map_eq_some_iff.1 h
      cases h
      have hsign : (sign r).2.length ≤ r.length := sign_length r
      have hdigits : rest.length < (sign r).2.length := someDigits_length hds
      simp only [List.length_cons]
      omega
    · cases h
      exact Nat.le_refl _

/-- A number from where its sign, if any, has been read. -/
def afterSign (negative : Bool) : Reader Value := fun cs => do
  let (whole, cs) ← wholePart cs
  let (fraction, cs) ← fractionPart cs
  let (exponent, cs) ← exponentPart cs
  let n := natOfDigits whole
  if fraction.isNone && exponent.isNone && negative && n != 0 && n ≤ 0x8000000000000000 then
    return (.int (-(n : Int)), cs)
  else if fraction.isNone && exponent.isNone && !negative && n < 0x10000000000000000 then
    return (.int n, cs)
  else
    let x ← float whole (fraction.getD []) (exponent.getD 0)
    return (.float (if negative then -x else x), cs)

theorem number_minus (cs : List Char) : number ('-' :: cs) = afterSign true cs := rfl

theorem number_plain {cs : List Char} (h : ∀ ds, cs ≠ '-' :: ds) : number cs = afterSign false cs := by
  rcases cs with _ | ⟨c, cs⟩
  · rfl
  · have hc : c ≠ '-' := fun e => h cs (by rw [e])
    simp [number, afterSign]

theorem leaving_bind {β γ : Type} {o o' : Option (β × List Char)} {f f' : β × List Char → Option (γ × List Char)}
    (ho : o' = leaving w o) (hf : ∀ b rest, f' (b, rest ++ w) = leaving w (f (b, rest))) :
    (o' >>= f') = leaving w (o >>= f) := by
  rw [ho]
  cases o with
  | none => rfl
  | some p => exact hf p.1 p.2

theorem afterSign_append (hw : Spaces w) (negative : Bool) (cs : List Char) :
    afterSign negative (cs ++ w) = leaving w (afterSign negative cs) := by
  refine leaving_bind (wholePart_append hw cs) fun whole cs => ?_
  refine leaving_bind (fractionPart_append hw cs) fun fraction cs => ?_
  refine leaving_bind (exponentPart_append hw cs) fun exponent cs => ?_
  dsimp only
  split
  · rfl
  · split
    · rfl
    · cases float whole (fraction.getD []) (exponent.getD 0) <;> rfl

theorem shrinks_afterSign (negative : Bool) : Shrinks (afterSign negative) := by
  intro cs v rest h
  obtain ⟨⟨whole, r⟩, hw, h⟩ := Option.bind_eq_some_iff.1 h
  obtain ⟨⟨fraction, r'⟩, hf, h⟩ := Option.bind_eq_some_iff.1 h
  obtain ⟨⟨exponent, r''⟩, he, h⟩ := Option.bind_eq_some_iff.1 h
  have hrest : rest = r'' := by
    dsimp only at h
    split at h
    · cases h; rfl
    · split at h
      · cases h; rfl
      · obtain ⟨x, _, h⟩ := Option.bind_eq_some_iff.1 h
        cases h; rfl
  have h1 := wholePart_length hw
  have h2 := fractionPart_length hf
  have h3 := exponentPart_length he
  rw [hrest]
  omega

theorem number_append (hw : Spaces w) (cs : List Char) : number (cs ++ w) = leaving w (number cs) := by
  by_cases hm : ∃ ds, cs = '-' :: ds
  · obtain ⟨ds, rfl⟩ := hm
    rw [List.cons_append, number_minus, number_minus]
    exact afterSign_append hw true ds
  · have hcs : ∀ ds, cs ≠ '-' :: ds := fun ds e => hm ⟨ds, e⟩
    rw [number_plain hcs, number_plain (append_ne_cons hw (by decide) hcs)]
    exact afterSign_append hw false cs

theorem shrinks_number : Shrinks number := by
  intro cs v rest h
  by_cases hm : ∃ ds, cs = '-' :: ds
  · obtain ⟨ds, rfl⟩ := hm
    have := shrinks_afterSign true ds v rest h
    simp only [List.length_cons]
    omega
  · rw [number_plain fun ds e => hm ⟨ds, e⟩] at h
    exact shrinks_afterSign false cs v rest h

/-! ## Elements and entries -/

/-- What is separated by commas, up to the character that closes it; the first argument after the reader bounds
the number. -/
def separated (close : Char) (item : Reader α) : Nat → Reader (List α)
  | 0, _ => none
  | n + 1, cs => do
    let (v, cs) ← item (skipSpace cs)
    match skipSpace cs with
    | [] => none
    | c :: cs =>
      if c = ',' then do
        let (vs, cs) ← separated close item n cs
        return (v :: vs, cs)
      else if c = close then return ([v], cs)
      else none

/-- A key and its value. -/
def entry (key : Reader κ) (item : Reader α) : Reader (κ × α) := fun cs => do
  let (k, cs) ← key cs
  let cs ← after [':'] (skipSpace cs)
  let (v, cs) ← item (skipSpace cs)
  return ((k, v), cs)

theorem elements_eq (n : Nat) : elements item n = separated ']' item n := by
  induction n with
  | zero => rfl
  | succ n ih =>
    funext cs
    simp only [elements, separated, ih]
    refine bind_congr fun p => ?_
    cases skipSpace p.2 with
    | nil => rfl
    | cons c ds =>
      by_cases hcomma : c = ','
      · subst hcomma; rfl
      · by_cases hclose : c = ']'
        · subst hclose; rfl
        · simp [hcomma, hclose]

theorem entries_eq (key : Reader κ) (n : Nat) : entries key item n = separated '\x7d' (entry key item) n := by
  induction n with
  | zero => rfl
  | succ n ih =>
    funext cs
    simp only [entries, separated, entry, ih, bind_assoc, pure_bind]
    refine bind_congr fun p => bind_congr fun q => bind_congr fun r => ?_
    cases skipSpace r.2 with
    | nil => rfl
    | cons c ds =>
      by_cases hcomma : c = ','
      · subst hcomma; rfl
      · by_cases hclose : c = '\x7d'
        · subst hclose; rfl
        · simp [hcomma, hclose]

theorem Shrinks.leaves {r : Reader α} (h : Shrinks r) {cs rest : List Char} {v : α}
    (hr : r (skipSpace cs) = some (v, rest)) : (skipSpace rest).length < cs.length := by
  have h1 := h _ _ _ hr
  have h2 := skipSpace_length cs
  have h3 := skipSpace_length rest
  omega

theorem shrinks_separated (h : Shrinks item) (close : Char) (n : Nat) : Shrinks (separated close item n) := by
  induction n with
  | zero => nofun
  | succ n ih =>
    intro cs vs rest he
    obtain ⟨⟨v, r⟩, hv, he⟩ := Option.bind_eq_some_iff.1 he
    have hr : (skipSpace r).length < cs.length := h.leaves hv
    dsimp only at he
    split at he
    · cases he
    · rename_i c ds hds
      rw [hds, List.length_cons] at hr
      split at he
      · obtain ⟨⟨vs', r'⟩, hvs, he⟩ := Option.bind_eq_some_iff.1 he
        cases he
        have : r'.length < ds.length := ih ds vs' r' hvs
        show r'.length < cs.length
        omega
      · split at he
        · cases he
          exact Nat.lt_of_succ_lt hr
        · cases he

theorem shrinks_entry {key : Reader κ} (hk : Shrinks key) (hi : Shrinks item) : Shrinks (entry key item) := by
  intro cs kv rest h
  obtain ⟨⟨k, r⟩, hkey, h⟩ := Option.bind_eq_some_iff.1 h
  obtain ⟨r', hcolon, h⟩ := Option.bind_eq_some_iff.1 h
  obtain ⟨⟨v, r''⟩, hv, h⟩ := Option.bind_eq_some_iff.1 h
  cases h
  have h1 : r.length < cs.length := hk _ _ _ hkey
  have h2 : r'.length ≤ (skipSpace r).length := after_length hcolon
  have h3 : rest.length < (skipSpace r').length := hi _ _ _ hv
  have h4 := skipSpace_length r
  have h5 := skipSpace_length r'
  omega

/-- Readers that agree do so on what is left after spaces. -/
theorem Trails.skip (h : Trails w k item item') (hw : Spaces w) (hi : Shrinks item) (hi' : Shrinks item')
    {cs : List Char} (hk : cs.length ≤ k) : item' (skipSpace (cs ++ w)) = leaving w (item (skipSpace cs)) := by
  rcases skipSpace_append hw cs with ⟨h1, h2⟩ | ⟨_, h2⟩
  · rw [h1, h2, hi.nil, hi'.nil]
    rfl
  · rw [h2]
    exact h _ (Nat.le_trans (skipSpace_length cs) hk)

theorem separated_trail (h : Trails w k item item') (hw : Spaces w) (hi : Shrinks item) (hi' : Shrinks item')
    (close : Char) {n m : Nat} {cs : List Char} (hn : cs.length ≤ n) (hm : cs.length ≤ m) (hk : cs.length ≤ k) :
    separated close item' m (cs ++ w) = leaving w (separated close item n cs) := by
  have hskip := h.skip hw hi hi' hk
  induction n generalizing m cs with
  | zero =>
    have hnil : cs = [] := List.eq_nil_of_length_eq_zero (by omega)
    subst hnil
    cases m with
    | zero => rfl
    | succ m =>
      rw [show skipSpace ([] : List Char) = [] from rfl, hi.nil] at hskip
      simp only [separated, hskip]
      rfl
  | succ n ih =>
    cases m with
    | zero =>
      have hnil : cs = [] := List.eq_nil_of_length_eq_zero (by omega)
      subst hnil
      simp only [separated, show skipSpace ([] : List Char) = [] from rfl, hi.nil]
      rfl
    | succ m =>
      simp only [separated, hskip]
      cases hv : item (skipSpace cs) with
      | none => rfl
      | some p =>
        obtain ⟨v, r⟩ := p
        have hr : (skipSpace r).length < cs.length := hi.leaves hv
        rcases skipSpace_append hw r with ⟨h1, h2⟩ | ⟨hne, h2⟩
        · simp only [leaving_some, Option.bind_eq_bind, Option.bind_some, h1, h2, leaving_none]
        · obtain ⟨c, ds, hq⟩ := List.exists_cons_of_ne_nil hne
          rw [hq, List.length_cons] at hr
          simp only [leaving_some, Option.bind_eq_bind, Option.bind_some, h2, hq, List.cons_append]
          by_cases hcomma : c = ','
          · have hmore : item' (skipSpace (ds ++ w)) = leaving w (item (skipSpace ds)) :=
              h.skip hw hi hi' (by omega)
            have hds : separated close item' m (ds ++ w) = leaving w (separated close item n ds) :=
              ih (by omega) (by omega) (by omega) hmore
            simp only [hcomma, if_true, hds]
            cases separated close item n ds <;> rfl
          · by_cases hclose : c = close
            · subst hclose
              simp [hcomma]
            · simp [hcomma, hclose]

theorem colon_append (hw : Spaces w) (cs : List Char) :
    after [':'] (skipSpace (cs ++ w)) = (after [':'] (skipSpace cs)).map (· ++ w) := by
  rcases skipSpace_append hw cs with ⟨h1, h2⟩ | ⟨_, h2⟩
  · rw [h1, h2]
    rfl
  · rw [h2]
    exact after_append hw (by decide) _

theorem entry_trail (h : Trails w k item item') (hw : Spaces w) (hi : Shrinks item) (hi' : Shrinks item') :
    Trails w k (entry string item) (entry string item') := by
  intro cs hcs
  simp only [entry, string_append hw]
  cases hkey : string cs with
  | none => rfl
  | some p =>
    obtain ⟨key, r⟩ := p
    have hr : r.length < cs.length := shrinks_string _ _ _ hkey
    simp only [leaving_some, Option.bind_eq_bind, Option.bind_some, colon_append hw]
    cases hcolon : after [':'] (skipSpace r) with
    | none => rfl
    | some r' =>
      have h1 := after_length hcolon
      have h2 := skipSpace_length r
      have hskip : item' (skipSpace (r' ++ w)) = leaving w (item (skipSpace r')) := h.skip hw hi hi' (by omega)
      simp only [Option.map_some, Option.bind_some, hskip]
      cases item (skipSpace r') <;> rfl

/-! ## Values -/

/-- What is separated by commas after an opening bracket; there may be nothing before the closing one. -/
def bracketed (close : Char) (build : List α → Value) (item : Reader α) (size : Nat) : Reader Value := fun cs =>
  if (skipSpace cs).head? = some close then some (build [], (skipSpace cs).tail)
  else (separated close item size (skipSpace cs)).map fun p => (build p.1, p.2)

theorem array_eq (size : Nat) (item : Reader Value) : array size item = bracketed ']' .list item size := by
  funext cs
  simp only [array, bracketed, elements_eq]
  cases skipSpace cs with
  | nil => rfl
  | cons c ds =>
    by_cases hc : c = ']'
    · subst hc; rfl
    · simp [hc]

theorem object_eq (size : Nat) (item : Reader Value) :
    object size item = bracketed '\x7d' (fun kvs => .object (Dict.ofList kvs)) (entry string item) size := by
  funext cs
  simp only [object, bracketed, entries_eq]
  cases skipSpace cs with
  | nil => rfl
  | cons c ds =>
    by_cases hc : c = '\x7d'
    · subst hc; rfl
    · simp [hc]

theorem shrinks_bracketed (h : Shrinks item) (close : Char) (build : List α → Value) (size : Nat) :
    Shrinks (bracketed close build item size) := by
  intro cs v rest hb
  have hskip := skipSpace_length cs
  unfold bracketed at hb
  split at hb
  · rename_i hc
    cases hb
    cases hq : skipSpace cs with
    | nil => rw [hq] at hc; cases hc
    | cons c ds =>
      rw [hq, List.length_cons] at hskip
      exact hskip
  · obtain ⟨⟨vs, r⟩, hvs, hb⟩ := Option.map_eq_some_iff.1 hb
    cases hb
    have : r.length < (skipSpace cs).length := shrinks_separated h close size _ _ _ hvs
    show r.length < cs.length
    omega

theorem bracketed_trail (h : Trails w k item item') (hw : Spaces w) (hi : Shrinks item) (hi' : Shrinks item')
    (close : Char) (build : List α → Value) {n m : Nat} (hn : k ≤ n) (hm : k ≤ m) :
    Trails w k (bracketed close build item n) (bracketed close build item' m) := by
  intro cs hcs
  unfold bracketed
  rcases skipSpace_append hw cs with ⟨h1, h2⟩ | ⟨hne, h2⟩
  · rw [h1, h2, (shrinks_separated hi close n).nil, (shrinks_separated hi' close m).nil]
    rfl
  · obtain ⟨c, ds, hq⟩ := List.exists_cons_of_ne_nil hne
    have hlen := skipSpace_length cs
    rw [h2, separated_trail h hw hi hi' close (n := n) (by omega) (by omega) (by omega), hq]
    by_cases hc : c = close
    · simp [hc]
    · simp only [List.cons_append, List.head?_cons, Option.some.injEq, hc, if_false]
      cases separated close item n (c :: ds) <;> rfl

/-- How a value begins that is no number. -/
def leads : List Char := ['[', '\x7b', '"', 'n', 't', 'f']

theorem not_leads_of_space {c : Char} (h : isSpace c = true) : c ∉ leads := by
  rcases space_cases h with rfl | rfl | rfl | rfl <;> decide

theorem one_other {c : Char} (h : c ∉ leads) (size : Nat) (item : Reader Value) (cs : List Char) :
    one size item (c :: cs) = number (c :: cs) := by
  simp only [leads, List.mem_cons, List.not_mem_nil, or_false, not_or] at h
  obtain ⟨h1, h2, h3, h4, h5, h6⟩ := h
  simp [one, h1, h2, h3, h4, h5, h6]

section
variable {item item' : Reader Value}

theorem shrinks_one (h : Shrinks item) (size : Nat) : Shrinks (one size item) := by
  intro cs v rest hv
  unfold one at hv
  split at hv
  · rw [array_eq] at hv
    exact Nat.lt_succ_of_lt (shrinks_bracketed h _ _ size _ _ _ hv)
  · rw [object_eq] at hv
    exact Nat.lt_succ_of_lt (shrinks_bracketed (shrinks_entry shrinks_string h) _ _ size _ _ _ hv)
  · obtain ⟨⟨s, r⟩, hs, hv⟩ := Option.map_eq_some_iff.1 hv
    cases hv
    exact shrinks_string _ _ _ hs
  · obtain ⟨r, hr, hv⟩ := Option.map_eq_some_iff.1 hv
    cases hv
    exact Nat.lt_succ_of_le (after_length hr)
  · obtain ⟨r, hr, hv⟩ := Option.map_eq_some_iff.1 hv
    cases hv
    exact Nat.lt_succ_of_le (after_length hr)
  · obtain ⟨r, hr, hv⟩ := Option.map_eq_some_iff.1 hv
    cases hv
    exact Nat.lt_succ_of_le (after_length hr)
  · exact shrinks_number _ _ _ hv

/-- The word of a constant, after its first letter. -/
theorem word_trail (hw : Spaces w) {ws : List Char} (hws : ws.any isSpace = false) (v : Value) (cs : List Char) :
    (after ws (cs ++ w)).map (v, ·) = leaving w ((after ws cs).map (v, ·)) := by
  rw [after_append hw hws]
  cases after ws cs <;> rfl

theorem one_trail (h : Trails w k item item') (hw : Spaces w) (hi : Shrinks item) (hi' : Shrinks item')
    {n m : Nat} (hn : k ≤ n) (hm : k ≤ m) : Trails w k (one n item) (one m item') := by
  intro cs hcs
  rcases cs with _ | ⟨c, cs⟩
  · rcases w with _ | ⟨c, w⟩
    · rfl
    · rw [List.nil_append, one_other (not_leads_of_space (hw c List.mem_cons_self))]
      exact number_append hw []
  · have hlen : cs.length ≤ k := by simp only [List.length_cons] at hcs; omega
    by_cases hc : c ∈ leads
    · simp only [leads, List.mem_cons, List.not_mem_nil, or_false] at hc
      rcases hc with rfl | rfl | rfl | rfl | rfl | rfl
      · show array m item' (cs ++ w) = leaving w (array n item cs)
        rw [array_eq, array_eq]
        exact bracketed_trail h hw hi hi' _ _ hn hm cs hlen
      · show object m item' (cs ++ w) = leaving w (object n item cs)
        rw [object_eq, object_eq]
        exact bracketed_trail (entry_trail h hw hi hi') hw (shrinks_entry shrinks_string hi)
          (shrinks_entry shrinks_string hi') _ _ hn hm cs hlen
      · show (string (('"' :: cs) ++ w)).map _ = leaving w ((string ('"' :: cs)).map _)
        rw [string_append hw]
        cases string ('"' :: cs) <;> rfl
      · exact word_trail hw (by decide) .null cs
      · exact word_trail hw (by decide) (.bool true) cs
      · exact word_trail hw (by decide) (.bool false) cs
    · rw [List.cons_append, one_other hc, one_other hc]
      exact number_append hw (c :: cs)

end

theorem shrinks_value (size levels : Nat) : Shrinks (value size levels) := by
  induction levels with
  | zero =>
    intro cs v rest hv
    unfold value at hv
    split at hv
    · cases hv
    · cases hv
    · exact shrinks_one (fun _ _ _ h => by cases h) size _ _ _ hv
  | succ levels ih => exact shrinks_one ih size

/-- Without levels left, what opens no bracket is read as ever. -/
theorem value_flat {cs : List Char} (h : ∀ ds, cs ≠ '[' :: ds) (h' : ∀ ds, cs ≠ '\x7b' :: ds) (size : Nat) :
    value size 0 cs = one size (fun _ => none) cs := by
  unfold value
  split
  · rename_i ds
    exact absurd rfl (h ds)
  · rename_i ds
    exact absurd rfl (h' ds)
  · rfl

theorem value_trail (hw : Spaces w) {n m : Nat} (hn : k ≤ n) (hm : k ≤ m) (levels : Nat) :
    Trails w k (value n levels) (value m levels) := by
  induction levels with
  | zero =>
    have hnone : Shrinks (fun _ => none : Reader Value) := fun _ _ _ h => by cases h
    have hone : Trails w k (one n fun _ => none) (one m fun _ => none) :=
      one_trail (fun _ _ => rfl) hw hnone hnone hn hm
    intro cs hcs
    by_cases hlist : ∃ ds, cs = '[' :: ds
    · obtain ⟨ds, rfl⟩ := hlist
      rfl
    · by_cases hobject : ∃ ds, cs = '\x7b' :: ds
      · obtain ⟨ds, rfl⟩ := hobject
        rfl
      · have h : ∀ ds, cs ≠ '[' :: ds := fun ds e => hlist ⟨ds, e⟩
        have h' : ∀ ds, cs ≠ '\x7b' :: ds := fun ds e => hobject ⟨ds, e⟩
        rw [value_flat h h', value_flat (append_ne_cons hw (by decide) h) (append_ne_cons hw (by decide) h')]
        exact hone cs hcs
  | succ levels ih => exact one_trail ih hw (shrinks_value n levels) (shrinks_value m levels) hn hm

/-- Spaces after a text make no difference to what is read from it. -/
theorem read_spaced {w : List Char} (hw : Spaces w) (s : String) : read (s ++ String.ofList w) = read s := by
  have hlen : s.toList.length ≤ (s.toList ++ w).length := by simp
  have hvalue := (value_trail hw (Nat.le_refl s.toList.length) hlen levels).skip hw
    (shrinks_value _ levels) (shrinks_value _ levels) (Nat.le_refl s.toList.length)
  simp only [read, readWithin, String.toList_append, String.toList_ofList, hvalue]
  cases value s.toList.length levels (skipSpace s.toList) with
  | none => rfl
  | some p =>
    simp only [leaving_some]
    rcases skipSpace_append hw p.2 with ⟨h1, h2⟩ | ⟨hne, h2⟩
    · rw [h1, h2]
    · simp [h2, hne]

end

end MockSchema.Json
