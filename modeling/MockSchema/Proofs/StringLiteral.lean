/-
  MockSchema.Proofs.StringLiteral — what the scanner reads between two quotes.

  `Denotes quote b s`: between these quotes `b` stands for `s`, with the escapes of one character. So what is
  written for the characters of a string is read back as that string (`denotes_escape`). The keys of
  dictionaries are written as they are: one is read back just if it is `Verbatim`
  (`lexeme_verbatim_iff`), because whatever else is read is shorter than what it was read from.
-/

import MockSchema.Expr.Display
import MockSchema.Proofs.Runs
import MockSchema.Expr.Scan

namespace MockSchema.Scan

/-- The inside of a literal and what it stands for, as far as no character is named by its number. -/
inductive Denotes (quote : Char) : List Char → List Char → Prop
  | nil : Denotes quote [] []
  | char {c : Char} {b s : List Char} :
      c ≠ quote → c ≠ '\\' → Denotes quote b s → Denotes quote (c :: b) (c :: s)
  | escape {d : Char} {b s : List Char} :
      d ≠ 'u' → Denotes quote b s → Denotes quote ('\\' :: d :: b) (simpleEscape d ++ s)

/-- What makes an escape after a backslash. -/
def marks : List Char := ['n', 't', 'r', '0', '\\', '\x27', '"', 'u']

/-- No single quote, and no backslash but before a character that makes no escape. -/
inductive Verbatim : List Char → Prop
  | nil : Verbatim []
  | char {c : Char} {b : List Char} : c ≠ '\x27' → c ≠ '\\' → Verbatim b → Verbatim (c :: b)
  | backslash {d : Char} {b : List Char} : d ∉ marks → Verbatim b → Verbatim ('\\' :: d :: b)

/-! ## Escapes -/

theorem simpleEscape_of_not_mem {d : Char} (h : d ∉ marks) : simpleEscape d = ['\\', d] := by
  unfold simpleEscape
  split <;> first | rfl | exact absurd (by decide) h

theorem length_simpleEscape {d : Char} (h : d ∈ marks) : (simpleEscape d).length < 2 ∨ d = 'u' := by
  simp only [marks, List.mem_cons, List.not_mem_nil, or_false] at h
  rcases h with rfl | rfl | rfl | rfl | rfl | rfl | rfl | rfl <;> decide

theorem Verbatim.denotes {b : List Char} (h : Verbatim b) : Denotes '\x27' b b := by
  induction h with
  | nil => exact .nil
  | char hq hb _ ih => exact .char hq hb ih
  | @backslash d b hd _ ih =>
    have hu : d ≠ 'u' := fun e => hd (e ▸ by decide)
    have h := Denotes.escape hu ih
    rwa [simpleEscape_of_not_mem hd] at h

/-- What is written for the characters of a string stands for the string. -/
theorem denotes_escape (s : List Char) : Denotes '\x27' (s.flatMap Display.escape) s := by
  induction s with
  | nil => exact .nil
  | cons c s ih =>
    rw [List.flatMap_cons]
    by_cases hb : c = '\\'
    · subst hb
      exact .escape (d := '\\') (by decide) ih
    · by_cases hq : c = '\x27'
      · subst hq
        exact .escape (d := '\x27') (by decide) ih
      · have hc : Display.escape c = [c] := by simp [Display.escape, hb, hq]
        rw [hc]
        exact .char hq hb ih

/-! ## Reading -/

section
variable {quote : Char} {start : Nat}

theorem stringRest_char {n offset : Nat} {done cs : List Char} {c : Char} (hc : c ≠ quote) (hb : c ≠ '\\') :
    stringRest quote start (n + 1) offset done (c :: cs) =
      stringRest quote start n (offset + c.utf8Size) (c :: done) cs := by
  rw [stringRest.eq_def]
  dsimp only
  rw [if_neg hc, if_neg hb]

theorem stringRest_escape {n offset : Nat} {done cs : List Char} {d : Char} (hq : quote ≠ '\\') (hd : d ≠ 'u') :
    stringRest quote start (n + 1) offset done ('\\' :: d :: cs) =
      stringRest quote start n (offset + 1 + d.utf8Size) ((simpleEscape d).reverse ++ done) cs := by
  rw [stringRest.eq_def]
  dsimp only
  rw [if_neg (Ne.symm hq), if_pos rfl]
  split
  · rename_i he; cases he
  · rename_i he; cases he; exact absurd rfl hd
  · rename_i he; cases he; rfl

/-- What stands between the quotes is read as what it denotes. -/
theorem Denotes.reads {b s : List Char} (h : Denotes quote b s) (hq : quote ≠ '\\') :
    ∀ n offset done tail, b.length < n → ∃ stop, stringRest quote start n offset done (b ++ quote :: tail) =
      .ok (String.ofList (done.reverse ++ s), stop, tail) := by
  induction h with
  | nil =>
    intro n offset done tail hn
    obtain ⟨n, rfl⟩ : ∃ m, n = m + 1 := ⟨n - 1, by simp only [List.length_nil] at hn; omega⟩
    refine ⟨offset + quote.utf8Size, ?_⟩
    rw [List.nil_append, stringRest.eq_def, List.append_nil]
    exact if_pos rfl
  | @char c b s hc hb _ ih =>
    intro n offset done tail hn
    obtain ⟨n, rfl⟩ : ∃ m, n = m + 1 := ⟨n - 1, by simp only [List.length_cons] at hn; omega⟩
    obtain ⟨stop, h⟩ := ih n (offset + c.utf8Size) (c :: done) tail
      (by simp only [List.length_cons] at hn; omega)
    refine ⟨stop, ?_⟩
    rw [List.cons_append, stringRest_char hc hb, h, List.reverse_cons, List.append_assoc]
    rfl
  | @escape d b s hd _ ih =>
    intro n offset done tail hn
    obtain ⟨n, rfl⟩ : ∃ m, n = m + 1 := ⟨n - 1, by simp only [List.length_cons] at hn; omega⟩
    obtain ⟨stop, h⟩ := ih n (offset + 1 + d.utf8Size) ((simpleEscape d).reverse ++ done) tail
      (by simp only [List.length_cons] at hn; omega)
    refine ⟨stop, ?_⟩
    rw [List.cons_append, List.cons_append, stringRest_escape hq hd, h, List.reverse_append, List.reverse_reverse,
      List.append_assoc]

/-- A number that names a character takes characters of its own. -/
theorem takeBytes_append {cs taken rest : List Char} {n : Nat} (h : takeBytes cs n = some (taken, rest)) :
    cs = taken ++ rest := by
  induction cs, n using takeBytes.induct generalizing taken with
  | case1 cs => rw [takeBytes.eq_def] at h; cases h; rfl
  | case2 n => cases h
  | case3 c cs n hc ih =>
    rw [takeBytes, if_pos hc] at h
    obtain ⟨⟨taken', rest'⟩, h', he⟩ := Option.map_eq_some_iff.1 h
    cases he
    rw [ih h', List.cons_append]
  | case4 c cs n hc => rw [takeBytes, if_neg hc] at h; cases h

theorem unicodeEscape_append {offset : Nat} {cs rest : List Char} {d : Char}
    (h : unicodeEscape offset cs = .ok (d, rest)) : ∃ taken, cs = taken ++ rest := by
  unfold unicodeEscape at h
  split at h
  · cases h
  · rename_i hex rest' hbytes
    have hrest : rest' = rest := by
      dsimp only at h
      split at h
      · split at h <;> cases h
        rfl
      · cases h
    exact ⟨hex, hrest ▸ takeBytes_append hbytes⟩

/-- What is read is no longer than what it is read from, and as long only where it is read as it stands. -/
theorem stringRest_length {n offset : Nat} {done cs rest : List Char} {s : String} {stop : Nat}
    (h : stringRest '\x27' start n offset done cs = .ok (s, stop, rest)) :
    ∃ b t, cs = b ++ '\x27' :: rest ∧ s = String.ofList (done.reverse ++ t) ∧ t.length ≤ b.length ∧
      (t.length = b.length → Verbatim b) := by
  induction n generalizing offset done cs with
  | zero => cases h
  | succ n ih =>
    cases cs with
    | nil => cases h
    | cons c cs =>
      rw [stringRest.eq_def] at h
      dsimp only at h
      split at h
      · rename_i hc
        cases h
        exact ⟨[], [], by rw [hc]; rfl, by rw [List.append_nil], Nat.le_refl _, fun _ => .nil⟩
      · rename_i hq
        split at h
        · rename_i hb
          subst hb
          split at h
          · cases h
          · obtain ⟨⟨d, cs'⟩, hu, hrest⟩ := bind_ok h
            obtain ⟨taken, rfl⟩ := unicodeEscape_append hu
            obtain ⟨b, t, rfl, rfl, hle, -⟩ := ih hrest
            refine ⟨'\\' :: 'u' :: (taken ++ b), d :: t, ?_, ?_, ?_, ?_⟩
            · simp
            · simp
            · simp only [List.length_cons, List.length_append]; omega
            · simp only [List.length_cons, List.length_append]; omega
          · rename_i d cs' hu
            have hu : d ≠ 'u' := fun e => hu (by rw [e])
            obtain ⟨b, t, rfl, rfl, hle, heq⟩ := ih h
            refine ⟨'\\' :: d :: b, simpleEscape d ++ t, rfl, by simp, ?_⟩
            by_cases hd : d ∈ marks
            · have hlt := (length_simpleEscape hd).resolve_right hu
              simp only [List.length_cons, List.length_append]
              exact ⟨by omega, fun he => absurd he (by omega)⟩
            · rw [simpleEscape_of_not_mem hd]
              simp only [List.length_cons, List.length_append, List.length_nil]
              exact ⟨by omega, fun he => .backslash hd (heq (by omega))⟩
        · rename_i hb
          obtain ⟨b, t, rfl, rfl, hle, heq⟩ := ih h
          refine ⟨c :: b, c :: t, rfl, by simp, ?_⟩
          simp only [List.length_cons]
          exact ⟨by omega, fun he => .char hq hb (heq (by omega))⟩

end

/-! ## Literals -/

theorem lexeme_quoted {b s : List Char} (h : Denotes '\x27' b s) (o : Nat) (tail : List Char) :
    ∃ w, lexeme o ('\x27' :: b ++ '\x27' :: tail) = .ok ⟨.str (String.ofList s), w, tail⟩ := by
  obtain ⟨stop, hs⟩ : ∃ stop, stringRest '\x27' o ((b ++ '\x27' :: tail).length + 1) (o + 1) [] (b ++ '\x27' :: tail) =
      .ok (String.ofList s, stop, tail) :=
    h.reads (by decide) _ _ _ _ (by simp only [List.length_append]; omega)
  refine ⟨stop - o, ?_⟩
  show string '\x27' o (b ++ '\x27' :: tail) = _
  simp only [string, hs]
  rfl

/-- A text in single quotes is read as itself, up to its closing quote, just if it is verbatim. -/
theorem lexeme_verbatim_iff {b : List Char} (o : Nat) (tail : List Char) :
    (∃ w, lexeme o ('\x27' :: b ++ '\x27' :: tail) = .ok ⟨.str (String.ofList b), w, tail⟩) ↔ Verbatim b := by
  constructor
  · rintro ⟨w, h⟩
    have h : string '\x27' o (b ++ '\x27' :: tail) = .ok ⟨.str (String.ofList b), w, tail⟩ := h
    obtain ⟨⟨s, stop, rest⟩, hs, h⟩ := bind_ok h
    cases h
    obtain ⟨b', t, hb, ht, -, hverbatim⟩ := stringRest_length hs
    have hbb : b = b' := List.append_cancel_right hb
    have hbt : b = t := String.ofList_injective ht
    subst hbb
    exact hverbatim (by rw [← hbt])
  · intro h
    exact lexeme_quoted h.denotes o tail

end MockSchema.Scan
