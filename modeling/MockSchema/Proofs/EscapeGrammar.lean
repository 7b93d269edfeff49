/-
  MockSchema.Proofs.EscapeGrammar — the grammar of string literals, and what the scanner makes of it.

  The inside of a literal is a row of pieces (`Piece`): a character that is neither its quote nor a backslash, an escape
  from the table `escapes`, a backslash before a character that makes no escape, or `\u` before four hexadecimal
  digits that number a character. Each piece stands for one character, or for itself; the literal stands for these in
  a row.

  The scanner reads one piece more. It takes the four bytes after `\u` for a number, and a number may open with a plus
  sign, so `\u+041` is read where no hexadecimal digit stands for the sign (`Signed`). With this piece the reading is
  exact (`readAs_iff`), and so is the grammar for every text without such an escape (`string_literal_exact`). Whatever
  else follows a `\u` is an error of the text, just behind the `u` (`malformed_escape`).
-/

import Mathlib.Data.List.TakeWhile
import Mathlib.Data.Nat.Digits.Defs
import MockSchema.Proofs.StringLiteral

namespace MockSchema.Scan

open Text

/-! ## The grammar -/

/-- The hexadecimal digit of `n`, in either case. -/
def HexDigit (c : Char) (n : Nat) : Prop := n < 16 ∧ (c = Nat.digitChar n ∨ c = (Nat.digitChar n).toUpper)

/-- Hexadecimal digits and the number they write. -/
def Hexadecimal (ds : List Char) (n : Nat) : Prop := ∃ ns, List.Forall₂ HexDigit ds ns ∧ n = Nat.ofDigits 16 ns.reverse

/-- What may stand behind a backslash for another character. -/
def escapes : List (Char × Char) :=
  [('n', '\n'), ('t', '\t'), ('r', '\r'), ('0', '\x00'), ('\\', '\\'), ('\x27', '\x27'), ('"', '"')]

/-- A piece of a literal and the characters that it stands for. -/
inductive Piece (quote : Char) : List Char → List Char → Prop
  | char {c : Char} : c ≠ quote → c ≠ '\\' → Piece quote [c] [c]
  | escape {d c : Char} : (d, c) ∈ escapes → Piece quote ['\\', d] [c]
  | unknown {d : Char} : (∀ c, (d, c) ∉ escapes) → d ≠ 'u' → Piece quote ['\\', d] ['\\', d]
  | unicode {ds : List Char} {c : Char} : ds.length = 4 → Hexadecimal ds c.toNat → Piece quote ('\\' :: 'u' :: ds) [c]

/-- A plus sign in the place of the first digit, which is no piece of a literal. -/
inductive Signed : List Char → List Char → Prop
  | mk {ds : List Char} {c : Char} : ds.length = 3 → Hexadecimal ds c.toNat → Signed ('\\' :: 'u' :: '+' :: ds) [c]

/-- A piece as the scanner reads it. -/
def Readable (quote : Char) (p t : List Char) : Prop := Piece quote p t ∨ Signed p t

/-- Pieces in a row, and in a row what they stand for. -/
inductive Pieces (P : List Char → List Char → Prop) : List Char → List Char → Prop
  | nil : Pieces P [] []
  | cons {p t b s : List Char} : P p t → Pieces P b s → Pieces P (p ++ b) (t ++ s)

/-- Between these quotes the text is one token, the string `s`, and there is no other. -/
def ReadAs (quote : Char) (b s : List Char) : Prop :=
  tokens (String.ofList (quote :: b ++ [quote])) =
    .ok [⟨.str (String.ofList s), 0⟩, ⟨.eof, width (quote :: b ++ [quote])⟩]

/-- After some pieces there comes an escape with a sign. -/
def HasSigned (quote : Char) (b : List Char) : Prop :=
  ∃ b₁ s₁ p t b₂, Pieces (Piece quote) b₁ s₁ ∧ Signed p t ∧ b = b₁ ++ (p ++ b₂)

section
variable {P Q : List Char → List Char → Prop} {quote c d : Char} {b b' s p p' t ds x : List Char} {n : Nat}

theorem Pieces.mono (h : Pieces P b s) (hPQ : ∀ p t, P p t → Q p t) : Pieces Q b s := by
  induction h with
  | nil => exact .nil
  | cons hp _ ih => exact .cons (hPQ _ _ hp) ih

/-- A spelling for each character of a string makes a literal of it. -/
theorem Pieces.spellings {cs : List (Char × List Char)} (h : ∀ x ∈ cs, P x.2 [x.1]) :
    Pieces P (cs.flatMap (·.2)) (cs.map (·.1)) := by
  induction cs with
  | nil => exact .nil
  | cons x cs ih =>
    rw [List.flatMap_cons, List.map_cons]
    exact .cons (h x List.mem_cons_self) (ih fun y hy => h y (List.mem_cons_of_mem _ hy))

/-! ## Widths -/

theorem width_append (cs ds : List Char) : width (cs ++ ds) = width cs + width ds := by
  induction cs with
  | nil => rw [List.nil_append, width, Nat.zero_add]
  | cons c cs ih => rw [List.cons_append, width, width, ih, Nat.add_assoc]

theorem takeBytes_width {cs taken rest : List Char} (h : takeBytes cs n = some (taken, rest)) : width taken = n := by
  induction cs, n using takeBytes.induct generalizing taken with
  | case1 cs => rw [takeBytes.eq_def] at h; cases h; rfl
  | case2 n => cases h
  | case3 c cs n hc ih =>
    rw [takeBytes, if_pos hc] at h
    obtain ⟨⟨taken', rest'⟩, h', he⟩ := Option.map_eq_some_iff.1 h
    cases he
    rw [width, ih h']
    omega
  | case4 c cs n hc => rw [takeBytes, if_neg hc] at h; cases h

theorem takeBytes_of_width (taken rest : List Char) : takeBytes (taken ++ rest) (width taken) = some (taken, rest) := by
  induction taken with
  | nil => rw [List.nil_append, width, takeBytes.eq_def]
  | cons c taken ih =>
    obtain ⟨m, hm⟩ : ∃ m, c.utf8Size = m + 1 := ⟨c.utf8Size - 1, by have := Char.utf8Size_pos c; omega⟩
    rw [width, List.cons_append, hm, Nat.add_right_comm, takeBytes, if_pos (by omega), hm]
    rw [show m + width taken + 1 - (m + 1) = width taken by omega, ih]
    rfl

/-! ## Hexadecimal numbers -/

theorem hexValue?_eq_some_iff : hexValue? c = some n ↔ HexDigit c n := by
  constructor
  · intro h
    unfold hexValue? at h
    have hdigit : ∀ m < 16, ∀ k, c.toNat = k →
        Char.ofNat k = Nat.digitChar m ∨ Char.ofNat k = (Nat.digitChar m).toUpper → HexDigit c m :=
      fun m hm k hk hc => ⟨hm, by rwa [← hk, Char.ofNat_toNat] at hc⟩
    have hlow : ∀ m < 10, Char.ofNat (48 + m) = Nat.digitChar m := by decide
    have hletter : ∀ m < 6, Char.ofNat (97 + m) = Nat.digitChar (10 + m) := by decide
    have hcapital : ∀ m < 6, Char.ofNat (65 + m) = (Nat.digitChar (10 + m)).toUpper := by decide
    split at h
    · rename_i hc
      simp only [isDigit, Bool.and_eq_true, decide_eq_true_eq] at hc
      have h₁ : 48 ≤ c.toNat := hc.1
      have h₂ : c.toNat ≤ 57 := hc.2
      cases h
      exact hdigit _ (by show c.toNat - 48 < 16; omega) (48 + (c.toNat - 48)) (by omega)
        (Or.inl (hlow _ (by omega)))
    · split at h
      · rename_i hc
        simp only [Bool.and_eq_true, decide_eq_true_eq] at hc
        have h₁ : 97 ≤ c.toNat := hc.1
        have h₂ : c.toNat ≤ 102 := hc.2
        cases h
        have he := hletter (c.toNat - 97) (by omega)
        rw [Nat.add_comm 10] at he
        exact hdigit _ (by show c.toNat - 97 + 10 < 16; omega) (97 + (c.toNat - 97)) (by omega) (Or.inl he)
      · split at h
        · rename_i hc
          simp only [Bool.and_eq_true, decide_eq_true_eq] at hc
          have h₁ : 65 ≤ c.toNat := hc.1
          have h₂ : c.toNat ≤ 70 := hc.2
          cases h
          have he := hcapital (c.toNat - 65) (by omega)
          rw [Nat.add_comm 10] at he
          exact hdigit _ (by show c.toNat - 65 + 10 < 16; omega) (65 + (c.toNat - 65)) (by omega) (Or.inr he)
        · cases h
  · rintro ⟨hn, h⟩
    have hall : ∀ n < 16, hexValue? (Nat.digitChar n) = some n ∧ hexValue? (Nat.digitChar n).toUpper = some n := by
      decide
    rcases h with rfl | rfl
    · exact (hall n hn).1
    · exact (hall n hn).2

theorem HexDigit.plain (h : HexDigit c n) : c.utf8Size = 1 ∧ c ≠ '+' := by
  obtain ⟨hn, h⟩ := h
  have hall : ∀ n < 16, ((Nat.digitChar n).utf8Size = 1 ∧ Nat.digitChar n ≠ '+') ∧
      (Nat.digitChar n).toUpper.utf8Size = 1 ∧ (Nat.digitChar n).toUpper ≠ '+' := by decide
  rcases h with rfl | rfl
  · exact (hall n hn).1
  · exact (hall n hn).2

/-- The number that is read so far, and one digit more. -/
def hexStep (n : Option Nat) (c : Char) : Option Nat := do return 16 * (← n) + (← hexValue? c)

theorem foldl_digits (ns : List Nat) (m : Nat) :
    ns.foldl (fun n d => 16 * n + d) m = Nat.ofDigits 16 (ns.reverse ++ [m]) := by
  induction ns generalizing m with
  | nil => simp [Nat.ofDigits_cons]
  | cons d ns ih =>
    rw [List.foldl_cons, ih, List.reverse_cons, List.append_assoc, Nat.ofDigits_append, Nat.ofDigits_append]
    simp [Nat.ofDigits_cons]
    omega

theorem foldl_hexStep_none (ds : List Char) : ds.foldl hexStep none = none := by
  induction ds with
  | nil => rfl
  | cons d ds ih => exact ih

theorem foldl_hexStep {m : Nat} : ds.foldl hexStep (some m) = some n ↔
    ∃ ns, List.Forall₂ HexDigit ds ns ∧ n = ns.foldl (fun n d => 16 * n + d) m := by
  induction ds generalizing m with
  | nil =>
    constructor
    · intro h
      cases h
      exact ⟨[], .nil, rfl⟩
    · rintro ⟨ns, hns, rfl⟩
      cases hns
      rfl
  | cons d ds ih =>
    rw [List.foldl_cons]
    constructor
    · intro h
      cases hd : hexValue? d with
      | none =>
        have hstep : hexStep (some m) d = none := by simp [hexStep, hd]
        rw [hstep, foldl_hexStep_none] at h
        cases h
      | some k =>
        have hstep : hexStep (some m) d = some (16 * m + k) := by simp [hexStep, hd]
        rw [hstep, ih] at h
        obtain ⟨ns, hns, rfl⟩ := h
        exact ⟨k :: ns, .cons (hexValue?_eq_some_iff.1 hd) hns, rfl⟩
    · rintro ⟨ns, hns, rfl⟩
      cases hns with
      | @cons _ k _ ns hd hns =>
        have hstep : hexStep (some m) d = some (16 * m + k) := by simp [hexStep, hexValue?_eq_some_iff.2 hd]
        rw [hstep, ih]
        exact ⟨ns, hns, rfl⟩

theorem hexNumber?_eq_some_iff (hds : ds ≠ []) : hexNumber? ds = some n ↔ Hexadecimal ds n := by
  have hempty : ds.isEmpty = false := by simpa using hds
  have hfold : hexNumber? ds = ds.foldl hexStep (some 0) := by
    rw [hexNumber?, hempty]
    rfl
  have hzero : ∀ ns : List Nat, ns.foldl (fun n d => 16 * n + d) 0 = Nat.ofDigits 16 ns.reverse := fun ns => by
    rw [foldl_digits, Nat.ofDigits_append]
    simp
  rw [hfold, foldl_hexStep, Hexadecimal]
  simp only [hzero]

theorem Hexadecimal.width (h : Hexadecimal ds n) : width ds = ds.length := by
  obtain ⟨ns, hns, -⟩ := h
  induction hns with
  | nil => rfl
  | cons hd _ ih => rw [Scan.width, ih, hd.plain.1, List.length_cons, Nat.add_comm]

theorem Hexadecimal.unsigned (h : Hexadecimal ds n) (cs : List Char) : ds ≠ '+' :: cs := by
  rintro rfl
  obtain ⟨ns, hns, -⟩ := h
  cases hns with
  | cons hd _ => exact hd.plain.2 rfl

/-- The characters are numbered by the scalar values. -/
theorem isScalar_iff : isScalar n = true ↔ (Char.ofNat n).toNat = n := by
  have hvalid : isScalar n = true ↔ n.isValidChar := by
    simp only [isScalar, Nat.isValidChar, Bool.or_eq_true, Bool.and_eq_true, decide_eq_true_eq]
  rw [hvalid]
  constructor
  · intro h
    rw [Char.ofNat, dif_pos h]
    rfl
  · intro h
    rw [← h]
    exact (Char.ofNat n).valid

/-- A number without its plus sign. -/
def unsigned : List Char → List Char
  | '+' :: ds => ds
  | ds => ds

theorem unsigned_eq (h : ∀ cs, ds ≠ '+' :: cs) : unsigned ds = ds := by
  unfold unsigned
  split
  · exact absurd rfl (h _)
  · rfl

theorem unicodeEscape_of_number {offset : Nat} {cs taken rest : List Char}
    (hbytes : takeBytes cs 4 = some (taken, rest)) (hn : hexNumber? (unsigned taken) = some n)
    (hscalar : isScalar n = true) : unicodeEscape offset cs = .ok (Char.ofNat n, rest) := by
  unfold unicodeEscape
  rw [hbytes]
  dsimp only
  generalize hread : hexNumber? _ = m
  obtain rfl : m = some n := hread.symm.trans hn
  exact if_pos hscalar

theorem unicodeEscape_ok_iff (quote : Char) {offset : Nat} {cs rest : List Char} :
    unicodeEscape offset cs = .ok (c, rest) ↔ ∃ ds, cs = ds ++ rest ∧ Readable quote ('\\' :: 'u' :: ds) [c] := by
  constructor
  · intro h
    unfold unicodeEscape at h
    split at h
    · cases h
    · rename_i hex rest' hbytes
      have hwidth := takeBytes_width hbytes
      have hcs := takeBytes_append hbytes
      dsimp only at h
      split at h
      · rename_i n hn
        split at h
        · rename_i hscalar
          cases h
          rw [← isScalar_iff.1 hscalar] at hn
          refine ⟨hex, hcs, ?_⟩
          split at hn
          · rename_i ds
            have hds : ds ≠ [] := by rintro rfl; cases hn
            have hnumber := (hexNumber?_eq_some_iff hds).1 hn
            rw [width, hnumber.width] at hwidth
            exact Or.inr (.mk (by have : '+'.utf8Size = 1 := rfl; omega) hnumber)
          · have hds : hex ≠ [] := by rintro rfl; cases hn
            have hnumber := (hexNumber?_eq_some_iff hds).1 hn
            rw [hnumber.width] at hwidth
            exact Or.inl (.unicode hwidth hnumber)
        · cases h
      · cases h
  · rintro ⟨ds, rfl, h⟩
    have hscalar : isScalar c.toNat = true := isScalar_iff.2 (by rw [Char.ofNat_toNat])
    have hread : ∀ taken digits, takeBytes (ds ++ rest) 4 = some (taken, rest) → unsigned taken = digits →
        digits ≠ [] → Hexadecimal digits c.toNat → unicodeEscape offset (ds ++ rest) = .ok (c, rest) := by
      intro taken digits hbytes hdigits hne hnumber
      have hn : hexNumber? (unsigned taken) = some c.toNat := by
        rw [hdigits]
        exact (hexNumber?_eq_some_iff hne).2 hnumber
      rw [unicodeEscape_of_number hbytes hn hscalar, Char.ofNat_toNat]
    rcases h with h | h
    · cases h with
      | escape h => simp [escapes] at h
      | unicode hlength hnumber =>
        have hbytes := takeBytes_of_width ds rest
        rw [hnumber.width, hlength] at hbytes
        exact hread ds ds hbytes (unsigned_eq hnumber.unsigned) (by rintro rfl; cases hlength) hnumber
    · cases h with
      | @mk digits _ hlength hnumber =>
        have hbytes := takeBytes_of_width ('+' :: digits) rest
        rw [width, hnumber.width, hlength] at hbytes
        exact hread _ digits hbytes rfl (by rintro rfl; cases hlength) hnumber

/-- What names no character is an error, where the number should be. -/
theorem unicodeEscape_error {offset : Nat} {cs : List Char} (h : ∀ c rest, unicodeEscape offset cs ≠ .ok (c, rest)) :
    unicodeEscape offset cs = fail .truncatedEscape offset ∨ unicodeEscape offset cs = fail .invalidEscape offset := by
  unfold unicodeEscape at h ⊢
  split
  · exact Or.inl rfl
  · rename_i hex rest hbytes
    rw [hbytes] at h
    dsimp only at h ⊢
    split
    · rename_i n hn
      rw [hn] at h
      dsimp only at h ⊢
      split
      · rename_i hscalar
        rw [if_pos hscalar] at h
        exact absurd rfl (h _ _)
      · exact Or.inr rfl
    · exact Or.inr rfl

/-! ## Reading pieces -/

theorem simpleEscape_of_mem (h : (d, c) ∈ escapes) : d ≠ 'u' ∧ simpleEscape d = [c] := by
  simp only [escapes, List.mem_cons, Prod.mk.injEq, List.not_mem_nil, or_false] at h
  rcases h with ⟨rfl, rfl⟩ | ⟨rfl, rfl⟩ | ⟨rfl, rfl⟩ | ⟨rfl, rfl⟩ | ⟨rfl, rfl⟩ | ⟨rfl, rfl⟩ | ⟨rfl, rfl⟩ <;> decide

theorem simpleEscape_of_unknown (h : ∀ c, (d, c) ∉ escapes) (hu : d ≠ 'u') : simpleEscape d = ['\\', d] := by
  have hmarks : ∀ d ∈ marks, d ≠ 'u' → d ∈ escapes.map (·.1) := by simp [marks, escapes]
  refine simpleEscape_of_not_mem fun hd => ?_
  obtain ⟨⟨_, c⟩, hc, rfl⟩ := List.mem_map.1 (hmarks d hd hu)
  exact h c hc

/-- A backslash and any character but `u` are a piece. -/
theorem Piece.simple (hu : d ≠ 'u') : Piece quote ['\\', d] (simpleEscape d) := by
  by_cases h : ∃ c, (d, c) ∈ escapes
  · obtain ⟨c, hc⟩ := h
    rw [(simpleEscape_of_mem hc).2]
    exact .escape hc
  · have h : ∀ c, (d, c) ∉ escapes := fun c hc => h ⟨c, hc⟩
    rw [simpleEscape_of_unknown h hu]
    exact .unknown h hu

theorem Readable.ne_nil (h : Readable quote p t) : p ≠ [] := by
  rcases h with h | h <;> cases h <;> simp

theorem Readable.unicode_width (h : Readable quote ('\\' :: 'u' :: ds) [c]) : width ('\\' :: 'u' :: ds) = 6 := by
  have hds : width ds = 4 := by
    rcases h with h | h
    · cases h with
      | escape h => simp [escapes] at h
      | unicode hlength hnumber => rw [hnumber.width, hlength]
    · cases h with
      | mk hlength hnumber => rw [width, hnumber.width, hlength]; rfl
  rw [width, width, hds]
  rfl

section
variable {start : Nat}

theorem stringRest_unicode (hq : quote ≠ '\\') {n offset : Nat} {done cs : List Char} :
    stringRest quote start (n + 1) offset done ('\\' :: 'u' :: cs) =
      unicodeEscape (offset + 2) cs >>= fun x => stringRest quote start n (offset + 6) (x.1 :: done) x.2 := by
  rw [stringRest.eq_def]
  dsimp only
  rw [if_neg (Ne.symm hq), if_pos rfl]
  rfl

theorem stringRest_readable (hq : quote ≠ '\\') (h : Readable quote p t) (n offset : Nat) (done cs : List Char) :
    stringRest quote start (n + 1) offset done (p ++ cs) =
      stringRest quote start n (offset + width p) (t.reverse ++ done) cs := by
  have hescape : ∀ d, d ≠ 'u' → stringRest quote start (n + 1) offset done ('\\' :: d :: cs) =
      stringRest quote start n (offset + width ['\\', d]) ((simpleEscape d).reverse ++ done) cs := fun d hd => by
    rw [stringRest_escape hq hd, Nat.add_assoc]
    rfl
  have hunicode : ∀ ds c, Readable quote ('\\' :: 'u' :: ds) [c] →
      stringRest quote start (n + 1) offset done ('\\' :: 'u' :: ds ++ cs) =
        stringRest quote start n (offset + width ('\\' :: 'u' :: ds)) (c :: done) cs := fun ds c hc => by
    rw [List.cons_append, List.cons_append, stringRest_unicode hq, (unicodeEscape_ok_iff quote).2 ⟨ds, rfl, hc⟩,
      hc.unicode_width]
    rfl
  have hread := h
  rcases h with h | h
  · cases h with
    | char hc hb => exact stringRest_char hc hb
    | escape h =>
      obtain ⟨hu, hd⟩ := simpleEscape_of_mem h
      have := hescape _ hu
      rwa [hd] at this
    | unknown h hu =>
      have := hescape _ hu
      rwa [simpleEscape_of_unknown h hu] at this
    | unicode => exact hunicode _ _ hread
  · cases h with
    | mk => exact hunicode _ _ hread

/-- After pieces the reading goes on with what they stand for done. -/
theorem Pieces.reads (start : Nat) (h : Pieces (Readable quote) b s) (hq : quote ≠ '\\') :
    ∀ n offset done cs, (b ++ cs).length < n → ∃ m, cs.length < m ∧ stringRest quote start n offset done (b ++ cs) =
      stringRest quote start m (offset + width b) (s.reverse ++ done) cs := by
  induction h with
  | nil => exact fun n offset done cs hn => ⟨n, hn, rfl⟩
  | @cons p t b s hp _ ih =>
    intro n offset done cs hn
    have hlength := List.length_pos_iff.2 hp.ne_nil
    rw [List.append_assoc, List.length_append] at hn
    obtain ⟨n, rfl⟩ : ∃ m, n = m + 1 := ⟨n - 1, by omega⟩
    obtain ⟨m, hm, hrest⟩ := ih n (offset + width p) (t.reverse ++ done) cs (by omega)
    refine ⟨m, hm, ?_⟩
    rw [List.append_assoc, stringRest_readable hq hp, hrest, width_append, List.reverse_append, List.append_assoc,
      Nat.add_assoc]

/-- The text left is pieces up to the closing quote, and `u` is what was done with what they stand for. -/
def Closes (quote : Char) (offset : Nat) (done cs : List Char) (u : String) (stop : Nat) (rest : List Char) : Prop :=
  ∃ b s, cs = b ++ quote :: rest ∧ Pieces (Readable quote) b s ∧ u = String.ofList (done.reverse ++ s) ∧
    stop = offset + width (b ++ [quote])

theorem Closes.cons {offset : Nat} {done cs rest : List Char} {u : String} {stop : Nat} (hp : Readable quote p t)
    (h : Closes quote (offset + width p) (t.reverse ++ done) cs u stop rest) :
    Closes quote offset done (p ++ cs) u stop rest := by
  obtain ⟨b, s, rfl, hpieces, rfl, rfl⟩ := h
  refine ⟨p ++ b, t ++ s, (List.append_assoc ..).symm, .cons hp hpieces, by simp, ?_⟩
  rw [List.append_assoc, width_append p, Nat.add_assoc]

/-- What is read up to the closing quote is pieces. -/
theorem stringRest_closes {n offset : Nat} {done cs rest : List Char} {u : String} {stop : Nat}
    (h : stringRest quote start n offset done cs = .ok (u, stop, rest)) : Closes quote offset done cs u stop rest := by
  induction n generalizing offset done cs with
  | zero => cases h
  | succ n ih =>
    cases cs with
    | nil => cases h
    | cons c cs =>
      rw [stringRest.eq_def] at h
      dsimp only at h
      split at h
      · rename_i hc
        cases h
        exact ⟨[], [], by rw [hc]; rfl, .nil, by rw [List.append_nil], by rw [hc]; rfl⟩
      · rename_i hquote
        split at h
        · rename_i hb
          subst hb
          split at h
          · cases h
          · rename_i cs' _
            obtain ⟨⟨d, cs''⟩, hd, hrest⟩ := bind_ok h
            obtain ⟨ds, rfl, hread⟩ := (unicodeEscape_ok_iff quote).1 hd
            have hwidth : width ('\\' :: 'u' :: ds) = 6 := hread.unicode_width
            exact .cons hread (by rw [hwidth]; exact ih hrest)
          · rename_i d cs' hu
            have hu : d ≠ 'u' := fun e => hu (by rw [e])
            have hrest := ih h
            rw [Nat.add_assoc] at hrest
            exact .cons (.inl (Piece.simple hu)) hrest
        · rename_i hb
          exact .cons (.inl (.char hquote hb)) (ih h)

end

/-! ## Where a sign stands -/

/-- No piece begins where an escape with a sign does. -/
theorem Piece.not_signed (h : Piece quote p t) (h' : Signed p' x) : p ++ b ≠ p' ++ b' := by
  intro he
  cases h' with
  | mk =>
    cases h with
    | char _ hb => exact hb (List.cons.inj he).1
    | escape hd =>
      obtain rfl := (List.cons.inj (List.cons.inj he).2).1
      simp [escapes] at hd
    | unknown _ hu => exact hu (List.cons.inj (List.cons.inj he).2).1
    | @unicode ds _ hlength hnumber =>
      have he : ds ++ b = _ := (List.cons.inj (List.cons.inj he).2).2
      cases ds with
      | nil => cases hlength
      | cons d ds => exact hnumber.unsigned ds (by rw [(List.cons.inj he).1])

/-- How far the piece reaches that a text begins with. -/
def reach : List Char → Nat
  | '\\' :: 'u' :: _ => 6
  | '\\' :: _ => 2
  | _ => 1

theorem Piece.length (h : Piece quote p t) (b : List Char) : p.length = reach (p ++ b) := by
  have hescape : ∀ d, d ≠ 'u' → reach ('\\' :: d :: b) = 2 := fun d hd => by
    unfold reach
    split
    · rename_i he
      exact absurd (List.cons.inj (List.cons.inj he).2).1 hd
    · rfl
    · rename_i hne
      exact absurd rfl (hne _)
  cases h with
  | @char c _ hb =>
    show 1 = reach (c :: b)
    unfold reach
    split
    · rename_i he
      exact absurd (List.cons.inj he).1 hb
    · rename_i he
      exact absurd (List.cons.inj he).1 hb
    · rfl
  | escape hd => exact (hescape _ (simpleEscape_of_mem hd).1).symm
  | unknown _ hu => exact (hescape _ hu).symm
  | unicode hlength _ => rw [List.length_cons, List.length_cons, hlength]; rfl

/-- Where one piece begins, no other does. -/
theorem Piece.unique (h : Piece quote p t) (h' : Piece quote p' x) (he : p ++ b = p' ++ b') : p = p' ∧ b = b' :=
  List.append_inj he (by rw [h.length b, he, h'.length b'])

theorem Piece.ne_nil (h : Piece quote p t) : p ≠ [] := Readable.ne_nil (.inl h)

/-- A literal with signs in its escapes is none of the grammar. -/
theorem not_pieces_of_signed (h : HasSigned quote b) (s : List Char) : ¬ Pieces (Piece quote) b s := by
  obtain ⟨b₁, s₁, p, t, b₂, hb₁, hp, rfl⟩ := h
  intro hs
  induction hb₁ generalizing s with
  | nil =>
    rw [List.nil_append] at hs
    generalize hb : p ++ b₂ = b at hs
    cases hs with
    | nil => cases hp; cases hb
    | cons hp' _ => exact hp'.not_signed hp hb.symm
  | @cons p₁ _ b₁ _ hp₁ _ ih =>
    rw [List.append_assoc] at hs
    generalize hb : p₁ ++ (b₁ ++ (p ++ b₂)) = b at hs
    cases hs with
    | nil => exact hp₁.ne_nil (List.append_eq_nil_iff.1 hb).1
    | cons hp' hs =>
      obtain ⟨-, rfl⟩ := hp₁.unique hp' hb
      exact ih _ hs

theorem pieces_or_signed (h : Pieces (Readable quote) b s) : Pieces (Piece quote) b s ∨ HasSigned quote b := by
  induction h with
  | nil => exact .inl .nil
  | @cons p t b s hp _ ih =>
    rcases hp with hp | hp
    · rcases ih with ih | ⟨b₁, s₁, p', t', b₂, hb₁, hp', rfl⟩
      · exact .inl (.cons hp ih)
      · exact .inr ⟨p ++ b₁, t ++ s₁, p', t', b₂, .cons hp hb₁, hp', (List.append_assoc ..).symm⟩
    · exact .inr ⟨[], [], p, t, b, .nil, hp, rfl⟩

/-! ## Literals as texts -/

def IsQuote (c : Char) : Prop := c = '\x27' ∨ c = '"'

section
variable (hq : IsQuote quote)
include hq

theorem IsQuote.ne_backslash : quote ≠ '\\' := by
  rcases hq with rfl | rfl <;> decide

theorem IsQuote.not_blank : isBlank quote = false := by
  rcases hq with rfl | rfl <;> decide

theorem IsQuote.size : quote.utf8Size = 1 := by
  rcases hq with rfl | rfl <;> rfl

/-- Pieces and the quote behind them are read as one string, whatever follows. -/
theorem string_of_pieces (h : Pieces (Readable quote) b s) (o : Nat) (rest : List Char) :
    string quote o (b ++ quote :: rest) = .ok ⟨.str (String.ofList s), width (quote :: b ++ [quote]), rest⟩ := by
  obtain ⟨m, hm, hread⟩ := h.reads o hq.ne_backslash ((b ++ quote :: rest).length + 1) (o + 1) []
    (quote :: rest) (Nat.lt_succ_self _)
  obtain ⟨m, rfl⟩ : ∃ m', m = m' + 1 := ⟨m - 1, by omega⟩
  have hclose : stringRest quote o (m + 1) (o + 1 + width b) (s.reverse ++ []) (quote :: rest) =
      .ok (String.ofList s, o + 1 + width b + quote.utf8Size, rest) := by
    rw [stringRest.eq_def]
    dsimp only
    rw [if_pos rfl, List.append_nil, List.reverse_reverse]
  have hwidth : width (quote :: b ++ [quote]) = o + 1 + width b + quote.utf8Size - o := by
    rw [List.cons_append, width, width_append, width, width, hq.size]
    omega
  rw [string, hread, hclose, hwidth]
  rfl

/-- What is read as a string is pieces and the quote behind them. -/
theorem string_ok {o : Nat} {cs : List Char} {l : Lexeme} (h : string quote o cs = .ok l) : ∃ b s,
    cs = b ++ quote :: l.rest ∧ Pieces (Readable quote) b s ∧
      l = ⟨.str (String.ofList s), width (quote :: b ++ [quote]), l.rest⟩ := by
  obtain ⟨⟨u, stop, rest⟩, hu, h⟩ := bind_ok h
  cases h
  obtain ⟨b, s, hcs, hpieces, hs, hstop⟩ := stringRest_closes hu
  have hwidth : stop - o = width (quote :: b ++ [quote]) := by
    rw [hstop, List.cons_append, width, hq.size]
    omega
  exact ⟨b, s, hcs, hpieces, by rw [hwidth, hs]; rfl⟩

theorem tokens_quoted (cs : List Char) : tokens (String.ofList (quote :: cs)) = string quote 0 cs >>= fun l =>
    tokensFrom cs.length (0 + l.width) l.rest >>= fun ts => .ok (⟨l.kind, 0⟩ :: ts) := by
  have hlexeme : lexeme 0 (quote :: cs) = string quote 0 cs := by
    rcases hq with rfl | rfl <;> rfl
  simp only [tokens, String.toList_ofList, List.length_cons, tokensFrom, List.takeWhile_cons, List.dropWhile_cons,
    hq.not_blank, Bool.false_eq_true, if_false, width, Nat.add_zero, hlexeme]
  rfl

end

theorem tokensFrom_nil (n o : Nat) : tokensFrom n o [] = .ok [⟨.eof, o⟩] := by
  cases n <;> rfl

theorem tokensFrom_ne_nil {o : Nat} {cs : List Char} : tokensFrom n o cs ≠ .ok [] := by
  intro h
  cases n with
  | zero => cases h
  | succ n =>
    simp only [tokensFrom] at h
    split at h
    · cases h
    · obtain ⟨_, _, h⟩ := bind_ok h
      obtain ⟨_, _, h⟩ := bind_ok h
      cases h

/-- If all that is left has no token but the end, nothing but blanks is left. -/
theorem blank_of_tokensFrom {o w : Nat} {cs : List Char} (h : tokensFrom (n + 1) o cs = .ok [⟨.eof, w⟩]) :
    ∀ c ∈ cs, isBlank c = true := by
  simp only [tokensFrom] at h
  split at h
  · rename_i hblank
    exact List.dropWhile_eq_nil_iff.1 hblank
  · obtain ⟨_, _, h⟩ := bind_ok h
    obtain ⟨ts, hts, h⟩ := bind_ok h
    obtain rfl : ts = [] := (List.cons.inj (Except.ok.inj h)).2
    exact absurd hts tokensFrom_ne_nil

/-- Between quotes, the text is one string token just if it is pieces. -/
theorem readAs_iff (hq : IsQuote quote) : ReadAs quote b s ↔ Pieces (Readable quote) b s := by
  rw [ReadAs, List.cons_append, tokens_quoted hq]
  constructor
  · intro h
    obtain ⟨l, hl, h⟩ := bind_ok h
    obtain ⟨ts, hts, h⟩ := bind_ok h
    obtain ⟨b', s', hb, hpieces, hstring⟩ := string_ok hq hl
    rw [hstring] at h
    simp only [Except.ok.injEq, List.cons.injEq, Token.mk.injEq, Token.Kind.str.injEq] at h
    obtain ⟨⟨hs, -⟩, rfl⟩ := h
    rw [← String.ofList_injective hs]
    rw [List.length_append, List.length_singleton] at hts
    have hblank := blank_of_tokensFrom hts
    -- The text ends with a quote, which is no blank: nothing is left after the one that closes it.
    obtain hrest | ⟨rest, c, hrest⟩ := l.rest.eq_nil_or_concat
    · rw [hrest] at hb
      obtain rfl := List.append_cancel_right hb
      exact hpieces
    · rw [hrest, List.concat_eq_append] at hblank
      rw [hrest, List.concat_eq_append, ← List.cons_append, ← List.append_assoc] at hb
      obtain rfl : quote = c := List.cons.inj (List.append_inj_right' hb rfl) |>.1
      have := hblank quote (by simp)
      rw [hq.not_blank] at this
      cases this
  · intro h
    rw [string_of_pieces hq h, ok_bind, tokensFrom_nil, ok_bind, Nat.zero_add]
    rfl

/-- A `\u` that is followed by the number of no character is an error of the text, behind the `u`. -/
theorem malformed_escape (hq : IsQuote quote) {cs : List Char} (h : Pieces (Readable quote) b s)
    (hcs : ∀ p c rest, Readable quote ('\\' :: 'u' :: p) [c] → cs ≠ p ++ rest) :
    ∃ cause, (cause = .truncatedEscape ∨ cause = .invalidEscape) ∧
      tokens (String.ofList (quote :: b ++ '\\' :: 'u' :: cs)) = .error ⟨cause, width (quote :: b) + 2⟩ := by
  have hnone : ∀ c rest, unicodeEscape (1 + width b + 2) cs ≠ .ok (c, rest) := fun c rest hc => by
    obtain ⟨p, hp, hread⟩ := (unicodeEscape_ok_iff quote).1 hc
    exact hcs p c rest hread hp
  obtain ⟨m, hm, hread⟩ := h.reads 0 hq.ne_backslash ((b ++ '\\' :: 'u' :: cs).length + 1) 1 []
    ('\\' :: 'u' :: cs) (Nat.lt_succ_self _)
  obtain ⟨m, rfl⟩ : ∃ m', m = m' + 1 := ⟨m - 1, by omega⟩
  have herror : ∀ cause, unicodeEscape (1 + width b + 2) cs = fail cause (1 + width b + 2) →
      tokens (String.ofList (quote :: b ++ '\\' :: 'u' :: cs)) = .error ⟨cause, width (quote :: b) + 2⟩ := by
    intro cause hcause
    rw [List.cons_append, tokens_quoted hq, string, Nat.zero_add, hread, stringRest_unicode hq.ne_backslash, hcause,
      width, hq.size]
    rfl
  rcases unicodeEscape_error hnone with hcause | hcause
  · exact ⟨_, .inl rfl, herror _ hcause⟩
  · exact ⟨_, .inr rfl, herror _ hcause⟩

/-- Between quotes a text is one string token just if it is pieces, and the string is what these stand for; the pieces
are those of the grammar and the escape with a sign. So the grammar is met exactly by every text without such an escape,
and by none that has one. A string is read back from whatever spelling each of its characters has, and `\u` before
anything that numbers no character is an error. -/
theorem string_literal_exact (quote : Char) (hq : IsQuote quote) :
    (∀ b s, ReadAs quote b s ↔ Pieces (Readable quote) b s) ∧
    (∀ b, ¬ HasSigned quote b → ∀ s, ReadAs quote b s ↔ Pieces (Piece quote) b s) ∧
    (∀ b, HasSigned quote b → ∀ s, ¬ Pieces (Piece quote) b s) ∧
    (∀ cs : List (Char × List Char), (∀ x ∈ cs, Piece quote x.2 [x.1]) →
      ReadAs quote (cs.flatMap (·.2)) (cs.map (·.1))) ∧
    (∀ b s cs, Pieces (Readable quote) b s → (∀ p c rest, Readable quote ('\\' :: 'u' :: p) [c] → cs ≠ p ++ rest) →
      ∃ cause, (cause = .truncatedEscape ∨ cause = .invalidEscape) ∧
        tokens (String.ofList (quote :: b ++ '\\' :: 'u' :: cs)) = .error ⟨cause, width (quote :: b) + 2⟩) := by
  have hgrammar : ∀ {b s}, Pieces (Piece quote) b s → Pieces (Readable quote) b s := fun h => h.mono fun _ _ => Or.inl
  refine ⟨fun b s => readAs_iff hq, fun b hb s => ?_, fun b hb s => not_pieces_of_signed hb s, fun cs hcs => ?_,
    fun b s cs hb hcs => malformed_escape hq hb hcs⟩
  · rw [readAs_iff hq]
    exact ⟨fun h => (pieces_or_signed h).resolve_right hb, hgrammar⟩
  · exact (readAs_iff hq).2 (hgrammar (.spellings hcs))

/-- Two spellings of an A, then a backslash before a character that makes no escape; and a `\u` before one digit. -/
theorem string_literal_exact_of_letters :
    ReadAs '"' "A\\u0041\\d".toList ['A', 'A', '\\', 'd'] ∧
    ReadAs '"' "A\\u0041".toList ['A', 'A'] ∧
    ∃ cause, (cause = .truncatedEscape ∨ cause = .invalidEscape) ∧
      tokens "\"A\\u4\"" = .error ⟨cause, 4⟩ := by
  have hq : IsQuote '"' := .inr rfl
  have hplain : Piece '"' ['A'] ['A'] := .char (by decide) (by decide)
  have hdigit : ∀ c n, hexValue? c = some n → HexDigit c n := fun _ _ => hexValue?_eq_some_iff.1
  have hdigits : List.Forall₂ HexDigit ['0', '0', '4', '1'] [0, 0, 4, 1] :=
    .cons (hdigit _ _ rfl) (.cons (hdigit _ _ rfl) (.cons (hdigit _ _ rfl) (.cons (hdigit _ _ rfl) .nil)))
  have hnumber : Hexadecimal ['0', '0', '4', '1'] 'A'.toNat := ⟨_, hdigits, by decide⟩
  have hunicode : Piece '"' ['\\', 'u', '0', '0', '4', '1'] ['A'] := .unicode rfl hnumber
  have hunknown : Piece '"' ['\\', 'd'] ['\\', 'd'] := .unknown (by simp [escapes]) (by decide)
  have hpieces : Pieces (Piece '"') "A\\u0041\\d".toList ['A', 'A', '\\', 'd'] :=
    .cons hplain (.cons hunicode (.cons hunknown .nil))
  obtain ⟨hexact, hgrammar, hsigned, hspelled, hmalformed⟩ := string_literal_exact '"' hq
  refine ⟨(hgrammar _ (fun h => hsigned _ h _ hpieces) _).2 hpieces, ?_, ?_⟩
  · exact hspelled [('A', ['A']), ('A', ['\\', 'u', '0', '0', '4', '1'])]
      (List.forall_mem_cons.2 ⟨hplain, List.forall_mem_singleton.2 hunicode⟩)
  · have hletter : Readable '"' ['A'] ['A'] := .inl hplain
    refine hmalformed ['A'] ['A'] ['4', '"'] (.cons hletter .nil) fun p c rest hp he => ?_
    have hwidth := hp.unicode_width
    have htext := congrArg width he
    rw [width_append] at htext
    simp only [width] at hwidth htext
    have : 'u'.utf8Size = 1 ∧ '\\'.utf8Size = 1 ∧ '4'.utf8Size = 1 ∧ '"'.utf8Size = 1 := ⟨rfl, rfl, rfl, rfl⟩
    omega

/-- `\u+041` is read as an A, though no digit stands where the sign does and the grammar has no such literal. -/
theorem signed_escape_read :
    ReadAs '\x27' "\\u+041".toList ['A'] ∧ ¬ ∃ s, Pieces (Piece '\x27') "\\u+041".toList s := by
  refine ⟨rfl, ?_⟩
  rintro ⟨s, h⟩
  have hdigits : List.Forall₂ HexDigit ['0', '4', '1'] [0, 4, 1] :=
    .cons (hexValue?_eq_some_iff.1 rfl) (.cons (hexValue?_eq_some_iff.1 rfl) (.cons (hexValue?_eq_some_iff.1 rfl) .nil))
  have hsigned : Signed ['\\', 'u', '+', '0', '4', '1'] ['A'] := .mk rfl ⟨_, hdigits, by decide⟩
  exact not_pieces_of_signed ⟨[], [], _, _, [], .nil, hsigned, rfl⟩ s h

end

end MockSchema.Scan
