/-
  MockSchema.Proofs.WrittenTokens — a written value is scanned to the tokens it is made of.

  `Scans Next cs ks`: where `Next` holds of what follows, `cs` is cut into tokens of these kinds and no token
  takes from what follows. A word and a number go on as far as they can, so of a value this holds before
  an end or a comma only (`Closed`). `Writable` are the values without floats whose keys are
  verbatim (`written_scans`).
-/

import MockSchema.Expr.Display
import MockSchema.Proofs.Reads
import MockSchema.Proofs.StringLiteral

namespace MockSchema

open Grammar Parse

/-- Without floats, with integers above the smallest, and every key as it stands between quotes. -/
inductive Value.Writable : Value → Prop
  | null : Writable .null
  | bool (b : Bool) : Writable (.bool b)
  | int {n : Int} : smallest < n → n ≤ largest → Writable (.int n)
  | str (s : String) : Writable (.str s)
  | list {xs : List Value} : (∀ x ∈ xs, Writable x) → Writable (.list xs)
  | object {fields : Dict Value} :
      (∀ kv ∈ fields, Scan.Verbatim kv.1.toList) → (∀ kv ∈ fields, Writable kv.2) → Writable (.object fields)

namespace Display

mutual

/-- The tokens of a written value. -/
def kinds : Value → List Token.Kind
  | .null => [.symbol .kwNone]
  | .bool b => [.symbol (if b then .kwTrue else .kwFalse)]
  | .int (.ofNat n) => [.int n]
  | .int (.negSucc n) => [.symbol .minus, .int (n + 1)]
  | .float x => [.float x]
  | .str s => [.str s]
  | .list xs => [.symbol .lbracket] ++ (separated (kindsAll xs) ++ [.symbol .rbracket])
  | .object fields => [.symbol .lbrace] ++ (separated (kindsFields fields) ++ [.symbol .rbrace])

def kindsAll : List Value → List (List Token.Kind)
  | [] => []
  | v :: vs => kinds v :: kindsAll vs

def kindsFields : List (String × Value) → List (List Token.Kind)
  | [] => []
  | (k, v) :: fields => ([.str k] ++ ([.symbol .colon] ++ kinds v)) :: kindsFields fields

end

section
variable {α β : Type} {f : α → β} {fs : List α → List β}

/-- A function that goes through a list on its own, as the ones here have to. -/
theorem eq_map (hnil : fs [] = []) (hcons : ∀ x xs, fs (x :: xs) = f x :: fs xs) (xs : List α) : fs xs = xs.map f := by
  induction xs with
  | nil => exact hnil
  | cons x xs ih => rw [hcons, ih, List.map_cons]

end

theorem kindsAll_eq_map : ∀ xs : List Value, kindsAll xs = xs.map kinds :=
  eq_map rfl fun _ _ => rfl

theorem kindsFields_eq_map : ∀ fields : List (String × Value),
    kindsFields fields = fields.map fun kv => [.str kv.1] ++ ([.symbol .colon] ++ kinds kv.2) :=
  eq_map rfl fun _ _ => rfl

theorem writtenAll_eq_map : ∀ xs : List Value, writtenAll xs = xs.map written :=
  eq_map rfl fun _ _ => rfl

theorem writtenFields_eq_map : ∀ fields : List (String × Value),
    writtenFields fields = fields.map fun kv => "'" ++ kv.1 ++ "': " ++ written kv.2 :=
  eq_map rfl fun _ _ => rfl

end Display

namespace Scan

open Text Decimal

/-! ## Scanning piece by piece -/

/-- What goes on with no word and no number: the end, a comma or a closing bracket. -/
inductive Closed : List Char → Prop
  | done : Closed []
  | comma (cs : List Char) : Closed (',' :: cs)
  | rbracket (cs : List Char) : Closed (']' :: cs)
  | rbrace (cs : List Char) : Closed ('\x7d' :: cs)

def Any (_ : List Char) : Prop := True

/-- The number of tokens that may be read suffices as long as it is no less than that of the characters. -/
def Scans (Next : List Char → Prop) (cs : List Char) (ks : List Token.Kind) : Prop :=
  ∀ tail n o, Next tail → (cs ++ tail).length ≤ n → ∃ n' o', tail.length ≤ n' ∧
    ∀ rest, tokensFrom n' o' tail = .ok rest → ∃ ts, tokensFrom n o (cs ++ tail) = .ok ts ∧ Spelled ks ts rest

section
variable {Next Next' : List Char → Prop} {cs cs' : List Char} {ks ks' : List Token.Kind}

theorem Scans.nil : Scans Next [] [] := fun _ n o _ hn => ⟨n, o, hn, fun rest h => ⟨rest, h, .nil⟩⟩

theorem Scans.append (h : Scans Next cs ks) (h' : Scans Next' cs' ks') (hnext : ∀ tail, Next' tail → Next (cs' ++ tail)) :
    Scans Next' (cs ++ cs') (ks ++ ks') := by
  intro tail n o htail hn
  rw [List.append_assoc] at hn ⊢
  obtain ⟨n₁, o₁, hn₁, h⟩ := h _ n o (hnext tail htail) hn
  obtain ⟨n₂, o₂, hn₂, h'⟩ := h' tail n₁ o₁ htail hn₁
  refine ⟨n₂, o₂, hn₂, fun rest hrest => ?_⟩
  obtain ⟨mid, hmid, hs'⟩ := h' rest hrest
  obtain ⟨ts, hts, hs⟩ := h mid hmid
  exact ⟨ts, hts, hs.append hs'⟩

theorem Scans.weaken (h : Scans Any cs ks) : Scans Next cs ks := fun tail n o _ => h tail n o trivial

/-- One token. -/
theorem Scans.lexeme {c : Char} {k : Token.Kind} (hc : isBlank c = false)
    (h : ∀ o tail, Next tail → ∃ w, lexeme o (c :: cs ++ tail) = .ok ⟨k, w, tail⟩) : Scans Next (c :: cs) [k] := by
  intro tail n o htail hn
  obtain ⟨n, rfl⟩ : ∃ m, n = m + 1 := ⟨n - 1, by simp only [List.cons_append, List.length_cons] at hn; omega⟩
  obtain ⟨w, hw⟩ := h o tail htail
  refine ⟨n, o + w, ?_, fun rest hrest => ⟨⟨k, o⟩ :: rest, ?_, .cons .nil⟩⟩
  · simp only [List.cons_append, List.length_cons, List.length_append] at hn
    omega
  · simp only [List.cons_append] at hw
    simp only [tokensFrom, List.cons_append, List.takeWhile_cons, List.dropWhile_cons, hc, Bool.false_eq_true,
      if_false, width, Nat.add_zero, hw]
    show (tokensFrom n (o + w) tail >>= _) = _
    rw [hrest]
    rfl

theorem Scans.blank : Scans Any [' '] [] := by
  intro tail n o _ hn
  obtain ⟨n, rfl⟩ : ∃ m, n = m + 1 := ⟨n - 1, by simp only [List.cons_append, List.length_cons] at hn; omega⟩
  refine ⟨n + 1, o + 1, ?_, fun rest hrest => ⟨rest, ?_, .nil⟩⟩
  · simp only [List.cons_append, List.nil_append, List.length_cons] at hn
    omega
  · rw [← hrest]
    have hblank : isBlank ' ' = true := by decide
    have hwidth : o + (1 + width (tail.takeWhile isBlank)) = o + 1 + width (tail.takeWhile isBlank) := by omega
    simp only [tokensFrom, List.cons_append, List.nil_append, List.takeWhile_cons, List.dropWhile_cons, hblank, if_true,
      width, show Char.utf8Size ' ' = 1 from rfl, hwidth]

/-- The marks of a written value; each is the whole of what is scanned, whatever follows. -/
def punctuation : List Symbol := [.lbracket, .rbracket, .lbrace, .rbrace, .comma, .colon, .minus]

theorem scans_mark (s : Symbol) (h : s ∈ punctuation) : Scans Any s.text.toList [.symbol s] := by
  simp only [punctuation, List.mem_cons, List.not_mem_nil, or_false] at h
  rcases h with rfl | rfl | rfl | rfl | rfl | rfl | rfl <;>
    exact .lexeme (by decide) fun _ _ _ => ⟨_, rfl⟩

theorem scans_quoted {b s : List Char} (h : Denotes '\x27' b s) :
    Scans Any ('\x27' :: (b ++ ['\x27'])) [.str (String.ofList s)] := by
  refine .lexeme (by decide) fun o tail _ => ?_
  have := lexeme_quoted h o tail
  simpa using this

theorem scans_null : Scans Closed "None".toList [.symbol .kwNone] :=
  .lexeme (by decide) fun _ _ h => by cases h <;> exact ⟨_, rfl⟩

theorem scans_bool (b : Bool) : Scans Closed (Display.written (.bool b)).toList (Display.kinds (.bool b)) := by
  cases b with
  | false => exact .lexeme (by decide) fun _ _ h => by cases h <;> exact ⟨_, rfl⟩
  | true => exact .lexeme (by decide) fun _ _ h => by cases h <;> exact ⟨_, rfl⟩

end

/-! ## Integers -/

theorem Closed.takeWhile {tail : List Char} (h : Closed tail) : tail.takeWhile isNumeralChar = [] := by
  cases h <;> rfl

theorem Closed.dropWhile {tail : List Char} (h : Closed tail) : tail.dropWhile isNumeralChar = tail := by
  cases h <;> rfl

theorem Closed.exponentMark {tail : List Char} (h : Closed tail) : exponentMark tail = none := by
  cases h with
  | done => rfl
  | comma cs => cases cs <;> rfl
  | rbracket cs => cases cs <;> rfl
  | rbrace cs => cases cs <;> rfl

/-- Digits up to their end are a number without a fraction and without an exponent. -/
theorem numeral_digits (ds : List Char) {tail : List Char} (hds : ∀ d ∈ ds, isDigit d = true) (ht : Closed tail) :
    numeral (ds ++ tail) = (⟨ds, none, none⟩, tail) := by
  have hchars : ∀ d ∈ ds, isNumeralChar d = true := fun d hd => by rw [isNumeralChar, hds d hd, Bool.true_or]
  have htake : (ds ++ tail).takeWhile isNumeralChar = ds := by
    rw [List.takeWhile_append_of_pos hchars, ht.takeWhile, List.append_nil]
  have hdrop : (ds ++ tail).dropWhile isNumeralChar = tail := by
    rw [List.dropWhile_append_of_pos hchars, ht.dropWhile]
  have hpoint : ∀ r, tail = '.' :: r → False := fun r h => by cases ht <;> cases h
  unfold numeral
  rw [htake, hdrop]
  simp only [ht.exponentMark]

theorem natOfDigits_toDigits (n : Nat) : natOfDigits (Nat.toDigits 10 n) = n := by
  have h := Nat.ofDigitChars_ten_toDigits (n := n)
  rw [Nat.ofDigitChars_eq_foldl] at h
  exact h

theorem isDigit_of_mem_toDigits {n : Nat} {d : Char} (h : d ∈ Nat.toDigits 10 n) : isDigit d = true := by
  have hd := Nat.isDigit_of_mem_toDigits (by decide) (by decide) h
  simp only [Char.isDigit, isDigit, Bool.and_eq_true, decide_eq_true_eq] at hd ⊢
  exact hd

theorem withoutUnderscores_toDigits (n : Nat) : withoutUnderscores (Nat.toDigits 10 n) = Nat.toDigits 10 n := by
  refine List.filter_eq_self.2 fun d hd => bne_iff_ne.2 fun e => ?_
  exact Nat.underscore_not_in_toDigits (e ▸ hd)

theorem isBlank_of_isDigit {c : Char} (h : isDigit c = true) : isBlank c = false := by
  simp only [isDigit, Bool.and_eq_true, decide_eq_true_eq] at h
  have h₁ : 48 ≤ c.toNat := h.1
  have h₂ : c.toNat ≤ 57 := h.2
  simp [isBlank, inRanges, blankRanges]
  omega

theorem scans_nat {n : Nat} (hn : (n : Int) ≤ largest) : Scans Closed (toString n).toList [.int n] := by
  rw [Nat.toString_eq_ofList_toDigits, String.toList_ofList]
  obtain ⟨d, ds, hds⟩ : ∃ d ds, Nat.toDigits 10 n = d :: ds := List.exists_cons_of_ne_nil Nat.toDigits_ne_nil
  have hdigit : isDigit d = true := isDigit_of_mem_toDigits (n := n) (hds ▸ List.mem_cons_self)
  rw [hds]
  refine .lexeme (isBlank_of_isDigit hdigit) fun o tail ht => ⟨(Nat.toDigits 10 n).length, ?_⟩
  have hnumeral := numeral_digits (Nat.toDigits 10 n) (fun _ => isDigit_of_mem_toDigits) ht
  have hkind : (Numeral.mk (Nat.toDigits 10 n) none none).kind o = .ok (.int n) := by
    simp only [Numeral.kind, withoutUnderscores_toDigits, natOfDigits_toDigits, if_pos hn]
  show (if (isDigit d || _) = true then number o (d :: ds ++ tail) else _) = _
  rw [hdigit, Bool.true_or, if_pos rfl, ← hds, number, hnumeral]
  simp only [hkind]
  simp [Except.map, Numeral.spelling]

theorem scans_int {n : Int} (h : smallest < n) (h' : n ≤ largest) :
    Scans Closed (Display.written (.int n)).toList (Display.kinds (.int n)) := by
  cases n with
  | ofNat n => exact scans_nat h'
  | negSucc n =>
    have hn : ((n + 1 : Nat) : Int) ≤ largest := by unfold smallest at h; unfold largest; omega
    have htext : (Display.written (.int (.negSucc n))).toList = Symbol.minus.text.toList ++ (toString (n + 1)).toList :=
      String.toList_append ..
    rw [htext]
    exact (scans_mark .minus (by decide)).append (scans_nat hn) fun _ _ => trivial

/-! ## Values -/

theorem scans_separated {α : Type} {f : α → List Char} {g : α → List Token.Kind} {xs : List α}
    (h : ∀ x ∈ xs, Scans Closed (f x) (g x)) :
    Scans Closed ([',', ' '].intercalate (xs.map f)) (separated (xs.map g)) := by
  induction xs with
  | nil => exact .nil
  | cons x xs ih =>
    have hx := h x List.mem_cons_self
    have hxs := ih fun y hy => h y (List.mem_cons_of_mem _ hy)
    cases xs with
    | nil =>
      rw [List.map_singleton, List.map_singleton, List.intercalate_singleton, separated_singleton]
      exact hx
    | cons y ys =>
      simp only [List.map_cons] at hxs ⊢
      rw [List.intercalate_cons_cons, separated_cons_cons, List.append_assoc]
      have hrest := (scans_mark .comma (by decide)).append (Scans.blank.append hxs fun _ _ => trivial) fun _ _ => trivial
      exact hx.append hrest fun tail _ => .comma _

/-- What stands in brackets ends where its bracket closes. -/
theorem Scans.bracketed {cs : List Char} {ks : List Token.Kind} (h : Scans Closed cs ks) (l r : Symbol)
    (hl : l ∈ punctuation) (hr : r ∈ punctuation) (hclosed : ∀ tail, Closed (r.text.toList ++ tail)) :
    Scans Any (l.text.toList ++ (cs ++ r.text.toList)) ([.symbol l] ++ (ks ++ [.symbol r])) :=
  (scans_mark l hl).append (h.append (scans_mark r hr) fun tail _ => hclosed tail) fun _ _ => trivial

theorem scans_list {xs : List Value} (h : ∀ x ∈ xs, Scans Closed (Display.written x).toList (Display.kinds x)) :
    Scans Any (Display.written (.list xs)).toList (Display.kinds (.list xs)) := by
  have hlist := (scans_separated h).bracketed .lbracket .rbracket (by decide) (by decide) .rbracket
  rw [Display.written, Display.kinds, Display.writtenAll_eq_map, Display.kindsAll_eq_map, String.toList_append,
    String.toList_append, String.toList_intercalate, List.map_map, List.append_assoc]
  exact hlist

theorem scans_entry {kv : String × Value} (hk : Verbatim kv.1.toList)
    (hv : Scans Closed (Display.written kv.2).toList (Display.kinds kv.2)) :
    Scans Closed ("'" ++ kv.1 ++ "': " ++ Display.written kv.2).toList
      ([.str kv.1] ++ ([.symbol .colon] ++ Display.kinds kv.2)) := by
  have hkey := scans_quoted hk.denotes
  have hvalue := (scans_mark .colon (by decide)).append (Scans.blank.append hv fun _ _ => trivial) fun _ _ => trivial
  have hentry := hkey.append hvalue fun _ _ => trivial
  have htext : ("'" ++ kv.1 ++ "': " ++ Display.written kv.2).toList =
      '\x27' :: (kv.1.toList ++ ['\x27']) ++ (Symbol.colon.text.toList ++ ([' '] ++ (Display.written kv.2).toList)) := by
    simp [Symbol.text]
  rw [htext]
  rwa [String.ofList_toList] at hentry

theorem scans_object {fields : Dict Value} (hk : ∀ kv ∈ fields, Verbatim kv.1.toList)
    (hv : ∀ kv ∈ fields, Scans Closed (Display.written kv.2).toList (Display.kinds kv.2)) :
    Scans Any (Display.written (.object fields)).toList (Display.kinds (.object fields)) := by
  have hentries := scans_separated fun kv hkv => scans_entry (hk kv hkv) (hv kv hkv)
  have hobject := hentries.bracketed .lbrace .rbrace (by decide) (by decide) .rbrace
  rw [Display.written, Display.kinds, Display.writtenFields_eq_map, Display.kindsFields_eq_map, String.toList_append,
    String.toList_append, String.toList_intercalate, List.map_map, List.append_assoc]
  exact hobject

theorem scans_str (s : String) : Scans Any (Display.written (.str s)).toList (Display.kinds (.str s)) := by
  have hquoted := scans_quoted (denotes_escape s.toList)
  have htext : (Display.written (.str s)).toList = '\x27' :: (s.toList.flatMap Display.escape ++ ['\x27']) := by
    rw [Display.written]
    simp
  rw [htext]
  rwa [String.ofList_toList] at hquoted

/-- Before a closing bracket, a comma or the end, a written value is scanned to its tokens. -/
theorem written_scans {v : Value} (h : v.Writable) : Scans Closed (Display.written v).toList (Display.kinds v) := by
  induction h with
  | null => exact scans_null
  | bool b => exact scans_bool b
  | int h h' => exact scans_int h h'
  | str s => exact (scans_str s).weaken
  | list _ ih => exact (scans_list ih).weaken
  | object hk _ ih => exact (scans_object hk ih).weaken

/-- The tokens of a text that is scanned to its end. -/
theorem Scans.tokens {Next : List Char → Prop} {s : String} {ks : List Token.Kind} (h : Scans Next s.toList ks)
    (hnext : Next []) : ∃ ts o, tokens s = .ok ts ∧ Spelled ks ts [⟨.eof, o⟩] := by
  obtain ⟨n, o, -, hts⟩ := h [] s.toList.length 0 hnext (by simp)
  have hend : tokensFrom n o [] = .ok [⟨.eof, o⟩] := by cases n <;> rfl
  obtain ⟨ts, hts, hs⟩ := hts _ hend
  rw [List.append_nil] at hts
  exact ⟨ts, o, hts, hs⟩

end Scan

end MockSchema
