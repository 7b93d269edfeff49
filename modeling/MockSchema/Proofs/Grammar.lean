/-
  MockSchema.Proofs.Grammar — the grammar of the expression language, without a reader and
  without a limit on nesting.

  `Derives p ts t rest` says that a phrase `p` takes the tokens `ts` up to `rest` and has the
  tree `t`. The phrases are stratified: a phrase of one level is one of the next tighter level, or
  what its own operators make of them. `or`, `and`, `+ -`, `* / // %` and the postfix forms
  associate to the left, `**` and the choice to the right; comparisons form one chain. Where a token
  stands in the text is of no account to any rule.

  Two facts about tokens decide which rule applies: what a phrase can begin with (`Kind.lead`,
  `Derives.leads`) and how tightly a token holds on to the phrase before it (`Kind.grip`). Each
  phrase takes a token at least, an absent bound excepted (`Derives.length_le`).
-/

import MockSchema.Expr.Parse

namespace MockSchema.Grammar

/-! ## Operators as they are spelled -/

def sumOp? : Symbol → Option BinaryOp
  | .plus => some .add
  | .minus => some .sub
  | _ => none

def termOp? : Symbol → Option BinaryOp
  | .star => some .mul
  | .slash => some .div
  | .slashSlash => some .floorDiv
  | .percent => some .mod
  | _ => none

def sign? : Symbol → Option UnaryOp
  | .minus => some .neg
  | .plus => some .pos
  | _ => none

def spelling : Relation → List Token.Kind
  | .eq => [.symbol .eqEq]
  | .ne => [.symbol .notEq]
  | .lt => [.symbol .lt]
  | .le => [.symbol .ltEq]
  | .gt => [.symbol .gt]
  | .ge => [.symbol .gtEq]
  | .mem => [.symbol .kwIn]
  | .notMem => [.symbol .kwNot, .symbol .kwIn]
  | .is => [.symbol .kwIs]
  | .isNot => [.symbol .kwIs, .symbol .kwNot]

/-- The literals that are one word. -/
def constant? : Symbol → Option Value
  | .kwTrue => some (.bool true)
  | .kwFalse => some (.bool false)
  | .kwNone => some .null
  | _ => none

/-- The tokens begin with these, wherever they stand. -/
inductive Spelled : List Token.Kind → List Token → List Token → Prop
  | nil {ts : List Token} : Spelled [] ts ts
  | cons {k : Token.Kind} {ks : List Token.Kind} {o : Nat} {ts rest : List Token} :
      Spelled ks ts rest → Spelled (k :: ks) (⟨k, o⟩ :: ts) rest

/-! ## Phrases -/

inductive Phrase where
  | conditional
  | disjunction
  | conjunction
  | negation
  | comparison
  | sum
  | term
  | signed
  | power
  | postfixed
  | atom
  | links
  | strings
  | bound
  | items (close : Symbol)
  | entries

/-- What a phrase is read as. -/
abbrev Phrase.Tree : Phrase → Type
  | links => List (Relation × Expr)
  | strings => String
  | bound => Option Expr
  | items _ => List Expr
  | entries => List (Expr × Expr)
  | _ => Expr

inductive Derives : (p : Phrase) → List Token → p.Tree → List Token → Prop
  | disjunction {ts rest : List Token} {e : Expr} :
      Derives .disjunction ts e rest → Derives .conditional ts e rest
  | choice {ts ts₁ ts₂ rest : List Token} {yes c no : Expr} {o₁ o₂ : Nat} :
      Derives .disjunction ts yes (⟨.symbol .kwIf, o₁⟩ :: ts₁) →
      Derives .disjunction ts₁ c (⟨.symbol .kwElse, o₂⟩ :: ts₂) →
      Derives .conditional ts₂ no rest → Derives .conditional ts (.conditional c yes no) rest
  | conjunction {ts rest : List Token} {e : Expr} :
      Derives .conjunction ts e rest → Derives .disjunction ts e rest
  | or {ts ts₁ rest : List Token} {a b : Expr} {o : Nat} :
      Derives .disjunction ts a (⟨.symbol .kwOr, o⟩ :: ts₁) → Derives .conjunction ts₁ b rest →
      Derives .disjunction ts (.or a b) rest
  | negation {ts rest : List Token} {e : Expr} :
      Derives .negation ts e rest → Derives .conjunction ts e rest
  | and {ts ts₁ rest : List Token} {a b : Expr} {o : Nat} :
      Derives .conjunction ts a (⟨.symbol .kwAnd, o⟩ :: ts₁) → Derives .negation ts₁ b rest →
      Derives .conjunction ts (.and a b) rest
  | comparison {ts rest : List Token} {e : Expr} :
      Derives .comparison ts e rest → Derives .negation ts e rest
  | not {ts rest : List Token} {e : Expr} {o : Nat} :
      Derives .negation ts e rest → Derives .negation (⟨.symbol .kwNot, o⟩ :: ts) (.unary .not e) rest
  | sum {ts rest : List Token} {e : Expr} :
      Derives .sum ts e rest → Derives .comparison ts e rest
  | compare {ts ts₁ rest : List Token} {first : Expr} {ls : List (Relation × Expr)} :
      Derives .sum ts first ts₁ → Derives .links ts₁ ls rest →
      Derives .comparison ts (.compare first ls) rest
  | lastLink {ts ts₁ rest : List Token} {r : Relation} {e : Expr} :
      Spelled (spelling r) ts ts₁ → Derives .sum ts₁ e rest → Derives .links ts [(r, e)] rest
  | link {ts ts₁ ts₂ rest : List Token} {r : Relation} {e : Expr} {ls : List (Relation × Expr)} :
      Spelled (spelling r) ts ts₁ → Derives .sum ts₁ e ts₂ → Derives .links ts₂ ls rest →
      Derives .links ts ((r, e) :: ls) rest
  | term {ts rest : List Token} {e : Expr} :
      Derives .term ts e rest → Derives .sum ts e rest
  | add {ts ts₁ rest : List Token} {s : Symbol} {op : BinaryOp} {a b : Expr} {o : Nat} :
      sumOp? s = some op → Derives .sum ts a (⟨.symbol s, o⟩ :: ts₁) → Derives .term ts₁ b rest →
      Derives .sum ts (.binary op a b) rest
  | signed {ts rest : List Token} {e : Expr} :
      Derives .signed ts e rest → Derives .term ts e rest
  | multiply {ts ts₁ rest : List Token} {s : Symbol} {op : BinaryOp} {a b : Expr} {o : Nat} :
      termOp? s = some op → Derives .term ts a (⟨.symbol s, o⟩ :: ts₁) →
      Derives .signed ts₁ b rest → Derives .term ts (.binary op a b) rest
  | power {ts rest : List Token} {e : Expr} :
      Derives .power ts e rest → Derives .signed ts e rest
  | sign {ts rest : List Token} {s : Symbol} {op : UnaryOp} {e : Expr} {o : Nat} :
      sign? s = some op → Derives .signed ts e rest →
      Derives .signed (⟨.symbol s, o⟩ :: ts) (.unary op e) rest
  | postfixed {ts rest : List Token} {e : Expr} :
      Derives .postfixed ts e rest → Derives .power ts e rest
  | raise {ts ts₁ rest : List Token} {a b : Expr} {o : Nat} :
      Derives .postfixed ts a (⟨.symbol .starStar, o⟩ :: ts₁) → Derives .signed ts₁ b rest →
      Derives .power ts (.binary .pow a b) rest
  | atom {ts rest : List Token} {e : Expr} :
      Derives .atom ts e rest → Derives .postfixed ts e rest
  | index {ts ts₁ rest : List Token} {a i : Expr} {o₁ o₂ : Nat} :
      Derives .postfixed ts a (⟨.symbol .lbracket, o₁⟩ :: ts₁) →
      Derives .conditional ts₁ i (⟨.symbol .rbracket, o₂⟩ :: rest) →
      Derives .postfixed ts (.index a i) rest
  | slice {ts ts₁ ts₂ rest : List Token} {a : Expr} {start stop : Option Expr} {o₁ o₂ o₃ : Nat} :
      Derives .postfixed ts a (⟨.symbol .lbracket, o₁⟩ :: ts₁) →
      Derives .bound ts₁ start (⟨.symbol .colon, o₂⟩ :: ts₂) →
      Derives .bound ts₂ stop (⟨.symbol .rbracket, o₃⟩ :: rest) →
      Derives .postfixed ts (.slice a start stop none) rest
  | steppedSlice {ts ts₁ ts₂ ts₃ rest : List Token} {a : Expr} {start stop step : Option Expr}
      {o₁ o₂ o₃ o₄ : Nat} :
      Derives .postfixed ts a (⟨.symbol .lbracket, o₁⟩ :: ts₁) →
      Derives .bound ts₁ start (⟨.symbol .colon, o₂⟩ :: ts₂) →
      Derives .bound ts₂ stop (⟨.symbol .colon, o₃⟩ :: ts₃) →
      Derives .bound ts₃ step (⟨.symbol .rbracket, o₄⟩ :: rest) →
      Derives .postfixed ts (.slice a start stop step) rest
  | member {ts rest : List Token} {a : Expr} {name : String} {o₁ o₂ : Nat} :
      Derives .postfixed ts a (⟨.symbol .dot, o₁⟩ :: ⟨.ident name, o₂⟩ :: rest) →
      Derives .postfixed ts (.member a name) rest
  | noBound {ts : List Token} : Derives .bound ts none ts
  | aBound {ts rest : List Token} {e : Expr} :
      Derives .conditional ts e rest → Derives .bound ts (some e) rest
  | int {ts : List Token} {n : Int} {o : Nat} :
      Derives .atom (⟨.int n, o⟩ :: ts) (.literal (.int n)) ts
  | float {ts : List Token} {x : Float} {o : Nat} :
      x.isFinite = true → Derives .atom (⟨.float x, o⟩ :: ts) (.literal (.float x)) ts
  | text {ts rest : List Token} {s : String} :
      Derives .strings ts s rest → Derives .atom ts (.literal (.str s)) rest
  | constant {ts : List Token} {s : Symbol} {v : Value} {o : Nat} :
      constant? s = some v → Derives .atom (⟨.symbol s, o⟩ :: ts) (.literal v) ts
  | name {ts : List Token} {name : String} {o : Nat} :
      Derives .atom (⟨.ident name, o⟩ :: ts) (.name name) ts
  | call {ts rest : List Token} {f : Builtin} {args : List Expr} {o₁ o₂ : Nat} :
      Derives (.items .rparen) ts args rest →
      Derives .atom (⟨.ident f.name, o₁⟩ :: ⟨.symbol .lparen, o₂⟩ :: ts) (.call f args) rest
  | paren {ts rest : List Token} {e : Expr} {o₁ o₂ : Nat} :
      Derives .conditional ts e (⟨.symbol .rparen, o₂⟩ :: rest) →
      Derives .atom (⟨.symbol .lparen, o₁⟩ :: ts) e rest
  | list {ts rest : List Token} {es : List Expr} {o : Nat} :
      Derives (.items .rbracket) ts es rest →
      Derives .atom (⟨.symbol .lbracket, o⟩ :: ts) (.list es) rest
  | dict {ts rest : List Token} {kvs : List (Expr × Expr)} {o : Nat} :
      Derives .entries ts kvs rest → Derives .atom (⟨.symbol .lbrace, o⟩ :: ts) (.dict kvs) rest
  | lastString {ts : List Token} {s : String} {o : Nat} :
      Derives .strings (⟨.str s, o⟩ :: ts) s ts
  | string {ts rest : List Token} {s t : String} {o : Nat} :
      Derives .strings ts t rest → Derives .strings (⟨.str s, o⟩ :: ts) (s ++ t) rest
  | noItem {ts : List Token} {close : Symbol} {o : Nat} :
      Derives (.items close) (⟨.symbol close, o⟩ :: ts) [] ts
  | lastItem {ts rest : List Token} {close : Symbol} {e : Expr} {o : Nat} :
      Derives .conditional ts e (⟨.symbol close, o⟩ :: rest) → Derives (.items close) ts [e] rest
  | item {ts ts₁ rest : List Token} {close : Symbol} {e : Expr} {es : List Expr} {o : Nat} :
      Derives .conditional ts e (⟨.symbol .comma, o⟩ :: ts₁) → Derives (.items close) ts₁ es rest →
      Derives (.items close) ts (e :: es) rest
  | noEntry {ts : List Token} {o : Nat} : Derives .entries (⟨.symbol .rbrace, o⟩ :: ts) [] ts
  | lastEntry {ts ts₁ rest : List Token} {k v : Expr} {o₁ o₂ : Nat} :
      Derives .conditional ts k (⟨.symbol .colon, o₁⟩ :: ts₁) →
      Derives .conditional ts₁ v (⟨.symbol .rbrace, o₂⟩ :: rest) →
      Derives .entries ts [(k, v)] rest
  | entry {ts ts₁ ts₂ rest : List Token} {k v : Expr} {kvs : List (Expr × Expr)} {o₁ o₂ : Nat} :
      Derives .conditional ts k (⟨.symbol .colon, o₁⟩ :: ts₁) →
      Derives .conditional ts₁ v (⟨.symbol .comma, o₂⟩ :: ts₂) → Derives .entries ts₂ kvs rest →
      Derives .entries ts ((k, v) :: kvs) rest

/-- All that stands before the end is one expression. -/
def Spells (ts : List Token) (e : Expr) : Prop :=
  ∃ rest, Derives .conditional ts e rest ∧ Parse.peek rest = .eof

/-! ## What a phrase begins with -/

/-- What a token can begin: 1 an atom, 2 a phrase with a sign, 3 one with `not`, 0 none. -/
def lead : Token.Kind → Nat
  | .int _ | .float _ | .str _ | .ident _ => 1
  | .symbol s =>
    match s with
    | .kwTrue | .kwFalse | .kwNone | .lparen | .lbracket | .lbrace => 1
    | .plus | .minus => 2
    | .kwNot => 3
    | _ => 0
  | .eof => 0

/-- The most that a phrase begins with; 0 for a phrase that is no expression. -/
def Phrase.lead : Phrase → Nat
  | conditional | disjunction | conjunction | negation => 3
  | comparison | sum | term | signed => 2
  | power | postfixed | atom | strings => 1
  | links | bound | items _ | entries => 0

theorem lead_constant {s : Symbol} {v : Value} (h : constant? s = some v) : lead (.symbol s) = 1 := by
  cases s <;> simp_all [constant?, lead]

theorem lead_sign {s : Symbol} {op : UnaryOp} (h : sign? s = some op) : lead (.symbol s) = 2 := by
  cases s <;> simp_all [sign?, lead]

/-- An expression begins with a token that can begin one of its level. -/
theorem Derives.leads {p : Phrase} {ts rest : List Token} {t : p.Tree} (h : Derives p ts t rest) :
    0 < p.lead → 0 < lead (Parse.peek ts) ∧ lead (Parse.peek ts) ≤ p.lead := by
  induction h with
  | constant hs => intro _; simp [Parse.peek, lead_constant hs, Phrase.lead]
  | sign hs => intro _; simp [Parse.peek, lead_sign hs, Phrase.lead]
  | text _ ih => simpa [Phrase.lead] using ih
  | _ => simp_all [lead, Phrase.lead, Parse.peek] <;> omega

/-! ## How much a phrase takes -/

/-- Every phrase takes a token at least, but an absent bound takes none. -/
def Phrase.least : Phrase → Nat
  | bound => 0
  | _ => 1

theorem Spelled.length_le {ks : List Token.Kind} {ts rest : List Token} (h : Spelled ks ts rest) :
    rest.length ≤ ts.length := by
  induction h with
  | nil => exact Nat.le_refl _
  | cons _ ih => simp only [List.length_cons]; omega

theorem Derives.length_le {p : Phrase} {ts rest : List Token} {t : p.Tree} (h : Derives p ts t rest) :
    rest.length + p.least ≤ ts.length := by
  induction h with
  | lastLink hs _ ih => have := hs.length_le; simp only [Phrase.least] at ih ⊢; omega
  | link hs _ _ ih ih' => have := hs.length_le; simp only [Phrase.least] at ih ih' ⊢; omega
  | _ => simp only [Phrase.least, List.length_cons] at *; omega

/-! ## What goes on with a phrase -/

/-- How tightly a token holds on to an expression before it, from `if` (1) to what makes an
atom longer (9); 0 for a token that goes on with none. -/
def grip : Token.Kind → Nat
  | .symbol s =>
    match s with
    | .kwIf => 1
    | .kwOr => 2
    | .kwAnd => 3
    | .eqEq | .notEq | .lt | .ltEq | .gt | .gtEq | .kwIn | .kwIs | .kwNot => 4
    | .plus | .minus => 5
    | .star | .slash | .slashSlash | .percent => 6
    | .starStar => 7
    | .lbracket | .dot => 8
    | .lparen => 9
    | _ => 0
  | .str _ => 9
  | _ => 0

theorem grip_sumOp {s : Symbol} {op : BinaryOp} (h : sumOp? s = some op) : grip (.symbol s) = 5 := by
  cases s <;> simp_all [sumOp?, grip]

theorem grip_termOp {s : Symbol} {op : BinaryOp} (h : termOp? s = some op) : grip (.symbol s) = 6 := by
  cases s <;> simp_all [termOp?, grip]

theorem Spelled.grip {r : Relation} {ts rest : List Token} (h : Spelled (spelling r) ts rest) :
    grip (Parse.peek ts) = 4 := by
  cases r <;> cases h <;> rfl

theorem Derives.grip_links {ts rest : List Token} {ls : List (Relation × Expr)}
    (h : Derives .links ts ls rest) : grip (Parse.peek ts) = 4 := by
  cases h with
  | lastLink hs _ => exact hs.grip
  | link hs _ _ => exact hs.grip

end MockSchema.Grammar
