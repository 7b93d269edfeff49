/-
  MockSchema.Expr.Parse — the tree of a token list.

  From loosest to tightest: `yes if c else no`; `or`; `and`; `not`; comparisons, in chains;
  `+ -`; `* / // %`; signs; `**`, to the right, with a sign allowed in its exponent; then
  subscripts, slices and members; and atoms.

  A tree may nest `maxDepth` levels. Every construct that goes a level deeper (a bracketed
  expression, an operand of a sign or of `not`, the right operand of a binary operator, a
  subscript, a member) asks the level below: `Level` holds the readers of one level, `Level.above`
  builds a level from the one below it, and below the last there is only `Level.floor`,
  which refuses. So the readers of this module recurse on the number of levels left, and a
  level is given back when its reader returns: siblings do not share a budget.
-/

import MockSchema.Expr.Scan

namespace MockSchema

def maxDepth : Nat := 128

namespace Parse

abbrev Result (α : Type) := Except SyntaxError α

/-- Reads something off the front of a token list and returns it with the rest. -/
abbrev Reader (α : Type) := List Token → Result (α × List Token)

open Token

def peek : List Token → Kind
  | t :: _ => t.kind
  | [] => .eof

def offset : List Token → Nat
  | t :: _ => t.offset
  | [] => 0

def fail {α : Type} (cause : SyntaxCause) (ts : List Token) : Result α := .error ⟨cause, offset ts⟩

def unexpected {α : Type} (ts : List Token) : Result α := fail (.unexpected (peek ts)) ts

/-- The rest after `s`, if the list begins with it. -/
def eat? (s : Symbol) : List Token → Option (List Token)
  | ⟨.symbol s', _⟩ :: ts => if s' = s then some ts else none
  | _ => none

def expect (s : Symbol) (ts : List Token) : Result (List Token) :=
  match eat? s ts with
  | some rest => .ok rest
  | none => fail (.expected s (peek ts)) ts

/-! ## Levels -/

/-- The readers that begin one level down. Those with an argument go on with an operator: its
left operand is read and so is the operator itself. -/
structure Level where
  conditional : Reader Expr
  negation : Reader Expr
  signed : Reader Expr
  orRight : Expr → Reader Expr
  andRight : Expr → Reader Expr
  sumRight : BinaryOp → Expr → Reader Expr
  termRight : BinaryOp → Expr → Reader Expr
  subscript : Expr → Reader Expr
  member : Expr → Reader Expr

def tooDeep {α : Type} : Reader α := fail .tooDeep

def Level.floor : Level :=
  ⟨tooDeep, tooDeep, tooDeep, fun _ => tooDeep, fun _ => tooDeep, fun _ _ => tooDeep,
    fun _ _ => tooDeep, fun _ => tooDeep, fun _ => tooDeep⟩

/-! ## Sequences -/

/-- Expressions separated by commas up to `close`, a comma before which is allowed. Each takes
a token at least; the first argument bounds their number. -/
def sequence (item : Reader Expr) (close : Symbol) : Nat → Reader (List Expr)
  | 0, ts => unexpected ts
  | n + 1, ts =>
    match eat? close ts with
    | some ts => .ok ([], ts)
    | none => do
      let (e, ts) ← item ts
      match eat? .comma ts with
      | some ts => do
        let (es, ts) ← sequence item close n ts
        return (e :: es, ts)
      | none => do
        let ts ← expect close ts
        return ([e], ts)

def entries (item : Reader Expr) : Nat → Reader (List (Expr × Expr))
  | 0, ts => unexpected ts
  | n + 1, ts =>
    match eat? .rbrace ts with
    | some ts => .ok ([], ts)
    | none => do
      let (k, ts) ← item ts
      let ts ← expect .colon ts
      let (v, ts) ← item ts
      match eat? .comma ts with
      | some ts => do
        let (kvs, ts) ← entries item n ts
        return ((k, v) :: kvs, ts)
      | none => do
        let ts ← expect .rbrace ts
        return ([(k, v)], ts)

/-- Adjacent strings are one string. -/
def strings : List Token → String × List Token
  | ⟨.str s, _⟩ :: ts =>
    let (t, rest) := strings ts
    (s ++ t, rest)
  | ts => ("", ts)

/-- The member that is named after a point. -/
def memberHere (target : Expr) (ts : List Token) : Result (Expr × List Token) :=
  match ts with
  | ⟨.ident name, o⟩ :: ts =>
    match eat? .lparen ts with
    | some _ => .error ⟨.methodCall name, o⟩
    | none => .ok (.member target name, ts)
  | ts => unexpected ts

/-! ## The readers of a level, given the level below -/

namespace Level

variable (below : Level)

def atom (ts : List Token) : Result (Expr × List Token) :=
  match ts with
  | ⟨.int n, _⟩ :: ts => .ok (.literal (.int n), ts)
  | ⟨.float x, o⟩ :: ts =>
    if x.isFinite then .ok (.literal (.float x), ts) else .error ⟨.infiniteLiteral, o⟩
  | ⟨.str s, _⟩ :: ts =>
    let (t, rest) := strings ts
    .ok (.literal (.str (s ++ t)), rest)
  | ⟨.ident name, o⟩ :: ts =>
    match eat? .lparen ts with
    | none => .ok (.name name, ts)
    | some ts =>
      match Builtin.ofName? name with
      | none => .error ⟨.unknownFunction name, o⟩
      | some f => do
        let (args, ts) ← sequence below.conditional .rparen ts.length ts
        return (.call f args, ts)
  | ⟨.symbol .kwTrue, _⟩ :: ts => .ok (.literal (.bool true), ts)
  | ⟨.symbol .kwFalse, _⟩ :: ts => .ok (.literal (.bool false), ts)
  | ⟨.symbol .kwNone, _⟩ :: ts => .ok (.literal .null, ts)
  | ⟨.symbol .lparen, _⟩ :: ts => do
    let (e, ts) ← below.conditional ts
    let ts ← expect .rparen ts
    return (e, ts)
  | ⟨.symbol .lbracket, _⟩ :: ts => do
    let (es, ts) ← sequence below.conditional .rbracket ts.length ts
    return (.list es, ts)
  | ⟨.symbol .lbrace, _⟩ :: ts => do
    let (kvs, ts) ← entries below.conditional ts.length ts
    return (.dict kvs, ts)
  | ts => unexpected ts

def postfixRest (e : Expr) (ts : List Token) : Result (Expr × List Token) :=
  match ts with
  | ⟨.symbol .lbracket, _⟩ :: ts => below.subscript e ts
  | ⟨.symbol .dot, _⟩ :: ts => below.member e ts
  | ⟨.symbol .lparen, o⟩ :: _ => .error ⟨.notCallable, o⟩
  | ts => .ok (e, ts)

def postfixed (ts : List Token) : Result (Expr × List Token) := do
  let (e, ts) ← below.atom ts
  below.postfixRest e ts

def power (ts : List Token) : Result (Expr × List Token) := do
  let (base, ts) ← below.postfixed ts
  match eat? .starStar ts with
  | some ts => do
    let (exponent, ts) ← below.signed ts
    return (.binary .pow base exponent, ts)
  | none => return (base, ts)

def signedHere (ts : List Token) : Result (Expr × List Token) :=
  match ts with
  | ⟨.symbol .minus, _⟩ :: ts => do
    let (e, ts) ← below.signed ts
    return (.unary .neg e, ts)
  | ⟨.symbol .plus, _⟩ :: ts => do
    let (e, ts) ← below.signed ts
    return (.unary .pos e, ts)
  | ts => below.power ts

def termRest (left : Expr) (ts : List Token) : Result (Expr × List Token) :=
  match ts with
  | ⟨.symbol .star, _⟩ :: ts => below.termRight .mul left ts
  | ⟨.symbol .slash, _⟩ :: ts => below.termRight .div left ts
  | ⟨.symbol .slashSlash, _⟩ :: ts => below.termRight .floorDiv left ts
  | ⟨.symbol .percent, _⟩ :: ts => below.termRight .mod left ts
  | ts => .ok (left, ts)

def term (ts : List Token) : Result (Expr × List Token) := do
  let (left, ts) ← below.signedHere ts
  below.termRest left ts

def sumRest (left : Expr) (ts : List Token) : Result (Expr × List Token) :=
  match ts with
  | ⟨.symbol .plus, _⟩ :: ts => below.sumRight .add left ts
  | ⟨.symbol .minus, _⟩ :: ts => below.sumRight .sub left ts
  | ts => .ok (left, ts)

def sum (ts : List Token) : Result (Expr × List Token) := do
  let (left, ts) ← below.term ts
  below.sumRest left ts

/-- The comparison that a list begins with; `not` counts only before `in`. -/
def relation? : List Token → Option (Relation × List Token)
  | ⟨.symbol .eqEq, _⟩ :: ts => some (.eq, ts)
  | ⟨.symbol .notEq, _⟩ :: ts => some (.ne, ts)
  | ⟨.symbol .lt, _⟩ :: ts => some (.lt, ts)
  | ⟨.symbol .ltEq, _⟩ :: ts => some (.le, ts)
  | ⟨.symbol .gt, _⟩ :: ts => some (.gt, ts)
  | ⟨.symbol .gtEq, _⟩ :: ts => some (.ge, ts)
  | ⟨.symbol .kwIn, _⟩ :: ts => some (.mem, ts)
  | ⟨.symbol .kwIs, _⟩ :: ⟨.symbol .kwNot, _⟩ :: ts => some (.isNot, ts)
  | ⟨.symbol .kwIs, _⟩ :: ts => some (.is, ts)
  | ⟨.symbol .kwNot, _⟩ :: ⟨.symbol .kwIn, _⟩ :: ts => some (.notMem, ts)
  | _ => none

/-- The links of a chain; the first argument bounds their number. -/
def links : Nat → Reader (List (Relation × Expr))
  | 0, ts => .ok ([], ts)
  | n + 1, ts =>
    match relation? ts with
    | none => .ok ([], ts)
    | some (r, ts) => do
      let (e, ts) ← below.sum ts
      let (rest, ts) ← links n ts
      return ((r, e) :: rest, ts)

def chain (first : Expr) : List (Relation × Expr) → Expr
  | [] => first
  | link :: rest => .compare first (link :: rest)

def comparison (ts : List Token) : Result (Expr × List Token) := do
  let (first, ts) ← below.sum ts
  let (rest, ts) ← below.links ts.length ts
  return (chain first rest, ts)

def negationHere (ts : List Token) : Result (Expr × List Token) :=
  match ts with
  | ⟨.symbol .kwNot, _⟩ :: ts => do
    let (e, ts) ← below.negation ts
    return (.unary .not e, ts)
  | ts => below.comparison ts

def andRest (left : Expr) (ts : List Token) : Result (Expr × List Token) :=
  match ts with
  | ⟨.symbol .kwAnd, _⟩ :: ts => below.andRight left ts
  | ts => .ok (left, ts)

def conjunction (ts : List Token) : Result (Expr × List Token) := do
  let (left, ts) ← below.negationHere ts
  below.andRest left ts

def orRest (left : Expr) (ts : List Token) : Result (Expr × List Token) :=
  match ts with
  | ⟨.symbol .kwOr, _⟩ :: ts => below.orRight left ts
  | ts => .ok (left, ts)

def disjunction (ts : List Token) : Result (Expr × List Token) := do
  let (left, ts) ← below.conjunction ts
  below.orRest left ts

def conditionalHere (ts : List Token) : Result (Expr × List Token) := do
  let (yes, ts) ← below.disjunction ts
  match eat? .kwIf ts with
  | none => return (yes, ts)
  | some ts => do
    let (c, ts) ← below.disjunction ts
    let ts ← expect .kwElse ts
    let (no, ts) ← below.conditional ts
    return (.conditional c yes no, ts)

/-- A bound of a slice, absent before `:` and `]`. -/
def bound (ts : List Token) : Result (Option Expr × List Token) :=
  match ts with
  | ⟨.symbol .colon, _⟩ :: _ => .ok (none, ts)
  | ⟨.symbol .rbracket, _⟩ :: _ => .ok (none, ts)
  | ts => do
    let (e, ts) ← below.conditional ts
    return (some e, ts)

/-- The bounds after the first `:` of a slice. -/
def sliceRest (target : Expr) (start : Option Expr) (ts : List Token) :
    Result (Expr × List Token) := do
  let (stop, ts) ← below.bound ts
  let (step, ts) ← match eat? .colon ts with
    | some ts => below.bound ts
    | none => .ok (none, ts)
  let ts ← expect .rbracket ts
  return (.slice target start stop step, ts)

/-- What stands between `[` and `]`. -/
def subscriptHere (target : Expr) (ts : List Token) : Result (Expr × List Token) :=
  match eat? .colon ts with
  | some ts => below.sliceRest target none ts
  | none => do
    let (i, ts) ← below.conditional ts
    match eat? .colon ts with
    | some ts => below.sliceRest target (some i) ts
    | none => do
      let ts ← expect .rbracket ts
      return (.index target i, ts)

/-- The level on top of `below`. -/
def above : Level where
  conditional := below.conditionalHere
  negation := below.negationHere
  signed := below.signedHere
  orRight left ts := do
    let (right, ts) ← below.conjunction ts
    below.orRest (.or left right) ts
  andRight left ts := do
    let (right, ts) ← below.negationHere ts
    below.andRest (.and left right) ts
  sumRight op left ts := do
    let (right, ts) ← below.term ts
    below.sumRest (.binary op left right) ts
  termRight op left ts := do
    let (right, ts) ← below.signedHere ts
    below.termRest (.binary op left right) ts
  subscript target ts := do
    let (e, ts) ← below.subscriptHere target ts
    below.postfixRest e ts
  member target ts := do
    let (e, ts) ← memberHere target ts
    below.postfixRest e ts

end Level

/-- The level with `n` levels to go down. -/
def level : Nat → Level
  | 0 => Level.floor
  | n + 1 => (level n).above

/-- A whole token list as one expression. -/
def expression (ts : List Token) : Result Expr := do
  let (e, rest) ← (level maxDepth).conditional ts
  match peek rest with
  | .eof => return e
  | _ => unexpected rest

end Parse

/-- The tree of an expression text. -/
def Expr.parse (source : String) : Except SyntaxError Expr := do
  Parse.expression (← Scan.tokens source)

end MockSchema
