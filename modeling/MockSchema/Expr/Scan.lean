/-
  MockSchema.Expr.Scan — cutting an expression text into tokens.

  A token is a number, a string in either quote, a word (a name or a keyword) or an
  operator, each as long as possible; blanks separate tokens and mean nothing else. Offsets
  count the bytes of the text.

  In a number `_` may stand among and after the digits. A point makes it a float, an exponent
  does if a digit follows; otherwise the `e` begins the next token.
-/

import MockSchema.Decimal.Read
import MockSchema.Expr.Error

namespace MockSchema.Scan

open MockSchema.Text MockSchema.Decimal

/-- The length of a text in bytes. -/
def width : List Char → Nat
  | [] => 0
  | c :: cs => c.utf8Size + width cs

abbrev Result (α : Type) := Except SyntaxError α

def fail {α : Type} (cause : SyntaxCause) (offset : Nat) : Result α := .error ⟨cause, offset⟩

/-- What a token is, how many bytes it takes and what follows it. -/
structure Lexeme where
  kind : Token.Kind
  width : Nat
  rest : List Char

/-! ## Numbers -/

def isNumeralChar (c : Char) : Bool := isDigit c || c == '_'

/-- A number as it is spelled; the exponent keeps its `e` and its sign apart. -/
structure Numeral where
  whole : List Char
  fraction : Option (List Char)
  exponent : Option (List Char × List Char)

def Numeral.spelling (n : Numeral) : List Char :=
  n.whole ++ (match n.fraction with | some f => '.' :: f | none => [])
    ++ (match n.exponent with | some (mark, ds) => mark ++ ds | none => [])

def startsWithDigit : List Char → Bool
  | c :: _ => isDigit c
  | [] => false

/-- The `e` of an exponent and its sign, as written, if a digit follows. -/
def exponentMark : List Char → Option (List Char × List Char)
  | e :: s :: cs =>
    if e == 'e' || e == 'E' then
      if s == '+' || s == '-' then
        if startsWithDigit cs then some ([e, s], cs) else none
      else if isDigit s then some ([e], s :: cs)
      else none
    else none
  | _ => none

def numeral (cs : List Char) : Numeral × List Char :=
  let whole := cs.takeWhile isNumeralChar
  let (fraction, cs) :=
    match cs.dropWhile isNumeralChar with
    | '.' :: r => (some (r.takeWhile isNumeralChar), r.dropWhile isNumeralChar)
    | r => (none, r)
  match exponentMark cs with
  | some (mark, r) =>
    (⟨whole, fraction, some (mark, r.takeWhile isNumeralChar)⟩, r.dropWhile isNumeralChar)
  | none => (⟨whole, fraction, none⟩, cs)

def withoutUnderscores (cs : List Char) : List Char := cs.filter (· != '_')

def exponentValue : Option (List Char × List Char) → Int
  | some (mark, ds) =>
    let n := natOfDigits (withoutUnderscores ds)
    if mark.contains '-' then -(n : Int) else n
  | none => 0

def Numeral.kind (n : Numeral) (offset : Nat) : Result Token.Kind :=
  let whole := withoutUnderscores n.whole
  match n.fraction, n.exponent with
  | none, none =>
    if (natOfDigits whole : Int) ≤ largest then .ok (.int (natOfDigits whole))
    else fail (.integerTooLarge (String.ofList whole)) offset
  | _, _ =>
    let fraction := withoutUnderscores (n.fraction.getD [])
    .ok (.float (nearest (natOfDigits (whole ++ fraction))
      (exponentValue n.exponent - fraction.length)))

def number (offset : Nat) (cs : List Char) : Result Lexeme :=
  let (n, rest) := numeral cs
  (n.kind offset).map fun kind => ⟨kind, n.spelling.length, rest⟩

/-! ## Strings -/

def hexNumber? (cs : List Char) : Option Nat :=
  if cs.isEmpty then none
  else cs.foldl (fun n c => do return 16 * (← n) + (← hexValue? c)) (some 0)

/-- Exactly `n` bytes of a text, if a character ends there. -/
def takeBytes : List Char → Nat → Option (List Char × List Char)
  | cs, 0 => some ([], cs)
  | [], _ + 1 => none
  | c :: cs, n + 1 =>
    if c.utf8Size ≤ n + 1 then
      (takeBytes cs (n + 1 - c.utf8Size)).map fun (taken, rest) => (c :: taken, rest)
    else none

def isScalar (n : Nat) : Bool := n < 0xD800 || (0xDFFF < n && n < 0x110000)

/-- The character named by the four bytes after `\u`. A number may open with a plus sign. -/
def unicodeEscape (offset : Nat) (cs : List Char) : Result (Char × List Char) :=
  match takeBytes cs 4 with
  | none => fail .truncatedEscape offset
  | some (hex, rest) =>
    let digits := match hex with
      | '+' :: ds => ds
      | ds => ds
    match hexNumber? digits with
    | some n => if isScalar n then .ok (Char.ofNat n, rest) else fail .invalidEscape offset
    | none => fail .invalidEscape offset

/-- What a backslash before this character stands for; an unknown escape keeps it. -/
def simpleEscape (c : Char) : List Char :=
  match c with
  | 'n' => ['\n']
  | 't' => ['\t']
  | 'r' => ['\r']
  | '0' => ['\x00']
  | '\\' => ['\\']
  | '\x27' => ['\x27']
  | '"' => ['"']
  | c => ['\\', c]

/-- The rest of a string that began at `start`. The text left begins at `offset`, `done` is
what was read, last first; each step consumes a character, so the first argument is enough
when it exceeds the length of the text. -/
def stringRest (quote : Char) (start : Nat) :
    Nat → Nat → List Char → List Char → Result (String × Nat × List Char)
  | 0, _, _, _ => fail .unterminatedString start
  | _ + 1, _, _, [] => fail .unterminatedString start
  | n + 1, offset, done, c :: cs =>
    if c = quote then .ok (String.ofList done.reverse, offset + c.utf8Size, cs)
    else if c = '\\' then
      match cs with
      | [] => fail .unterminatedString start
      | 'u' :: cs => do
        let (d, rest) ← unicodeEscape (offset + 2) cs
        stringRest quote start n (offset + 6) (d :: done) rest
      | d :: cs =>
        stringRest quote start n (offset + 1 + d.utf8Size) ((simpleEscape d).reverse ++ done) cs
    else stringRest quote start n (offset + c.utf8Size) (c :: done) cs

/-- A string whose opening quote has been read. -/
def string (quote : Char) (offset : Nat) (cs : List Char) : Result Lexeme := do
  let (s, stop, rest) ← stringRest quote offset (cs.length + 1) (offset + 1) [] cs
  return ⟨.str s, stop - offset, rest⟩

/-! ## Words and operators -/

def isNameChar (c : Char) : Bool := isAlphanumeric c || c == '_'

def word (cs : List Char) : Lexeme :=
  let w := cs.takeWhile isNameChar
  let s := String.ofList w
  let kind := match Symbol.ofWord? s with
    | some k => .symbol k
    | none => .ident s
  ⟨kind, width w, cs.dropWhile isNameChar⟩

def operator (offset : Nat) (cs : List Char) : Result Lexeme :=
  match Symbol.ofPunctuation? cs with
  | some (s, rest) => .ok ⟨.symbol s, s.text.length, rest⟩
  | none => fail (.unexpectedCharacter (cs.headD '\x00')) offset

/-! ## Texts -/

def lexeme (offset : Nat) : List Char → Result Lexeme
  | [] => .ok ⟨.eof, 0, []⟩
  | c :: cs =>
    if isDigit c || (c == '.' && startsWithDigit cs) then number offset (c :: cs)
    else if c == '\x27' || c == '"' then string c offset cs
    else if isLetter c || c == '_' then .ok (word (c :: cs))
    else operator offset (c :: cs)

/-- The tokens of a text that begins at `offset`; each takes a character at least, so as many
steps as there are characters are enough. -/
def tokensFrom : Nat → Nat → List Char → Result (List Token)
  | 0, offset, cs => .ok [⟨.eof, offset + width (cs.takeWhile isBlank)⟩]
  | n + 1, offset, cs =>
    let start := offset + width (cs.takeWhile isBlank)
    match cs.dropWhile isBlank with
    | [] => .ok [⟨.eof, start⟩]
    | cs => do
      let l ← lexeme start cs
      return ⟨l.kind, start⟩ :: (← tokensFrom n (start + l.width) l.rest)

def tokens (source : String) : Result (List Token) :=
  tokensFrom source.toList.length 0 source.toList

end MockSchema.Scan
