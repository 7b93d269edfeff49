/-
  MockSchema.Expr.Token — the tokens of an expression text. A token knows the offset, in
  bytes, at which it starts; the last token of a text is `eof`, at the text's end.
-/

import MockSchema.Decimal.Notation

namespace MockSchema

/-- Keywords, punctuation and operators. -/
inductive Symbol where
  | kwAnd
  | kwOr
  | kwNot
  | kwIn
  | kwIs
  | kwIf
  | kwElse
  | kwTrue
  | kwFalse
  | kwNone
  | lparen
  | rparen
  | lbracket
  | rbracket
  | lbrace
  | rbrace
  | comma
  | colon
  | dot
  | plus
  | minus
  | star
  | starStar
  | slash
  | slashSlash
  | percent
  | eqEq
  | notEq
  | lt
  | ltEq
  | gt
  | gtEq
  deriving DecidableEq, Repr

namespace Symbol

def text : Symbol → String
  | kwAnd => "and"
  | kwOr => "or"
  | kwNot => "not"
  | kwIn => "in"
  | kwIs => "is"
  | kwIf => "if"
  | kwElse => "else"
  | kwTrue => "True"
  | kwFalse => "False"
  | kwNone => "None"
  | lparen => "("
  | rparen => ")"
  | lbracket => "["
  | rbracket => "]"
  | lbrace => "\x7b"
  | rbrace => "\x7d"
  | comma => ","
  | colon => ":"
  | dot => "."
  | plus => "+"
  | minus => "-"
  | star => "*"
  | starStar => "**"
  | slash => "/"
  | slashSlash => "//"
  | percent => "%"
  | eqEq => "=="
  | notEq => "!="
  | lt => "<"
  | ltEq => "<="
  | gt => ">"
  | gtEq => ">="

/-- The keyword a word spells; the three constants have a second spelling. -/
def ofWord? : String → Option Symbol
  | "and" => some kwAnd
  | "or" => some kwOr
  | "not" => some kwNot
  | "in" => some kwIn
  | "is" => some kwIs
  | "if" => some kwIf
  | "else" => some kwElse
  | "True" => some kwTrue
  | "true" => some kwTrue
  | "False" => some kwFalse
  | "false" => some kwFalse
  | "None" => some kwNone
  | "null" => some kwNone
  | _ => none

/-- The longest operator or mark that a text begins with, and the rest. -/
def ofPunctuation? : List Char → Option (Symbol × List Char)
  | '*' :: '*' :: cs => some (starStar, cs)
  | '/' :: '/' :: cs => some (slashSlash, cs)
  | '=' :: '=' :: cs => some (eqEq, cs)
  | '!' :: '=' :: cs => some (notEq, cs)
  | '<' :: '=' :: cs => some (ltEq, cs)
  | '>' :: '=' :: cs => some (gtEq, cs)
  | '(' :: cs => some (lparen, cs)
  | ')' :: cs => some (rparen, cs)
  | '[' :: cs => some (lbracket, cs)
  | ']' :: cs => some (rbracket, cs)
  | '\x7b' :: cs => some (lbrace, cs)
  | '\x7d' :: cs => some (rbrace, cs)
  | ',' :: cs => some (comma, cs)
  | ':' :: cs => some (colon, cs)
  | '.' :: cs => some (dot, cs)
  | '+' :: cs => some (plus, cs)
  | '-' :: cs => some (minus, cs)
  | '*' :: cs => some (star, cs)
  | '/' :: cs => some (slash, cs)
  | '%' :: cs => some (percent, cs)
  | '<' :: cs => some (lt, cs)
  | '>' :: cs => some (gt, cs)
  | _ => none

end Symbol

inductive Token.Kind where
  | int (n : Int)
  | float (x : Float)
  | str (s : String)
  | ident (name : String)
  | symbol (s : Symbol)
  | eof

structure Token where
  kind : Token.Kind
  offset : Nat

/-- How a message names a token. -/
def Token.Kind.describe : Token.Kind → String
  | int n => toString n
  | float x => Decimal.plainText x
  | str _ => "string literal"
  | ident name => "'" ++ name ++ "'"
  | symbol s => "'" ++ s.text ++ "'"
  | eof => "end of expression"

end MockSchema
