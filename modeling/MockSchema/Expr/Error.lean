/-
  MockSchema.Expr.Error — what can be wrong with an expression: its text (`SyntaxError`, with
  the offset in bytes where it shows) or its evaluation (`EvalError`). Both are kept as
  causes; `message` gives the wording and `category` the class of a failed evaluation.
-/

import MockSchema.Expr.Basic
import MockSchema.Expr.Token

namespace MockSchema

/-! ## Texts that are no expression -/

inductive SyntaxCause where
  | integerTooLarge (text : String)
  | unterminatedString
  | truncatedEscape
  | invalidEscape
  | unexpectedCharacter (c : Char)
  | tooDeep
  | unexpected (found : Token.Kind)
  | expected (wanted : Symbol) (found : Token.Kind)
  | methodCall (name : String)
  | notCallable
  | unknownFunction (name : String)
  | infiniteLiteral

def SyntaxCause.text : SyntaxCause → String
  | integerTooLarge text => "integer literal '" ++ text ++ "' too large"
  | unterminatedString => "unterminated string literal"
  | truncatedEscape => "truncated \\u escape"
  | invalidEscape => "invalid \\u escape"
  | unexpectedCharacter c => "unexpected character '" ++ String.singleton c ++ "'"
  | tooDeep => "expression nested too deeply"
  | unexpected found => "unexpected " ++ found.describe
  | expected wanted found => "expected '" ++ wanted.text ++ "' but found " ++ found.describe
  | methodCall name => "method call '." ++ name ++ "()' is not supported"
  | notCallable => "only builtin functions can be called"
  | unknownFunction name => "unknown function '" ++ name ++ "'"
  | infiniteLiteral => "non-finite float literal"

structure SyntaxError where
  cause : SyntaxCause
  offset : Nat

def SyntaxError.message (e : SyntaxError) : String :=
  "syntax error: " ++ e.cause.text ++ " (at offset " ++ toString e.offset ++ ")"

/-! ## Evaluations that fail -/

inductive Category where
  | nameError
  | typeError
  | keyError
  | indexError
  | valueError
  | zeroDivisionError
  | attributeError
  | overflowError
  deriving DecidableEq, Repr

def Category.text : Category → String
  | nameError => "NameError"
  | typeError => "TypeError"
  | keyError => "KeyError"
  | indexError => "IndexError"
  | valueError => "ValueError"
  | zeroDivisionError => "ZeroDivisionError"
  | attributeError => "AttributeError"
  | overflowError => "OverflowError"

/-- The two kinds of sequence, as messages name them. -/
inductive SequenceKind where
  | list
  | string
  deriving DecidableEq, Repr

def SequenceKind.text : SequenceKind → String
  | list => "list"
  | string => "string"

/-- The ways of dividing by zero. -/
inductive ZeroDivision where
  | int
  | intFloorOrMod
  | float
  | floatFloor
  | floatMod
  | power
  deriving DecidableEq, Repr

def ZeroDivision.text : ZeroDivision → String
  | int => "division by zero"
  | intFloorOrMod => "integer division or modulo by zero"
  | float => "float division by zero"
  | floatFloor => "float floor division by zero"
  | floatMod => "float modulo"
  | power => "0.0 cannot be raised to a negative power"

/-- Where a value is given by the name of its type, the field is called `type`. -/
inductive EvalError where
  | unbound (name : String)
  | missingKey (key : String)
  | noAttribute (type name : String)
  | notSubscriptable (type : String)
  | badIndex (kind : SequenceKind) (type : String)
  | outOfRange (kind : SequenceKind)
  | badBound
  | zeroStep
  | badDictKey (type : String)
  | unordered (symbol left right : String)
  | badNeedle (type : String)
  | notContainer (type : String)
  | badUnary (symbol type : String)
  | badBinary (op : BinaryOp) (left right : String)
  | badRepeat (type : String)
  | repeatTooLong (kind : SequenceKind)
  | divisionByZero (how : ZeroDivision)
  | powerDomain
  | overflow
  | notFinite
  | notOneArgument (f : Builtin) (given : Nat)
  | moreThanOneArgument (f : Builtin) (given : Nat)
  | notOneOrTwoArguments (f : Builtin) (given : Nat)
  | noArgument (f : Builtin)
  | emptySequence (f : Builtin)
  | noLength (type : String)
  | noAbsolute (type : String)
  | badIntText (text : String)
  | badIntArgument (type : String)
  | badFloatText (text : String)
  | badFloatArgument (type : String)
  | notIterable (type : String)
  | sumOfStrings
  | notRoundable (type : String)
  | badDigits

namespace EvalError

def category : EvalError → Category
  | unbound _ => .nameError
  | missingKey _ => .keyError
  | noAttribute _ _ => .attributeError
  | outOfRange _ => .indexError
  | zeroStep => .valueError
  | repeatTooLong _ => .overflowError
  | divisionByZero _ => .zeroDivisionError
  | powerDomain => .valueError
  | overflow => .overflowError
  | notFinite => .valueError
  | emptySequence _ => .valueError
  | badIntText _ => .valueError
  | badFloatText _ => .valueError
  | _ => .typeError

def text : EvalError → String
  | unbound name => "name '" ++ name ++ "' is not defined"
  | missingKey key => "'" ++ key ++ "'"
  | noAttribute type name => "'" ++ type ++ "' object has no attribute '" ++ name ++ "'"
  | notSubscriptable type => "'" ++ type ++ "' object is not subscriptable"
  | badIndex kind type => kind.text ++ " indices must be integers or slices, not " ++ type
  | outOfRange kind => kind.text ++ " index out of range"
  | badBound => "slice indices must be integers or None"
  | zeroStep => "slice step cannot be zero"
  | badDictKey type => "dict keys must be str, not " ++ type
  | unordered symbol left right =>
    "'" ++ symbol ++ "' not supported between instances of '" ++ left ++ "' and '" ++ right ++ "'"
  | badNeedle type => "'in <string>' requires string as left operand, not " ++ type
  | notContainer type => "argument of type '" ++ type ++ "' is not iterable"
  | badUnary symbol type => "bad operand type for unary " ++ symbol ++ ": '" ++ type ++ "'"
  | badBinary op left right =>
    "unsupported operand type(s) for " ++ op.symbol ++ ": '" ++ left ++ "' and '" ++ right ++ "'"
  | badRepeat type => "can't multiply sequence by non-int of type '" ++ type ++ "'"
  | repeatTooLong kind => "repeated " ++ kind.text ++ " is too long"
  | divisionByZero how => how.text
  | powerDomain => "math domain error"
  | overflow => "integer result out of range"
  | notFinite => "result is not a finite number"
  | notOneArgument f given =>
    f.name ++ "() takes exactly 1 argument (" ++ toString given ++ " given)"
  | moreThanOneArgument f given =>
    f.name ++ "() takes at most 1 argument (" ++ toString given ++ " given)"
  | notOneOrTwoArguments f given =>
    f.name ++ "() takes 1 or 2 arguments (" ++ toString given ++ " given)"
  | noArgument f => f.name ++ " expected at least 1 argument, got 0"
  | emptySequence f => f.name ++ "() arg is an empty sequence"
  | noLength type => "object of type '" ++ type ++ "' has no len()"
  | noAbsolute type => "bad operand type for abs(): '" ++ type ++ "'"
  | badIntText text => "invalid literal for int() with base 10: '" ++ text ++ "'"
  | badIntArgument type => "int() argument must be a string or a number, not '" ++ type ++ "'"
  | badFloatText text => "could not convert string to float: '" ++ text ++ "'"
  | badFloatArgument type => "float() argument must be a string or a number, not '" ++ type ++ "'"
  | notIterable type => "'" ++ type ++ "' object is not iterable"
  | sumOfStrings => "sum() can't sum strings [use ''.join(seq) instead]"
  | notRoundable type => "type " ++ type ++ " doesn't define __round__ method"
  | badDigits => "ndigits must be an integer"

def message (e : EvalError) : String :=
  "runtime error: (" ++ e.category.text ++ ") " ++ e.text

end EvalError

/-- What compiling and evaluating a text can end in besides a value. -/
inductive ExprError where
  | malformed (e : SyntaxError)
  | failed (e : EvalError)

def ExprError.message : ExprError → String
  | malformed e => e.message
  | failed e => e.message

end MockSchema
