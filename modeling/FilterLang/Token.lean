import FilterLang.Operator

/-! Tokens: a kind, a text and the byte offset at which the lexeme begins. Blanks have a kind of
their own because they are recognised like everything else, although no stream hands them out. -/
namespace FilterLang

inductive LiteralKind where
  | number | string | boolean | var
deriving DecidableEq

def LiteralKind.name : LiteralKind → String
  | number => "Number"
  | string => "String"
  | boolean => "Boolean"
  | var => "Variable"

inductive Kind where
  | blank
  | operator (op : Operator)
  | literal (kind : LiteralKind)
  | leftParen
  | rightParen
deriving DecidableEq

namespace Kind

/-- All kinds in the order in which they are tried at a place in the text. Two-character operators
come before the one-character operators they begin with, keywords before variables. -/
def byPriority : List Kind :=
  [blank, operator .le, operator .ge, operator .eq, operator .ne, operator .lt, operator .gt,
    operator .and, literal .boolean, literal .var, literal .number, literal .string,
    leftParen, rightParen]

def name : Kind → String
  | blank => "Whitespace"
  | operator op => op.name
  | literal k => k.name
  | leftParen => "LParen"
  | rightParen => "RParen"

/-- Whether an operand may begin with a token of this kind. -/
def beginsOperand : Kind → Bool
  | literal _ | leftParen => true
  | _ => false

def operator? : Kind → Option Operator
  | operator op => some op
  | _ => none

end Kind

/-- The text of a string token is its content without the quotes. -/
structure Token where
  kind : Kind
  text : String
  offset : Nat
deriving DecidableEq

namespace Token

/-- The text as it has to be written for the token to be recognised again. -/
def lexeme (t : Token) : String :=
  match t.kind with
  | .literal .string => "\"" ++ t.text ++ "\""
  | _ => t.text

def display (t : Token) : String := t.kind.name ++ "(" ++ t.lexeme ++ ")"

end Token

end FilterLang
