import FilterLang.TokenStream

/-! Why a text or a list of tokens is rejected, and the words for it. -/
namespace FilterLang

inductive GrammarError where
  | unexpectedToken (kind : Kind) (offset : Nat)
  | unexpectedEnd
  | missingRightParen (found : Option (Kind × Nat))
  | trailingToken (kind : Kind) (offset : Nat)
  | invalidNumber (text : String) (offset : Nat)
  | nestedTooDeep (limit : Nat)
  | tooManyOperators (limit offset : Nat)
deriving DecidableEq

def GrammarError.message : GrammarError → String
  | unexpectedToken kind offset =>
    "unexpected token " ++ kind.name ++ " at position " ++ toString offset
  | unexpectedEnd => "unexpected end of input"
  | missingRightParen none => "expected closing parenthesis, found end of input"
  | missingRightParen (some (kind, offset)) =>
    "expected closing parenthesis, found " ++ kind.name ++ " at position " ++ toString offset
  | trailingToken kind offset =>
    "unexpected token " ++ kind.name ++ " after end of expression at position " ++ toString offset
  | invalidNumber text offset =>
    "invalid number '" ++ text ++ "' at position " ++ toString offset
  | nestedTooDeep limit => "parentheses nested deeper than " ++ toString limit ++ " levels"
  | tooManyOperators limit offset =>
    "more than " ++ toString limit ++ " operators in expression, at position " ++ toString offset

inductive Rejection where
  | unrecognized (e : Unrecognized)
  | emptyInput
  | grammar (e : GrammarError)
deriving DecidableEq

namespace Rejection

/-- A name for the class of the rejection that stays the same from release to release. -/
def code : Rejection → String
  | unrecognized _ => "lex_error"
  | emptyInput => "empty_input"
  | grammar _ => "syntax_error"

def message : Rejection → String
  | unrecognized e => "could not tokenize input: " ++ e.message
  | emptyInput => "Input vuoto"
  | grammar e => e.message

/-- The message of the error underneath, if there is one. -/
def cause? : Rejection → Option String
  | unrecognized e => some e.message
  | emptyInput => none
  | grammar e => some e.message

end Rejection

end FilterLang
