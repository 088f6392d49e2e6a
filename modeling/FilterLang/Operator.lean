/-! The binary operators of a condition: conjunction, two equality tests and four order tests.
Their order of binding is the grammar's affair; here they only have a spelling and a class. -/
namespace FilterLang

inductive Operator where
  | and | eq | ne | lt | le | gt | ge
deriving DecidableEq

namespace Operator

def symbol : Operator → String
  | and => "and"
  | eq => "=="
  | ne => "!="
  | lt => "<"
  | le => "<="
  | gt => ">"
  | ge => ">="

/-- The name under which reports and messages speak of the operator. -/
def name : Operator → String
  | and => "And"
  | eq => "Eq"
  | ne => "Neq"
  | lt => "Lt"
  | le => "Lte"
  | gt => "Gt"
  | ge => "Gte"

def isEquality : Operator → Bool
  | eq | ne => true
  | _ => false

def isRelational : Operator → Bool
  | lt | le | gt | ge => true
  | _ => false

end Operator

end FilterLang
