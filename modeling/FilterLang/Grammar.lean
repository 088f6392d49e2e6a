import FilterLang.Expr

/-! The grammar of conditions. Four levels of binding, loosest first: `and`, equality, order,
operand. On each level operators group to the left. A derivation carries the tree that it builds,
and the levels make it the only one for its tokens. -/
namespace FilterLang

/-- The literal that a token stands for. A Boolean token other than `true` is false. -/
def Literal.ofToken? (t : Token) : Option Literal :=
  match t.kind with
  | .literal .number => (Binary64.ofString? t.text).map .number
  | .literal .string => some (.string t.text)
  | .literal .boolean => some (.boolean (t.text == "true"))
  | .literal .var => some (.var t.text)
  | _ => none

inductive Level where
  | conjunction | equality | relational | operand
deriving DecidableEq

namespace Level

/-- The level of the operands of this level's operators. -/
def tighter : Level → Level
  | conjunction => equality
  | equality => relational
  | relational => operand
  | operand => operand

/-- The level on which an operator stands. -/
def ofOperator : Operator → Level
  | .and => conjunction
  | .eq | .ne => equality
  | .lt | .le | .gt | .ge => relational

end Level

/-- `Derives l ts e`: the tokens form an expression of level `l` with tree `e`. -/
inductive Derives : Level → List Token → Expr → Prop where
  | literal {t : Token} {l : Literal} (ht : Literal.ofToken? t = some l) :
      Derives .operand [t] (.literal l)
  | group {left right : Token} {ts : List Token} {e : Expr} (hl : left.kind = .leftParen)
      (hr : right.kind = .rightParen) (h : Derives .conjunction ts e) :
      Derives .operand (left :: ts ++ [right]) e
  | tighter {l : Level} {ts : List Token} {e : Expr} (hl : l ≠ .operand)
      (h : Derives l.tighter ts e) : Derives l ts e
  | chain {op : Operator} {xs ys : List Token} {t : Token} {x y : Expr}
      (hx : Derives (.ofOperator op) xs x) (ht : t.kind = .operator op)
      (hy : Derives (Level.ofOperator op).tighter ys y) :
      Derives (.ofOperator op) (xs ++ t :: ys) (.binary op x y)

end FilterLang
