import FilterLang.Binary64.Numeral
import FilterLang.Token

/-! Conditions as trees: literals and variables at the leaves, binary operators inside. The height
and the variables of a tree are given twice, by recursion and by a walk that keeps the subtrees
still to be seen in a list and so needs no stack as deep as the tree. -/
namespace FilterLang

inductive Literal where
  | number (value : Binary64)
  | string (value : String)
  | boolean (value : Bool)
  | var (name : String)
deriving DecidableEq

inductive Expr where
  | literal (value : Literal)
  | binary (op : Operator) (left right : Expr)
deriving DecidableEq

namespace Literal

def kind : Literal → LiteralKind
  | number _ => .number
  | string _ => .string
  | boolean _ => .boolean
  | var _ => .var

def display : Literal → String
  | number x => x.display
  | string s => "\"" ++ s ++ "\""
  | boolean b => if b then "true" else "false"
  | var name => name

/-- Equality with numbers compared as numbers, so that NaN differs from itself. -/
def equals : Literal → Literal → Bool
  | number x, number y => x.equals y
  | number _, _ => false
  | _, number _ => false
  | k, l => k == l

end Literal

namespace Expr

def literal? : Expr → Option Literal
  | literal l => some l
  | binary _ _ _ => none

/-- The operator at the root. -/
def operator? : Expr → Option Operator
  | literal _ => none
  | binary op _ _ => some op

def equals : Expr → Expr → Bool
  | literal k, literal l => k.equals l
  | binary p l r, binary q l' r' => p == q && l.equals l' && r.equals r'
  | _, _ => false

/-- Writes the tree after `done`, with parentheses around every operation. -/
def displayAfter (done : String) : Expr → String
  | literal l => done ++ l.display
  | binary op l r =>
    displayAfter (displayAfter (done ++ "(") l ++ " " ++ op.symbol ++ " ") r ++ ")"

def display (e : Expr) : String := displayAfter "" e

/-! ### By recursion -/

/-- Levels of the tree, one for a leaf. -/
def height : Expr → Nat
  | literal _ => 1
  | binary _ l r => max l.height r.height + 1

/-- Names at the leaves from left to right, with repetitions. -/
def leafNames : Expr → List String
  | literal (.var name) => [name]
  | literal _ => []
  | binary _ l r => l.leafNames ++ r.leafNames

/-- Number of leaves and operations. -/
def size : Expr → Nat
  | literal _ => 1
  | binary _ l r => l.size + r.size + 1

def totalSize : List Expr → Nat
  | [] => 0
  | e :: rest => e.size + totalSize rest

/-! ### By a walk -/

/-- The deepest level among `deepest` and the subtrees still to be seen, each with the level of
its root. -/
def deepestOf (deepest : Nat) : List (Expr × Nat) → Nat
  | [] => deepest
  | (literal _, level) :: rest => deepestOf (max deepest level) rest
  | (binary _ l r, level) :: rest =>
    deepestOf (max deepest level) ((r, level + 1) :: (l, level + 1) :: rest)
termination_by work => totalSize (work.map Prod.fst)
decreasing_by all_goals (simp [totalSize, size]; try omega)

def depth (e : Expr) : Nat := deepestOf 0 [(e, 1)]

/-- The names in `found`, last first, followed by those of the subtrees still to be seen. -/
def namesOf (found : List String) : List Expr → List String
  | [] => found.reverse
  | literal (.var name) :: rest => namesOf (name :: found) rest
  | literal _ :: rest => namesOf found rest
  | binary _ l r :: rest => namesOf found (l :: r :: rest)
termination_by work => totalSize work
decreasing_by all_goals (simp [totalSize, size]; try omega)

end Expr

def Expr.variables (e : Expr) : List String := namesOf [] [e]

end FilterLang
