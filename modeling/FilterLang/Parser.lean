import FilterLang.Grammar
import FilterLang.Rejection

/-! The parser: a pushdown machine that takes one token in a step. Left operands that wait for their
right operands are kept for the innermost group and for each group around it, and an operator that
binds no tighter closes the waiting ones. Two limits bound the nesting of groups and the number of
operators; a parser that is used again goes on from its cursor and its counts. -/
namespace FilterLang

structure Limits where
  depth : Nat := 128
  operators : Nat := 1024
deriving DecidableEq

/-- How many tokens have been read, how many groups are open, how many operators were read. -/
structure Cursor where
  position : Nat := 0
  depth : Nat := 0
  operators : Nat := 0
deriving DecidableEq

/-- The left operands of one group that wait for their right operands, by level. -/
structure Pending where
  conjunction : Option Expr := none
  equality : Option (Expr × Operator) := none
  relation : Option (Expr × Operator) := none
deriving DecidableEq

namespace Pending

/-- An operand joined with the order test that waits for it. -/
def relational (p : Pending) (e : Expr) : Expr :=
  match p.relation with
  | some (left, op) => .binary op left e
  | none => e

/-- A relational expression joined with the equality test that waits for it. -/
def equal (p : Pending) (e : Expr) : Expr :=
  match p.equality with
  | some (left, op) => .binary op left e
  | none => e

/-- A relational expression joined with all that waits for it. -/
def whole (p : Pending) (e : Expr) : Expr :=
  match p.conjunction with
  | some left => .binary .and left (p.equal e)
  | none => p.equal e

/-- What waits when `op` follows the relational expression `e`. -/
def shift (p : Pending) (op : Operator) (e : Expr) : Pending :=
  match Level.ofOperator op with
  | .conjunction => ⟨some (p.whole e), none, none⟩
  | .equality => ⟨p.conjunction, some (p.equal e, op), none⟩
  | _ => ⟨p.conjunction, p.equality, some (e, op)⟩

end Pending

/-- Either an operand is due, or the relational expression `e` has been read and an operator or an
end is. `outer` belongs to the open groups, innermost first. -/
inductive Stage where
  | operand (pending : Pending) (outer : List Pending)
  | operator (e : Expr) (pending : Pending) (outer : List Pending)
deriving DecidableEq

/-- The stage after an operand. -/
def Stage.afterOperand (p : Pending) (e : Expr) (outer : List Pending) : Stage :=
  .operator (p.relational e) { p with relation := none } outer

/-- A step goes on to another stage or stops with a result. -/
inductive Step where
  | go (c : Cursor) (s : Stage)
  | stop (c : Cursor) (result : Except GrammarError Expr)

namespace Cursor

def advance (c : Cursor) : Cursor := { c with position := c.position + 1 }

def enter (c : Cursor) : Cursor := { c.advance with depth := c.depth + 1 }

def leave (c : Cursor) : Cursor := { c with depth := c.depth - 1 }

def countOperator (c : Cursor) : Cursor := { c.advance with operators := c.operators + 1 }

end Cursor

/-- One token. The group whose closing parenthesis is missed counts as left. -/
def Stage.step (limits : Limits) (c : Cursor) : Stage → Token → Step
  | .operand p outer, t =>
    match t.kind with
    | .leftParen =>
      if c.depth < limits.depth then .go c.enter (.operand {} (p :: outer))
      else .stop c.advance (.error (.nestedTooDeep limits.depth))
    | .literal _ =>
      match Literal.ofToken? t with
      | some l => .go c.advance (.afterOperand p (.literal l) outer)
      | none => .stop c (.error (.invalidNumber t.text t.offset))
    | kind => .stop c (.error (.unexpectedToken kind t.offset))
  | .operator e p outer, t =>
    match t.kind, outer with
    | .operator op, _ =>
      if c.operators < limits.operators then .go c.countOperator (.operand (p.shift op e) outer)
      else .stop c (.error (.tooManyOperators limits.operators t.offset))
    | _, [] => .stop c (.ok (p.whole e))
    | .rightParen, q :: outer => .go c.leave.advance (.afterOperand q (p.whole e) outer)
    | kind, _ :: _ => .stop c.leave (.error (.missingRightParen (some (kind, t.offset))))

/-- The end of the tokens. -/
def Stage.atEnd (c : Cursor) : Stage → Except GrammarError Expr × Cursor
  | .operand _ _ => (.error .unexpectedEnd, c)
  | .operator e p [] => (.ok (p.whole e), c)
  | .operator _ _ (_ :: _) => (.error (.missingRightParen none), c.leave)

def Stage.run (limits : Limits) (c : Cursor) (s : Stage) :
    List Token → Except GrammarError Expr × Cursor
  | [] => s.atEnd c
  | t :: ts =>
    match s.step limits c t with
    | .go c s => s.run limits c ts
    | .stop c result => (result, c)

/-- A parser over a list of tokens, of which the cursor has passed some. -/
structure Parser where
  tokens : List Token
  limits : Limits := {}
  cursor : Cursor := {}

namespace Parser

/-- The tokens that have not been read. -/
def rest (p : Parser) : List Token := p.tokens.drop p.cursor.position

/-- Reads one expression and leaves what follows it. -/
def readExpression (p : Parser) : Except GrammarError Expr × Parser :=
  let (result, cursor) := Stage.run p.limits p.cursor (.operand {} []) p.rest
  (result, { p with cursor })

/-- Reads one expression, which must be followed by nothing. -/
def readAll (p : Parser) : Except Rejection Expr × Parser :=
  if p.tokens.isEmpty then (.error .emptyInput, p)
  else match p.readExpression with
    | (.error e, q) => (.error (.grammar e), q)
    | (.ok e, q) =>
      match q.rest with
      | [] => (.ok e, q)
      | t :: _ => (.error (.grammar (.trailingToken t.kind t.offset)), q)

end Parser

/-- The expression that a list of tokens forms. -/
def parseTokens (ts : List Token) (limits : Limits) : Except Rejection Expr :=
  (Parser.readAll { tokens := ts, limits }).1

end FilterLang
