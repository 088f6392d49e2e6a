import FilterLang.Json
import FilterLang.Settings

/-! Trees, tokens and verdicts as JSON. -/
namespace FilterLang

/-- There is no JSON number for one that is not finite. -/
def Literal.reportValue : Literal → Json
  | number x => if x.isFinite then .number x else .null
  | string s => .string s
  | boolean b => .bool b
  | var name => .string name

def Expr.report : Expr → Json
  | literal l =>
    .record [("type", .string "Literal"), ("kind", .string l.kind.name), ("value", l.reportValue)]
  | binary op l r =>
    .record [("type", .string "BinaryExpression"), ("operator", .string op.name),
      ("left", l.report), ("right", r.report)]

def Token.report (t : Token) : Json :=
  .record [("kind", .string t.kind.name), ("text", .string t.text), ("offset", .integer t.offset)]

def reportTokens (ts : List Token) : Json := .array (ts.map Token.report)

def Verdict.report : Verdict → Json
  | .ok e => .record [("valid", .bool true), ("ast", e.report)]
  | .error r =>
    .record [("valid", .bool false), ("error", .string r.message), ("code", .string r.code)]

end FilterLang
