import FilterLang.Report

/-! The two commands: `check` gives the verdict on an expression, `tokens` lists its tokens. An
expression that is not valid is a result of `check` and no failure. -/
namespace FilterLang

structure Options where
  expression : Option String := none
  pattern : Option String := none
  layout : Json.Layout := .compact
  limits : Limits := {}

inductive Failure where
  | pattern (e : PatternError)
  | unrecognized (e : Unrecognized)
  | io (reason : String)
  | noInput
deriving DecidableEq

namespace Failure

/-- The message as far as it does not depend on the fault in a pattern. -/
def heading : Failure → String
  | pattern e => e.heading
  | unrecognized e => "Lex error: " ++ e.message
  | io reason => "IO error: " ++ reason
  | noInput => "No expression provided. Pass it as an argument or pipe it to stdin."

def message : Failure → String
  | pattern e => e.message
  | f => f.heading

/-- The message of the error underneath, as far as it does not depend on the fault in a pattern. -/
def cause? : Failure → Option String
  | pattern e => some e.heading
  | unrecognized e => some e.message
  | io reason => some reason
  | noInput => none

end Failure

namespace Options

def pattern? (engine : Engine) (o : Options) : Except PatternError VariablePattern :=
  match o.pattern with
  | some source => VariablePattern.ofString source engine
  | none => .ok .default

/-- The expression and the settings. A missing expression is reported before a bad pattern. -/
def prepare (engine : Engine) (o : Options) : Except Failure (String × Settings) :=
  match o.expression, o.pattern? engine with
  | none, _ => .error .noInput
  | some _, .error e => .error (.pattern e)
  | some text, .ok pattern => .ok (text, { pattern, limits := o.limits })

end Options

structure CheckResult where
  verdict : Verdict
  output : String
  journal : List JournalEntry

def CheckResult.isValid (r : CheckResult) : Bool := r.verdict.isOk

def check (o : Options) (engine : Engine := .plain) : Except Failure CheckResult := do
  let (text, settings) ← o.prepare engine
  let (verdict, journal) := settings.examine text
  return ⟨verdict, (Verdict.report verdict).render o.layout, journal⟩

def listTokens (o : Options) (engine : Engine := .plain) : Except Failure String := do
  let (text, settings) ← o.prepare engine
  match settings.tokenize text with
  | .ok ts => return (reportTokens ts).render o.layout
  | .error e => throw (.unrecognized e)

end FilterLang
