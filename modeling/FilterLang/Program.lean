import FilterLang.CommandLine

/-! The program as a function of its arguments and its standard input. -/
namespace FilterLang

/-- What a run leaves behind. The exit code is 0 for success, 1 for an expression that is not valid
and 2 for a failure, which alone leaves the output empty. -/
structure Outcome where
  exitCode : UInt8
  output : String
  journal : List JournalEntry
  failure : Option Failure

namespace Program

def usage : String :=
  "Usage: condexpr [-v]... check|tokens [EXPR] [--pattern PATTERN] [--pretty]\n" ++
  "       check also takes --max-depth N and --max-operators N\n"

def version : String := "condexpr 0.1.0\n"

/-- From what verbosity on entries of a level are shown. -/
def threshold : JournalLevel → Nat
  | .debug => 2
  | .trace => 3

def shown (verbosity : Nat) (journal : List JournalEntry) : List JournalEntry :=
  journal.filter fun e => threshold e.level ≤ verbosity

/-- The expression given, or else the whole of standard input; `none` stands for a terminal, which
is not read. -/
def readExpression (given : Option String) (stdin : Option ByteArray) :
    Except Failure (Option String) :=
  match given, stdin with
  | some text, _ => .ok (some text)
  | none, none => .ok none
  | none, some bytes =>
    match String.fromUTF8? bytes with
    | some text => .ok (some text)
    | none => .error (.io "stream did not contain valid UTF-8")

def failed (f : Failure) : Outcome := ⟨2, "", [], some f⟩

def runCheck (engine : Engine) (verbosity : Nat) (o : Options) : Outcome :=
  match check o engine with
  | .error f => failed f
  | .ok r => ⟨if r.isValid then 0 else 1, r.output ++ "\n", shown verbosity r.journal, none⟩

def runTokens (engine : Engine) (o : Options) : Outcome :=
  match listTokens o engine with
  | .error f => failed f
  | .ok output => ⟨0, output ++ "\n", [], none⟩

def run (request : Request) (stdin : Option ByteArray) (engine : Engine := .plain) : Outcome :=
  match request with
  | .help => ⟨0, usage, [], none⟩
  | .version => ⟨0, version, [], none⟩
  | .run command verbosity options =>
    match readExpression options.expression stdin with
    | .error f => failed f
    | .ok expression =>
      let options := { options with expression }
      match command with
      | .check => runCheck engine verbosity options
      | .tokens => runTokens engine options

/-- Whether a request needs standard input. -/
def reads : Request → Bool
  | .run _ _ options => options.expression.isNone
  | _ => false

end Program

namespace JournalEntry

/-- An entry on standard error, without the time that stands in front of the level. The lines of a
message behind the first are indented. -/
def line (e : JournalEntry) : String :=
  "[" ++ e.level.name ++ " " ++ origin ++ "] " ++
    String.intercalate "\n    " (e.message.splitOn "\n")

end JournalEntry

namespace Outcome

/-- The text for standard error. -/
def errorText (o : Outcome) : String :=
  String.join (o.journal.map fun e => e.line ++ "\n") ++
    (o.failure.map fun f => f.message ++ "\n").getD ""

end Outcome

end FilterLang
