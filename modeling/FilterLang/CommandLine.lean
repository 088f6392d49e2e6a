import FilterLang.Command

/-! The command line. An argument that begins with a dash is an option unless it is a dash alone; a
double dash ends the options. Only the verbosity may be given more than once, and it may be given
before the command as well; what the command has of it counts then, if it has any. -/
namespace FilterLang

inductive CommandName where
  | check | tokens
deriving DecidableEq

inductive Request where
  | help
  | version
  | run (command : CommandName) (verbosity : Nat) (options : Options)

namespace CommandLine

/-- What the arguments behind a command have said so far. -/
structure Draft where
  verbosity : Nat := 0
  expression : Option String := none
  pattern : Option String := none
  pretty : Bool := false
  maxDepth : Option Nat := none
  maxOperators : Option Nat := none
  help : Bool := false

/-- What the next argument may be: anything, the value of an option, or an expression only. -/
inductive Mode where
  | free
  | value (name : String)
  | plain

/-- A limit: decimal digits, possibly behind a plus sign, of at most 64 bits. -/
def readLimit (s : String) : Option Nat :=
  let ds := match s.toList with
    | '+' :: ds => ds
    | ds => ds
  let n := Nat.ofDigitChars 10 ds 0
  if !ds.isEmpty && ds.all Char.isDigit && n < UInt64.size then some n else none

def isOption : List Char → Bool
  | '-' :: _ :: _ => true
  | _ => false

/-- Where a long option is cut into its name and the value attached to it. -/
def splitValue (cs : List Char) : List Char × Option (List Char) :=
  match cs.dropWhile (· != '=') with
  | _ :: value => (cs.takeWhile (· != '='), some value)
  | [] => (cs, none)

namespace Draft

def setExpression (d : Draft) (s : String) : Option Draft :=
  if d.expression.isNone then some { d with expression := some s } else none

def setPretty (d : Draft) : Option Draft :=
  if d.pretty then none else some { d with pretty := true }

def moreVerbose (d : Draft) : Draft := { d with verbosity := d.verbosity + 1 }

/-- Gives a value to an option that takes one; `none` if the command has no such option, if it has
a value, or if the value is no limit where a limit is due. -/
def setValue (d : Draft) (command : CommandName) (name value : String) : Option Draft :=
  match command, name with
  | _, "pattern" =>
    if d.pattern.isNone then some { d with pattern := some value } else none
  | .check, "max-depth" =>
    if d.maxDepth.isNone then (readLimit value).map fun n => { d with maxDepth := some n } else none
  | .check, "max-operators" =>
    if d.maxOperators.isNone then
      (readLimit value).map fun n => { d with maxOperators := some n }
    else none
  | _, _ => none

/-- Options of one letter, any number of them in one argument. -/
def setLetters (d : Draft) : List Char → Option Draft
  | [] => some d
  | 'v' :: cs => d.moreVerbose.setLetters cs
  | 'p' :: cs => d.setPretty.bind (setLetters · cs)
  | 'h' :: _ => some { d with help := true }
  | _ => none

/-- A long option, with a value attached to it or without. -/
def setLong (d : Draft) (command : CommandName) (name : String) :
    Option String → Option (Draft × Mode)
  | some value => (d.setValue command name value).map (·, .free)
  | none =>
    match name with
    | "help" => some ({ d with help := true }, .free)
    | "verbose" => some (d.moreVerbose, .free)
    | "pretty" => d.setPretty.map (·, .free)
    | _ => some (d, .value name)

/-- One argument. -/
def take (d : Draft) (command : CommandName) (mode : Mode) (arg : String) :
    Option (Draft × Mode) :=
  match mode, arg.toList with
  | .plain, _ => (d.setExpression arg).map (·, .plain)
  | .value name, cs =>
    if isOption cs then none else (d.setValue command name arg).map (·, .free)
  | .free, ['-', '-'] => some (d, .plain)
  | .free, '-' :: '-' :: long =>
    let (name, value) := splitValue long
    d.setLong command (String.ofList name) (value.map String.ofList)
  | .free, '-' :: letter :: letters => (d.setLetters (letter :: letters)).map (·, .free)
  | .free, _ => (d.setExpression arg).map (·, .free)

def options (d : Draft) : Options where
  expression := d.expression
  pattern := d.pattern
  layout := if d.pretty then .pretty else .compact
  limits := { depth := d.maxDepth.getD ({} : Limits).depth,
              operators := d.maxOperators.getD ({} : Limits).operators }

def request (d : Draft) (command : CommandName) (outerVerbosity : Nat) : Request :=
  .run command (if d.verbosity = 0 then outerVerbosity else d.verbosity) d.options

end Draft

/-- Arguments behind a command. -/
def readArguments (command : CommandName) (outerVerbosity : Nat) (d : Draft) (mode : Mode) :
    List String → Option Request
  | [] =>
    match mode with
    | .value _ => none
    | _ => some (d.request command outerVerbosity)
  | arg :: rest =>
    match d.take command mode arg with
    | none => none
    | some (d, mode) =>
      if d.help then some .help else readArguments command outerVerbosity d mode rest

/-- What a run of letters before the command asks for: more verbosity, or an answer at once. -/
def readLetters (verbosity : Nat) : List Char → Option (Nat ⊕ Request)
  | [] => some (.inl verbosity)
  | 'v' :: cs => readLetters (verbosity + 1) cs
  | 'V' :: _ => some (.inr .version)
  | 'h' :: _ => some (.inr .help)
  | _ => none

/-- Arguments up to a command. -/
def readFrom (verbosity : Nat) : List String → Option Request
  | [] => none
  | "check" :: rest => readArguments .check verbosity {} .free rest
  | "tokens" :: rest => readArguments .tokens verbosity {} .free rest
  | "help" :: _ => some .help
  | "--help" :: _ => some .help
  | "--version" :: _ => some .version
  | "--verbose" :: rest => readFrom (verbosity + 1) rest
  | arg :: rest =>
    match arg.toList with
    | '-' :: letter :: letters =>
      match readLetters verbosity (letter :: letters) with
      | some (.inl verbosity) => readFrom verbosity rest
      | some (.inr request) => some request
      | none => none
    | _ => none

/-- What the arguments ask for; `none` if they are not used as they should be. -/
def read (args : List String) : Option Request := readFrom 0 args

end CommandLine

end FilterLang
