import FilterLang.Pattern.Reader

/-! Variable patterns decide which names are variables. A pattern is matched against what is left of
the text, as if nothing stood before it, and an empty match counts for nothing. -/
namespace FilterLang

theorem eq_ok_of_toOption {ε α : Type} {x : Except ε α} {a : α} (h : x.toOption = some a) :
    x = .ok a := by
  cases x with
  | error => contradiction
  | ok b =>
    cases h
    rfl

structure PatternError where
  source : String
  fault : PatternFault
  reason : String
deriving DecidableEq

namespace PatternError

def heading (e : PatternError) : String := "Invalid variable pattern '" ++ e.source ++ "': "

def message (e : PatternError) : String := e.heading ++ e.reason

end PatternError

structure VariablePattern where
  source : String
  regex : Regex

namespace VariablePattern

/-- The text is put behind an anchor and into a group of its own. -/
def enclosed (source : String) : List Char := "^(?:".toList ++ source.toList ++ [')']

def regexOf (engine : Engine) (source : String) : Except PatternFault Regex :=
  Pattern.read engine (enclosed source)

def ofString (source : String) (engine : Engine := .plain) :
    Except PatternError VariablePattern :=
  match regexOf engine source with
  | .ok regex => .ok ⟨source, regex⟩
  | .error fault => .error ⟨source, fault, engine.refusal (.ofList (enclosed source))⟩

variable {engine : Engine} {source : String}

theorem ofString_eq_ok {p : VariablePattern} (h : ofString source engine = .ok p) :
    p.source = source ∧ regexOf engine source = .ok p.regex := by
  unfold ofString at h
  split at h
  next hR =>
    cases h
    exact ⟨rfl, hR⟩
  next => contradiction

theorem ofString_of_regexOf {r : Regex} (h : (regexOf engine source).toOption = some r) :
    ofString source engine = .ok ⟨source, r⟩ := by
  rw [ofString, eq_ok_of_toOption h]

def defaultSource : String :=
  "(binaryblob|boolean|datetime|double|integer|longinteger|string)(array)?_value"

/-- Names of a basic type or an array of it. -/
def default : VariablePattern :=
  ⟨defaultSource, (regexOf .plain defaultSource).toOption.getD (.char .none)⟩

/-- How many characters of the text reach to the end of the match. -/
def reach (p : VariablePattern) (cs : List Char) : Option Nat :=
  (p.regex.search cs).filter (0 < ·)

/-- The same in UTF-8 bytes. -/
def matchLength? (p : VariablePattern) (text : String) : Option Nat :=
  (p.reach text.toList).map fun n => Text.utf8Length (text.toList.take n)

/-- Whether the match ends where the name does. -/
def accepts (p : VariablePattern) (name : String) : Bool :=
  p.matchLength? name == some (Text.utf8Length name.toList)

end VariablePattern

end FilterLang
