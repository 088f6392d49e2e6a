import FilterLang.Pattern.Escape

/-! Character classes in brackets. A class is read with its enclosing classes on a list, innermost
first, so the text is gone through once. Inside one class the set operations have equal rank and
group to the left. -/
namespace FilterLang.Pattern

inductive SetOperation where
  | inter | difference | symmetricDifference
deriving DecidableEq

def SetOperation.apply : SetOperation → CharSet → CharSet → CharSet
  | inter => CharSet.inter
  | difference => CharSet.difference
  | symmetricDifference => CharSet.symmetricDifference

/-- A set as far as it has been read, and how deeply its description is nested. -/
structure ClassPart where
  set : CharSet
  height : Nat

/-- An open class: the left side of an operation that awaits its right side, and the members read
since then, last first. -/
structure OpenClass where
  negated : Bool
  pending : Option (SetOperation × ClassPart)
  members : List ClassPart

def ClassPart.join : List ClassPart → ClassPart
  | [] => ⟨.none, 0⟩
  | [p] => p
  | ps => ⟨ps.foldr (fun p s => .union p.set s) .none, 1 + (ps.foldl (max · ·.height) 0)⟩

namespace OpenClass

/-- The members read so far, with the pending operation carried out. Case is closed before a set
operation and before negation, never after. -/
def value (f : Flags) (c : OpenClass) : ClassPart :=
  let right := ClassPart.join c.members.reverse
  match c.pending with
  | none => right
  | some (op, left) =>
    ⟨op.apply (f.closeCase left.set) (f.closeCase right.set), 1 + max left.height right.height⟩

def close (f : Flags) (c : OpenClass) : Except PatternFault ClassPart := do
  let v := c.value f
  return ⟨← f.negate c.negated (f.closeCase v.set), v.height + 1⟩

def add (c : OpenClass) (set : CharSet) : OpenClass :=
  { c with members := ⟨set, 0⟩ :: c.members }

def operate (f : Flags) (c : OpenClass) (op : SetOperation) : OpenClass :=
  { c with pending := some (op, c.value f), members := [] }

end OpenClass

/-! ### Reading -/

def leadingDashes (f : Flags) : Nat → OpenClass → List Char → OpenClass × List Char
  | n + 1, c, '-' :: cs => leadingDashes f n (c.add (.only '-')) (f.skip cs)
  | _, c, cs => (c, cs)

/-- Reads what stands behind an opening bracket: a sign of negation, dashes that stand for
themselves and, if there are none, a closing bracket that does. -/
def openClass (f : Flags) (cs : List Char) : OpenClass × List Char :=
  let (negated, cs) := match f.skip cs with
    | '^' :: rest => (true, f.skip rest)
    | rest => (false, rest)
  let (c, cs) := leadingDashes f cs.length ⟨negated, none, []⟩ cs
  match c.members, cs with
  | [], ']' :: rest => (c.add (.only ']'), f.skip rest)
  | _, _ => (c, cs)

/-- A class given by name; `cs` stands behind its opening bracket. -/
def namedClass? (f : Flags) (cs : List Char) :
    Option (Except PatternFault CharSet × List Char) :=
  match cs with
  | ':' :: cs =>
    let (negated, cs) := match cs with
      | '^' :: rest => (true, rest)
      | _ => (false, cs)
    match cs.dropWhile (· != ':') with
    | ':' :: ']' :: rest =>
      (CharSet.ofName? (cs.takeWhile (· != ':'))).map fun set =>
        (f.negate negated (f.closeCase set), rest)
    | _ => none
  | _ => none

def readMember (f : Flags) : List Char → Except PatternFault (Atom × List Char)
  | '\\' :: cs => readEscape f cs
  | c :: cs => .ok (.literal c false, cs)
  | [] => .error .unclosedClass

def Flags.atomSet (f : Flags) (engine : Engine) : Atom → Except PatternFault CharSet
  | .literal c _ => (f.member c).map .only
  | .shorthand kind negated => f.shorthand kind negated
  | .property name negated => f.property engine name negated
  | .place _ => .error .badClassItem

/-- Both ends of a range are literals in increasing order. -/
def Flags.rangeSet (f : Flags) : Atom → Atom → Except PatternFault CharSet
  | .literal first _, .literal last _ => do
    let first ← f.member first
    let last ← f.member last
    if first ≤ last then return .range first last else throw .badRange
  | _, _ => .error .badRange

/-- A member or a range. A dash before a closing bracket or another dash makes no range. -/
def readRange (engine : Engine) (f : Flags) (cs : List Char) :
    Except PatternFault (CharSet × List Char) := do
  let (first, rest) ← readMember f cs
  match f.skip rest with
  | [] => throw .unclosedClass
  | '-' :: rest =>
    if f.peek rest == some ']' || f.peek rest == some '-' then
      return (← f.atomSet engine first, '-' :: rest)
    else
      let (last, rest) ← readMember f (f.skip rest)
      return (← f.rangeSet first last, rest)
  | rest => return (← f.atomSet engine first, rest)

/-- Reads on in the innermost class `c` with the classes around it in `outer`. Each step reads at
least one character. -/
def readOpenClass (engine : Engine) (f : Flags) :
    Nat → OpenClass → List OpenClass → List Char → Except PatternFault (ClassPart × List Char)
  | 0, _, _, _ => .error .unclosedClass
  | n + 1, c, outer, cs =>
    match f.skip cs with
    | [] => .error .unclosedClass
    | '[' :: rest =>
      match namedClass? f rest with
      | some (set, rest) => do readOpenClass engine f n (c.add (← set)) outer rest
      | none =>
        let (inner, rest) := openClass f rest
        readOpenClass engine f n inner (c :: outer) rest
    | ']' :: rest => do
      let closed ← c.close f
      match outer with
      | [] => return (closed, rest)
      | d :: outer => readOpenClass engine f n { d with members := closed :: d.members } outer rest
    | '&' :: '&' :: rest => readOpenClass engine f n (c.operate f .inter) outer rest
    | '-' :: '-' :: rest => readOpenClass engine f n (c.operate f .difference) outer rest
    | '~' :: '~' :: rest => readOpenClass engine f n (c.operate f .symmetricDifference) outer rest
    | rest => do
      let (set, rest) ← readRange engine f rest
      readOpenClass engine f n (c.add set) outer rest

/-- Reads a class; `cs` stands behind its opening bracket. -/
def readClass (engine : Engine) (f : Flags) (cs : List Char) :
    Except PatternFault (ClassPart × List Char) :=
  let (c, rest) := openClass f cs
  readOpenClass engine f (rest.length + 1) c [] rest

end FilterLang.Pattern
