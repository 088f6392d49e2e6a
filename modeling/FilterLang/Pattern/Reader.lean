import FilterLang.Pattern.Class

/-! Reading a regular expression from text. The open groups are kept on a list, innermost first, and
flags that are set inside a group end with it. Two bounds keep patterns small: how deeply their
parts are nested, and how much they weigh with all counted repetitions written out. The weight
only approximates what a compiled pattern takes. -/
namespace FilterLang.Pattern

def maxHeight : Nat := 250

/-- A part of a pattern. Flag settings are parts too, but cannot be repeated. -/
structure Piece where
  regex : Regex
  weight : Nat
  height : Nat
  repeatable : Bool

/-- What a group that is still open interrupts: the flags in force before it, and the finished
branches and the pieces of the branch around it, last first. -/
structure OpenGroup where
  flags : Flags
  branches : List Piece
  pieces : List Piece

structure Progress where
  outer : List OpenGroup
  branches : List Piece
  pieces : List Piece
  flags : Flags
  names : List (List Char)

namespace Piece

def ofSet (set : CharSet) (height : Nat) : Piece := ⟨.char set, set.weight, height, true⟩

def ofPlace (p : Place) : Piece := ⟨.here p, 1, 0, true⟩

def flagSetting : Piece := ⟨.empty, 0, 0, false⟩

def highest (ps : List Piece) : Nat := ps.foldl (max · ·.height) 0

def total (ps : List Piece) : Nat := ps.foldl (· + ·.weight) 0

/-- Pieces one after another. -/
def chain : List Piece → Piece
  | [] => ⟨.empty, 1, 0, true⟩
  | [p] => p
  | p :: ps =>
    ⟨ps.foldr (fun q k r => .seq r (k q.regex)) id p.regex, total (p :: ps),
      1 + highest (p :: ps), true⟩

/-- Branches in order of preference. -/
def choice : List Piece → Piece
  | [] => ⟨.empty, 1, 0, true⟩
  | [p] => p
  | p :: ps =>
    ⟨ps.foldr (fun q k r => .alt r (k q.regex)) id p.regex, total (p :: ps) + 1,
      1 + highest (p :: ps), true⟩

end Piece

/-! ### Repetition -/

/-- How often something is repeated: at least and, unless there is no bound, at most. -/
structure Count where
  least : Nat
  most : Option Nat

def Count.regex (count : Count) (greedy : Bool) (r : Regex) : Regex :=
  match count.most with
  | none => .atLeast greedy r count.least
  | some most => .times r (.atMost greedy r (most - count.least)) count.least

def Piece.repeated (engine : Engine) (p : Piece) (count : Count) (greedy : Bool) :
    Except PatternFault Piece :=
  let copies := max 1 (count.most.getD count.least)
  let weight := copies * p.weight + copies
  if engine.room < weight then .error .tooLarge
  else .ok ⟨count.regex greedy p.regex, weight, p.height + 1, true⟩

/-- Decimal digits with filler behind each. -/
def readDigits (f : Flags) : Nat → List Char → List Char × List Char
  | n + 1, c :: cs =>
    if c.isDigit then
      let (ds, rest) := readDigits f n (f.skip cs)
      (c :: ds, rest)
    else ([], c :: cs)
  | _, cs => ([], cs)

/-- A count of at most 32 bits; blanks may stand around it. -/
def readNumber (f : Flags) (cs : List Char) : Except PatternFault (Nat × List Char) :=
  let cs := cs.dropWhile Text.isBlank
  let (ds, rest) := readDigits f cs.length cs
  let n := Nat.ofDigitChars 10 ds 0
  if ds.isEmpty || UInt32.size ≤ n then .error .badCount
  else .ok (n, rest.dropWhile Text.isBlank)

/-- Reads what stands behind an opening brace: one count, a least count and a comma, or two
counts. -/
def readCount (f : Flags) (cs : List Char) : Except PatternFault (Count × List Char) := do
  let (least, rest) ← readNumber f (f.skip cs)
  match rest with
  | '\x7d' :: rest => return (⟨least, some least⟩, f.skip rest)
  | ',' :: rest =>
    match f.skip rest with
    | '\x7d' :: rest => return (⟨least, none⟩, f.skip rest)
    | rest =>
      let (most, rest) ← readNumber f rest
      match rest with
      | '\x7d' :: rest =>
        if least ≤ most then return (⟨least, some most⟩, f.skip rest) else throw .badCount
      | _ => throw .badCount
  | _ => throw .badCount

/-! ### Groups -/

def Flags.set (f : Flags) (flag : Char) (value : Bool) : Option Flags :=
  match flag with
  | 'i' => some { f with caseless := value }
  | 'm' => some { f with multiLine := value }
  | 's' => some { f with dotAll := value }
  | 'U' => some { f with lazyFirst := value }
  | 'u' => some { f with unicode := value }
  | 'R' => some { f with crlf := value }
  | 'x' => some { f with verbose := value }
  | _ => none

/-- Reads flags up to a colon or a closing parenthesis, which is left in the text. `seen` are the
characters read so far; none may come twice, and the sign of negation not last. -/
def readFlags (f : Flags) (seen : List Char) : List Char → Except PatternFault (Flags × List Char)
  | [] => .error .badFlags
  | c :: cs =>
    if c == ':' || c == ')' then
      if seen.head? == some '-' then .error .badFlags else .ok (f, c :: cs)
    else if seen.contains c then .error .badFlags
    else if c == '-' then readFlags f (c :: seen) cs
    else match f.set c (!seen.contains '-') with
      | some f => readFlags f (c :: seen) cs
      | none => .error .badFlags

def isNameStart (c : Char) : Bool := c == '_' || Text.isAlphabetic c

def isNamePart (c : Char) : Bool :=
  c == '_' || c == '.' || c == '[' || c == ']' || Text.isAlphanumeric c

/-- A group name and the text behind its closing angle bracket. -/
def readGroupName (cs : List Char) : Except PatternFault (List Char × List Char) :=
  match cs.takeWhile (· != '>'), cs.dropWhile (· != '>') with
  | c :: name, '>' :: rest =>
    if isNameStart c && name.all isNamePart then .ok (c :: name, rest) else .error .badGroupName
  | _, _ => .error .badGroupName

namespace Progress

def add (s : Progress) (p : Piece) : Progress := { s with pieces := p :: s.pieces }

def openGroup (s : Progress) (f : Flags) : Progress :=
  { s with outer := ⟨s.flags, s.branches, s.pieces⟩ :: s.outer, branches := [], pieces := [],
           flags := f }

def nextBranch (s : Progress) : Progress :=
  { s with branches := .chain s.pieces.reverse :: s.branches, pieces := [] }

/-- The present group as one piece. -/
def value (s : Progress) : Piece := .choice s.nextBranch.branches.reverse

def closeGroup (s : Progress) : Except PatternFault Progress :=
  match s.outer with
  | [] => .error .unopenedGroup
  | g :: outer =>
    let inner := s.value
    .ok { s with
      outer, branches := g.branches, flags := g.flags
      pieces := ⟨inner.regex, inner.weight, inner.height + 1, true⟩ :: g.pieces }

/-- Reads what stands behind an opening parenthesis. -/
def readGroup (s : Progress) (cs : List Char) : Except PatternFault (Progress × List Char) :=
  let named (rest : List Char) : Except PatternFault (Progress × List Char) := do
    let (name, rest) ← readGroupName rest
    if s.names.contains name then throw .badGroupName
    return ({ s with names := name :: s.names }.openGroup s.flags, rest)
  match s.flags.skip cs with
  | '?' :: '=' :: _ | '?' :: '!' :: _ | '?' :: '<' :: '=' :: _ | '?' :: '<' :: '!' :: _ =>
    .error .lookAround
  | '?' :: 'P' :: '<' :: rest => named rest
  | '?' :: '<' :: rest => named rest
  | '?' :: rest => do
    let (f, tail) ← readFlags s.flags [] rest
    match tail with
    | ')' :: tail =>
      if rest.head? == some ')' then throw .nothingToRepeat
      else return ({ s with flags := f }.add .flagSetting, tail)
    | _ :: tail => return (s.openGroup f, tail)
    | [] => throw .unclosedGroup
  | rest => .ok (s.openGroup s.flags, rest)

/-- Repeats the last piece; `greedy` holds unless a question mark follows the operator. -/
def repeatLast (engine : Engine) (s : Progress) (count : Count) (greedy : Bool) :
    Except PatternFault Progress :=
  match s.pieces with
  | [] => .error .nothingToRepeat
  | p :: ps =>
    if p.repeatable then do
      return { s with pieces := (← p.repeated engine count (greedy != s.flags.lazyFirst)) :: ps }
    else .error .nothingToRepeat

def quantify (engine : Engine) (s : Progress) (count : Count) (cs : List Char) :
    Except PatternFault (Progress × List Char) :=
  match cs with
  | '?' :: rest => (s.repeatLast engine count false).map (·, rest)
  | _ => (s.repeatLast engine count true).map (·, cs)

def addAtom (engine : Engine) (s : Progress) : Atom → Except PatternFault Progress
  | .literal c byte => (s.flags.literal c byte).map fun set => s.add (.ofSet set 0)
  | .shorthand kind negated =>
    (s.flags.shorthand kind negated).map fun set => s.add (.ofSet set 0)
  | .property name negated =>
    (s.flags.property engine name negated).map fun set => s.add (.ofSet set 0)
  | .place p => .ok (s.add (.ofPlace p))

/-- Reads one operator or one piece. -/
def step (engine : Engine) (s : Progress) (c : Char) (cs : List Char) :
    Except PatternFault (Progress × List Char) :=
  match c with
  | '(' => s.readGroup cs
  | ')' => s.closeGroup.map (·, cs)
  | '|' => .ok (s.nextBranch, cs)
  | '[' =>
    (readClass engine s.flags cs).map fun (part, rest) =>
      (s.add (.ofSet part.set part.height), rest)
  | '?' => s.quantify engine ⟨0, some 1⟩ cs
  | '*' => s.quantify engine ⟨0, none⟩ cs
  | '+' => s.quantify engine ⟨1, none⟩ cs
  | '\x7b' => do
    let (count, rest) ← readCount s.flags cs
    s.quantify engine count rest
  | '\\' => do
    let (atom, rest) ← readEscape s.flags cs
    return (← s.addAtom engine atom, rest)
  | '.' => s.flags.dot.map fun set => (s.add (.ofSet set 0), cs)
  | '^' => .ok (s.add (.ofPlace s.flags.startPlace), cs)
  | '$' => .ok (s.add (.ofPlace s.flags.endPlace), cs)
  | c => (s.addAtom engine (.literal c false)).map (·, cs)

/-- Reads to the end of the text, at least one character in a step. -/
def finish (engine : Engine) : Nat → Progress → List Char → Except PatternFault Progress
  | 0, s, _ => .ok s
  | n + 1, s, cs =>
    match s.flags.skip cs with
    | [] => .ok s
    | c :: cs => do
      let (s, rest) ← s.step engine c cs
      finish engine n s rest

end Progress

/-- The regular expression that a text denotes. -/
def read (engine : Engine) (cs : List Char) : Except PatternFault Regex := do
  let s ← Progress.finish engine cs.length ⟨[], [], [], {}, []⟩ cs
  if !s.outer.isEmpty then throw .unclosedGroup
  let p := s.value
  if maxHeight < p.height then throw .tooDeep
  if engine.room < p.weight then throw .tooLarge
  return p.regex

end FilterLang.Pattern
