import FilterLang.Pattern.Engine
import FilterLang.Pattern.Fault
import FilterLang.Pattern.Regex

/-! The smallest pieces of a pattern: flags, filler, escape sequences, and what a literal or a
shorthand class stands for under the flags in force. Reading a piece gives the piece and the text
behind it, or a fault. -/
namespace FilterLang.Pattern

structure Flags where
  caseless : Bool := false
  multiLine : Bool := false
  dotAll : Bool := false
  lazyFirst : Bool := false
  unicode : Bool := true
  crlf : Bool := false
  verbose : Bool := false

/-! ### Filler -/

def skipFiller (inComment : Bool) : List Char → List Char
  | [] => []
  | c :: cs =>
    if inComment then skipFiller (c != '\n') cs
    else if Text.isBlank c then skipFiller false cs
    else if c == '#' then skipFiller true cs
    else c :: cs

/-- Under the verbose flag, blanks and comments do not count. -/
def Flags.skip (f : Flags) (cs : List Char) : List Char :=
  if f.verbose then skipFiller false cs else cs

/-- The next character that counts, looking past blanks and one comment mark. -/
def Flags.peek (f : Flags) (cs : List Char) : Option Char :=
  if f.verbose then
    let ahead := match cs.dropWhile Text.isBlank with
      | '#' :: rest => rest.dropWhile Text.isBlank
      | rest => rest
    ahead.head? <|> cs.head?
  else cs.head?

/-! ### Escape sequences -/

inductive Shorthand where
  | digit | blank | word
deriving DecidableEq

/-- `byte` marks a literal written as two hexadecimal digits. -/
inductive Atom where
  | literal (c : Char) (byte : Bool)
  | shorthand (kind : Shorthand) (negated : Bool)
  | property (name : List Char) (negated : Bool)
  | place (p : Place)

def isHexDigit (c : Char) : Bool :=
  c.isDigit || ('a' ≤ c && c ≤ 'f') || ('A' ≤ c && c ≤ 'F')

def hexValue (cs : List Char) : Nat :=
  cs.foldl (fun n c =>
    16 * n + (if c.isDigit then c.toNat - 48 else c.toLower.toNat - 87)) 0

/-- The character with the given code point, unless that is out of range or a surrogate. -/
def charOf (n : Nat) : Except PatternFault Char :=
  if h : n.isValidChar then .ok (Char.ofNatAux n h) else .error .badEscape

/-- Exactly `n` hexadecimal digits, with filler behind each. -/
def readHexDigits (f : Flags) : Nat → List Char → Except PatternFault (List Char × List Char)
  | 0, cs => .ok ([], cs)
  | n + 1, c :: cs =>
    if isHexDigit c then
      (readHexDigits f n (f.skip cs)).map fun (ds, rest) => (c :: ds, rest)
    else .error .badEscape
  | _ + 1, [] => .error .badEscape

/-- What stands before a closing brace, filler left out, if all of it is allowed there; each step
reads a character of `cs`. -/
def readInBraces (f : Flags) (allowed : Char → Bool) :
    Nat → List Char → Except PatternFault (List Char × List Char)
  | _, '\x7d' :: cs => .ok ([], cs)
  | n + 1, c :: cs =>
    if allowed c then
      (readInBraces f allowed n (f.skip cs)).map fun (inside, rest) => (c :: inside, rest)
    else .error .badEscape
  | _, _ => .error .badEscape

/-- A code point, in braces or in `size` digits. -/
def readHex (f : Flags) (size : Nat) (cs : List Char) : Except PatternFault (Atom × List Char) :=
  match f.skip cs with
  | '\x7b' :: rest => do
    let (ds, rest) ← readInBraces f isHexDigit rest.length (f.skip rest)
    if ds.isEmpty then throw .badEscape
    return (.literal (← charOf (hexValue ds)) false, f.skip rest)
  | rest => do
    let (ds, rest) ← readHexDigits f size rest
    return (.literal (← charOf (hexValue ds)) (size == 2), rest)

def edgeNames : List (String × WordEdge) :=
  [("start", .start), ("end", .finish), ("start-half", .startHalf), ("end-half", .finishHalf)]

def isEdgeNameChar (c : Char) : Bool := c.isAlpha || c == '-'

/-- What stands behind `\b`: a named edge in braces, or nothing that belongs to it. -/
def readEdge (f : Flags) (cs : List Char) : Except PatternFault (WordEdge × List Char) :=
  match cs with
  | '\x7b' :: inside =>
    match f.skip inside with
    | [] => .error .badEscape
    | c :: rest =>
      if isEdgeNameChar c then do
        let (name, rest) ← readInBraces f isEdgeNameChar (rest.length + 1) (c :: rest)
        match edgeNames.find? (·.1.toList == name) with
        | some (_, edge) => return (edge, rest)
        | none => throw .badEscape
      else .ok (.boundary, cs)
  | _ => .ok (.boundary, cs)

/-- A property, by one letter or by what stands in braces. -/
def readProperty (f : Flags) (cs : List Char) : Except PatternFault (List Char × List Char) :=
  match f.skip cs with
  | '\x7b' :: rest => readInBraces f (fun _ => true) rest.length (f.skip rest)
  | '\\' :: _ => .error .badEscape
  | c :: rest => .ok ([c], f.skip rest)
  | [] => .error .badEscape

/-- Characters that stand for themselves behind a backslash: ASCII, but no letter or digit and
neither angle bracket. -/
def isEscapable (c : Char) : Bool :=
  c.toNat < 0x80 && !c.isAlphanum && c != '<' && c != '>'

/-- Reads what stands behind a backslash. -/
def readEscape (f : Flags) : List Char → Except PatternFault (Atom × List Char)
  | [] => .error .badEscape
  | c :: cs =>
    let word (edge : WordEdge) := Place.word edge (!f.unicode)
    if c.isDigit then .error .backReference
    else if isEscapable c then .ok (.literal c false, cs)
    else match c with
      | 'x' => readHex f 2 cs
      | 'u' => readHex f 4 cs
      | 'U' => readHex f 8 cs
      | 'p' => (readProperty f cs).map fun (name, rest) => (.property name false, rest)
      | 'P' => (readProperty f cs).map fun (name, rest) => (.property name true, rest)
      | 'd' => .ok (.shorthand .digit false, cs)
      | 'D' => .ok (.shorthand .digit true, cs)
      | 's' => .ok (.shorthand .blank false, cs)
      | 'S' => .ok (.shorthand .blank true, cs)
      | 'w' => .ok (.shorthand .word false, cs)
      | 'W' => .ok (.shorthand .word true, cs)
      | 'a' => .ok (.literal '\x07' false, cs)
      | 'f' => .ok (.literal '\x0c' false, cs)
      | 't' => .ok (.literal '\t' false, cs)
      | 'n' => .ok (.literal '\n' false, cs)
      | 'r' => .ok (.literal '\r' false, cs)
      | 'v' => .ok (.literal '\x0b' false, cs)
      | 'A' => .ok (.place .textStart, cs)
      | 'z' => .ok (.place .textEnd, cs)
      | 'b' => (readEdge f cs).map fun (edge, rest) => (.place (word edge), rest)
      | 'B' => .ok (.place (word .interior), cs)
      | '<' => .ok (.place (word .start), cs)
      | '>' => .ok (.place (word .finish), cs)
      | _ => .error .badEscape

/-! ### What the pieces stand for -/

/-- Closes a set under change of case if the flags say so. -/
def Flags.closeCase (f : Flags) (s : CharSet) : CharSet :=
  if f.caseless then (if f.unicode then .anyCase s else .anyAsciiCase s) else s

/-- Without the Unicode flag a complement would hold bytes that are no characters. -/
def Flags.negate (f : Flags) (negated : Bool) (s : CharSet) : Except PatternFault CharSet :=
  if negated then (if f.unicode then .ok (.compl s) else .error .notUnicode) else .ok s

/-- Without the Unicode flag a literal of two hexadecimal digits is a byte. -/
def Flags.literal (f : Flags) (c : Char) (byte : Bool) : Except PatternFault CharSet :=
  if !f.unicode && byte && 0x80 ≤ c.toNat then .error .notUnicode
  else .ok (f.closeCase (.only c))

/-- A literal inside a character class. -/
def Flags.member (f : Flags) (c : Char) : Except PatternFault Char :=
  if !f.unicode && 0x80 ≤ c.toNat then .error .notUnicode else .ok c

def Flags.shorthand (f : Flags) (kind : Shorthand) (negated : Bool) : Except PatternFault CharSet :=
  f.negate negated <| match kind, f.unicode with
    | .digit, true => .decimalDigit
    | .digit, false => .asciiDigit
    | .blank, true => .blank
    | .blank, false => .asciiBlank
    | .word, true => .word
    | .word, false => .asciiWord

/-- Without the Unicode flag there are no properties. -/
def Flags.property (f : Flags) (engine : Engine) (name : List Char) (negated : Bool) :
    Except PatternFault CharSet :=
  if f.unicode then
    match engine.property? name with
    | some set => f.negate negated (f.closeCase set)
    | none => .error .unknownProperty
  else .error .unicodeOff

def Flags.dot (f : Flags) : Except PatternFault CharSet :=
  if !f.unicode then .error .notUnicode
  else if f.dotAll then .ok .all
  else .ok (.except (if f.crlf then ['\r', '\n'] else ['\n']))

def Flags.startPlace (f : Flags) : Place := if f.multiLine then .lineStart f.crlf else .textStart

def Flags.endPlace (f : Flags) : Place := if f.multiLine then .lineEnd f.crlf else .textEnd

end FilterLang.Pattern
