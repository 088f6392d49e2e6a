import FilterLang.Text.Blank
import FilterLang.Text.Folding
import FilterLang.Text.Word

/-! Sets of characters as patterns describe them: ranges, Unicode properties, Boolean operations and
closure under change of case. A set stays a description; only membership is computed. -/
namespace FilterLang

inductive CharSet where
  | none
  | range (first last : Char)
  | blank
  | decimalDigit
  | word
  | union (a b : CharSet)
  | inter (a b : CharSet)
  | compl (a : CharSet)
  | anyCase (a : CharSet)
  | anyAsciiCase (a : CharSet)
deriving DecidableEq

namespace CharSet

def contains : CharSet → Char → Bool
  | none, _ => false
  | range first last, c => first ≤ c && c ≤ last
  | blank, c => Text.isBlank c
  | decimalDigit, c => Text.isDecimalDigit c
  | word, c => Text.isWord c
  | union a b, c => a.contains c || b.contains c
  | inter a b, c => a.contains c && b.contains c
  | compl a, c => !a.contains c
  | anyCase a, c => a.contains c || (Text.caseVariants c).any a.contains
  | anyAsciiCase a, c => a.contains c || a.contains c.toLower || a.contains c.toUpper

def only (c : Char) : CharSet := range c c

def all : CharSet := compl none

/-- Everything except the given characters. -/
def except (cs : List Char) : CharSet := compl (cs.foldr (fun c s => union (only c) s) none)

/-- The union of ranges. -/
def ranges (rs : List (Char × Char)) : CharSet :=
  rs.foldr (fun r s => union (range r.1 r.2) s) none

def difference (a b : CharSet) : CharSet := inter a (compl b)

def symmetricDifference (a b : CharSet) : CharSet := union (difference a b) (difference b a)

/-! ### ASCII classes -/

def asciiDigit : CharSet := range '0' '9'

def asciiBlank : CharSet := ranges [('\t', '\r'), (' ', ' ')]

def asciiWord : CharSet := ranges [('0', '9'), ('A', 'Z'), ('_', '_'), ('a', 'z')]

/-- The classes that are written by name between `[:` and `:]`. -/
def named : List (String × CharSet) :=
  [("alnum", ranges [('0', '9'), ('A', 'Z'), ('a', 'z')]),
    ("alpha", ranges [('A', 'Z'), ('a', 'z')]),
    ("ascii", range '\x00' '\x7f'),
    ("blank", ranges [('\t', '\t'), (' ', ' ')]),
    ("cntrl", ranges [('\x00', '\x1f'), ('\x7f', '\x7f')]),
    ("digit", asciiDigit),
    ("graph", range '!' '~'),
    ("lower", range 'a' 'z'),
    ("print", range ' ' '~'),
    ("punct", ranges [('!', '/'), (':', '@'), ('[', '\x60'), ('\x7b', '~')]),
    ("space", asciiBlank),
    ("upper", range 'A' 'Z'),
    ("word", asciiWord),
    ("xdigit", ranges [('0', '9'), ('A', 'F'), ('a', 'f')])]

def ofName? (name : List Char) : Option CharSet :=
  (named.find? fun entry => entry.1.toList == name).map (·.2)

/-- How much room the set takes in a compiled pattern, in states of one byte range. This only
approximates what an engine counts. -/
def weight : CharSet → Nat
  | none => 1
  | range first last =>
    if last.toNat < 0x80 then 1 else if first = last then first.utf8Size else 8
  | blank => 16
  | decimalDigit => 96
  | word => 800
  | union a b => a.weight + b.weight
  | inter a b => a.weight + b.weight
  | compl a => a.weight + 8
  | anyCase a => 2 * a.weight
  | anyAsciiCase a => a.weight

end CharSet

end FilterLang
