import FilterLang.Binary64.Shortest

/-! Numerals: reading a number from text, and the two ways of writing one. Display never uses an
exponent and writes an integer without a point; reports write a point always, an exponent where
the first digit stands far from it, and have no text for numbers that are not finite. -/
namespace FilterLang

/-! ### Reading -/

/-- The exponent part of a numeral: nothing, or a mark, an optional sign and digits. -/
def Decimal.exponent? : List Char → Option Int
  | [] => some 0
  | e :: cs =>
    let (negative, ds) := match cs with
      | '-' :: ds => (true, ds)
      | '+' :: ds => (false, ds)
      | ds => (false, ds)
    if (e == 'e' || e == 'E') && !ds.isEmpty && ds.all Char.isDigit then
      let n : Int := Nat.ofDigitChars 10 ds 0
      some (if negative then -n else n)
    else none

/-- Digits with at most one point among, before or after them, then an exponent part. -/
def Decimal.ofChars? (cs : List Char) : Option Decimal :=
  let whole := cs.takeWhile Char.isDigit
  let rest := cs.dropWhile Char.isDigit
  let (fraction, tail) := match rest with
    | '.' :: rest => (rest.takeWhile Char.isDigit, rest.dropWhile Char.isDigit)
    | _ => ([], rest)
  if whole.isEmpty && fraction.isEmpty then none
  else (exponent? tail).map fun e =>
    ⟨Nat.ofDigitChars 10 (whole ++ fraction) 0, e - fraction.length⟩

namespace Binary64

def unsigned? (negative : Bool) (cs : List Char) : Option Binary64 :=
  let word := cs.map Char.toLower
  if word = "nan".toList then some nan
  else if word = "inf".toList ∨ word = "infinity".toList then
    some (signed negative (Fin.last _))
  else (Decimal.ofChars? cs).map fun d => signed negative (Magnitude.nearest d)

/-- The number that a text stands for: an optional sign, then a decimal numeral or, in letters of
either case, `inf`, `infinity` or `nan`. -/
def ofChars? : List Char → Option Binary64
  | '-' :: cs => unsigned? true cs
  | '+' :: cs => unsigned? false cs
  | cs => unsigned? false cs

def ofString? (s : String) : Option Binary64 := ofChars? s.toList

end Binary64

/-! ### Writing -/

namespace Decimal

def zeros (n : Nat) : List Char := List.replicate n '0'

/-- The decimal without an exponent; `mark` follows an integer. -/
def positional (mark : List Char) (d : Decimal) : List Char :=
  match d.exponent with
  | .ofNat e => d.digits ++ zeros e ++ mark
  | .negSucc e =>
    let size := d.digits.length
    if e + 1 < size then d.digits.take (size - (e + 1)) ++ '.' :: d.digits.drop (size - (e + 1))
    else '0' :: '.' :: zeros (e + 1 - size) ++ d.digits

/-- The power of ten of the first digit. -/
def order (d : Decimal) : Int := d.exponent + d.digits.length - 1

/-- One digit, the others after a point, and the power of ten with its sign. -/
def scientific (d : Decimal) : List Char :=
  let mantissa := match d.digits with
    | first :: second :: rest => first :: '.' :: second :: rest
    | ds => ds
  let power := match d.order with
    | .ofNat n => '+' :: Nat.toDigits 10 n
    | .negSucc n => '-' :: Nat.toDigits 10 (n + 1)
  mantissa ++ 'e' :: power

end Decimal

/-- How numbers are written: where a tie between two shortest decimals goes, which powers of ten of
the first digit are written out, and what follows an integer. -/
structure NumberStyle where
  tie : Tie
  writtenOut : Int → Bool
  integerMark : List Char

namespace NumberStyle

def display : NumberStyle := ⟨.up, fun _ => true, []⟩

def report : NumberStyle := ⟨.even, fun n => decide (-5 ≤ n ∧ n ≤ 15), ['.', '0']⟩

def magnitude (style : NumberStyle) (m : Magnitude) : List Char :=
  let d := m.shortest style.tie
  if style.writtenOut d.order then d.positional style.integerMark else d.scientific

end NumberStyle

namespace Binary64

def sign (negative : Bool) : List Char := if negative then ['-'] else []

def displayChars : Binary64 → List Char
  | nan => "NaN".toList
  | signed s m =>
    sign s ++ if m.isFinite then NumberStyle.display.magnitude m else "inf".toList

def display (x : Binary64) : String := String.ofList x.displayChars

def reportChars? : Binary64 → Option (List Char)
  | nan => none
  | signed s m => if m.isFinite then some (sign s ++ NumberStyle.report.magnitude m) else none

end Binary64

end FilterLang
