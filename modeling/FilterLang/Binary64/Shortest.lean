import FilterLang.Binary64

/-! The shortest decimal that reads back as a given magnitude. On each decimal grid only the two
neighbours of the value can be the nearest point that reads back, so both are tried on the grids of
one digit, two digits and so on; seventeen digits are enough for every binary64 number. -/
namespace FilterLang

attribute [local instance] natPow

/-- Where an exact halfway case goes. -/
inductive Tie where
  | up | even
deriving DecidableEq

namespace Decimal

def digits (d : Decimal) : List Char := Nat.toDigits 10 d.coefficient

/-- Moves at most `n` zeros from the end of the coefficient into the exponent. -/
def stripZeros : Nat → Decimal → Decimal
  | 0, d => d
  | n + 1, d =>
    if d.coefficient % 10 = 0 ∧ d.coefficient ≠ 0 then
      stripZeros n ⟨d.coefficient / 10, d.exponent + 1⟩
    else d

/-- The last `n` digits dropped. -/
def below (d : Decimal) (n : Nat) : Decimal := ⟨d.coefficient / 10 ^ n, d.exponent + n⟩

/-- The next point up on the grid of `d.below n`. -/
def above (d : Decimal) (n : Nat) : Decimal := ⟨d.coefficient / 10 ^ n + 1, d.exponent + n⟩

/-- Which neighbour is nearer to `d` on the grid with `n` digits dropped. -/
def nearer (tie : Tie) (d : Decimal) (n : Nat) : Decimal :=
  let rest := d.coefficient % 10 ^ n
  if 2 * rest < 10 ^ n then d.below n
  else if 10 ^ n < 2 * rest then d.above n
  else match tie with
    | .up => d.above n
    | .even => if d.coefficient / 10 ^ n % 2 = 0 then d.below n else d.above n

end Decimal

namespace Magnitude

/-- The point on the grid with `n` digits dropped that reads back as `m` and is nearest to it. -/
def onGrid? (tie : Tie) (m : Magnitude) (d : Decimal) (n : Nat) : Option Decimal :=
  match nearest (d.below n) == m, nearest (d.above n) == m with
  | true, true => some (d.nearer tie n)
  | true, false => some (d.below n)
  | false, true => some (d.above n)
  | false, false => none

def shortest (tie : Tie) (m : Magnitude) : Decimal :=
  if m.val = 0 then ⟨0, 0⟩
  else
    let d := m.exact
    let size := d.digits.length
    let found := (List.range 17).findSome? fun n => onGrid? tie m d (size - (n + 1))
    (found.getD d).stripZeros size

end Magnitude

end FilterLang
