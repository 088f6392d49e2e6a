/-! IEEE 754 binary64 numbers without a machine float: NaN, or a sign and a magnitude. The
magnitudes from zero to infinity are counted off in increasing order, so a magnitude is a rank, the
next number up has the next rank, and a carry out of the significand needs no case of its own. -/
namespace FilterLang

/-- Powers are those of `Nat` itself, whatever monoids are in scope. A literal exponent needs its type
for that. -/
local instance natPow : Pow Nat Nat := instPowNat

/-- The rank of infinity. Rank 0 is zero, rank 1 the least subnormal number 2 ^ (-1074). -/
abbrev Magnitude.top : Nat := 2047 * 2 ^ (52 : Nat)

abbrev Magnitude := Fin (Magnitude.top + 1)

inductive Binary64 where
  | nan
  | signed (negative : Bool) (magnitude : Magnitude)
deriving DecidableEq

/-- The number `coefficient * 10 ^ exponent`. -/
structure Decimal where
  coefficient : Nat
  exponent : Int
deriving DecidableEq

/-! ### The value of a magnitude -/

namespace Magnitude

/-- A finite magnitude is `significand * 2 ^ scale`, counted in units of 2 ^ (-1074). -/
def significand (m : Magnitude) : Nat :=
  if m.val < 2 ^ (52 : Nat) then m.val else 2 ^ (52 : Nat) + m.val % 2 ^ (52 : Nat)

def scale (m : Magnitude) : Nat := m.val / 2 ^ (52 : Nat) - 1

def isFinite (m : Magnitude) : Bool := m.val < top

/-- A finite magnitude written out to its last digit. -/
def exact (m : Magnitude) : Decimal :=
  if m.scale < 1074 then
    ⟨m.significand * 5 ^ (1074 - m.scale), -((1074 - m.scale : Nat) : Int)⟩
  else
    ⟨m.significand * 2 ^ (m.scale - 1074), 0⟩

end Magnitude

/-! ### Rounding to the nearest magnitude -/

/-- The natural number nearest to `num / den`; a half goes to the even neighbour. -/
def roundHalfEven (num den : Nat) : Nat :=
  let q := num / den
  let r := num % den
  if 2 * r < den then q else if den < 2 * r then q + 1 else q + q % 2

namespace Magnitude

/-- The magnitude nearest to `num / den`, in units of 2 ^ (-1074). The quotient is cut to the 53
bits of a significand unless it has fewer; what lies beyond the largest number is infinite. -/
def nearestUnits (num den : Nat) : Magnitude :=
  let cut := (num / den).log2 - 52
  ⟨min (cut * 2 ^ (52 : Nat) + roundHalfEven num (den * 2 ^ cut)) top,
    Nat.lt_succ_of_le (Nat.min_le_right _ _)⟩

def nearestRatio (num den : Nat) : Magnitude := nearestUnits (num * 2 ^ (1074 : Nat)) den

/-- The magnitude nearest to a decimal. Exponents far out of range are settled without computing
the power of ten: `10 ^ 310` is beyond every number, `10 ^ (-330)` rounds to zero. -/
def nearest (d : Decimal) : Magnitude :=
  if d.coefficient = 0 then ⟨0, by decide⟩
  else if 310 < d.exponent then ⟨top, by decide⟩
  else if d.exponent + (d.coefficient.log2 + 1 : Nat) < -330 then ⟨0, by decide⟩
  else match d.exponent with
    | .ofNat e => nearestRatio (d.coefficient * 10 ^ e) 1
    | .negSucc e => nearestRatio d.coefficient (10 ^ (e + 1))

end Magnitude

namespace Binary64

def isFinite : Binary64 → Bool
  | nan => false
  | signed _ m => m.isFinite

/-- Numeric equality: NaN differs from itself and the two zeros are equal. -/
def equals : Binary64 → Binary64 → Bool
  | signed s m, signed t n => m.val == n.val && (s == t || m.val == 0)
  | _, _ => false

end Binary64

end FilterLang
