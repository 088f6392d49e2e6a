/-! Sets of characters given by the code points at which membership changes, in increasing order:
the characters from the first entry up to the second are in, from the second up to the third out,
and so on. -/
namespace FilterLang.Text

def tableHolds (inside : Bool) : List Nat → Nat → Bool
  | [], _ => inside
  | a :: table, n => if n < a then inside else tableHolds (!inside) table n

end FilterLang.Text
