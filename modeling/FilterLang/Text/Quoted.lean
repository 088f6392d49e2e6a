import FilterLang.Text.Hidden

/-! Text in double quotes with everything that cannot be seen written as an escape sequence. -/
namespace FilterLang.Text

def quotedChar (c : Char) : List Char :=
  match c with
  | '\x00' => ['\\', '0']
  | '\t' => ['\\', 't']
  | '\n' => ['\\', 'n']
  | '\r' => ['\\', 'r']
  | '"' => ['\\', '"']
  | '\\' => ['\\', '\\']
  | c => if isHidden c then "\\u\x7b".toList ++ Nat.toDigits 16 c.toNat ++ ['\x7d'] else [c]

def quoted (cs : List Char) : String :=
  (cs.foldl (fun s c => (quotedChar c).foldl String.push s) "\"").push '"'

end FilterLang.Text
