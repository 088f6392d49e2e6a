import FilterLang.Binary64.Numeral

/-! JSON values and their two layouts. The writer appends to what has been written, so its work
grows with the text and not with the nesting. -/
namespace FilterLang

inductive Json where
  | null
  | bool (value : Bool)
  | integer (value : Int)
  | number (value : Binary64)
  | string (value : String)
  | array (items : List Json)
  | object (fields : List (String × Json))

namespace Json

/-- Puts a field in its place by the order of the keys; a key that is there already gets the new
value. -/
def insertField (key : String) (value : Json) : List (String × Json) → List (String × Json)
  | [] => [(key, value)]
  | (k, v) :: fields =>
    if key < k then (key, value) :: (k, v) :: fields
    else if key = k then (key, value) :: fields
    else (k, v) :: insertField key value fields

/-- An object with its keys in increasing order. -/
def record (fields : List (String × Json)) : Json :=
  .object (fields.foldl (fun sorted field => insertField field.1 field.2 sorted) [])

/-! ### Strings -/

/-- Only quotes, backslashes and the controls below the space are escaped. -/
def escapedChar (c : Char) : List Char :=
  match c with
  | '"' => ['\\', '"']
  | '\\' => ['\\', '\\']
  | '\x08' => ['\\', 'b']
  | '\t' => ['\\', 't']
  | '\n' => ['\\', 'n']
  | '\x0c' => ['\\', 'f']
  | '\r' => ['\\', 'r']
  | c =>
    if c.toNat < 0x20 then
      ['\\', 'u', '0', '0', Nat.digitChar (c.toNat / 16), Nat.digitChar (c.toNat % 16)]
    else [c]

def writeString (done s : String) : String :=
  (s.toList.foldl (fun out c => (escapedChar c).foldl String.push out) (done.push '"')).push '"'

/-! ### Layouts -/

inductive Layout where
  | compact
  | pretty
deriving DecidableEq

namespace Layout

/-- What precedes an item or a closing bracket at the given depth. -/
def lineBreak : Layout → Nat → String
  | compact, _ => ""
  | pretty, depth => String.ofList ('\n' :: List.replicate (2 * depth) ' ')

def colon : Layout → String
  | compact => ":"
  | pretty => ": "

end Layout

mutual

/-- Writes a value behind `done`; its brackets stand at the given depth. -/
def write (layout : Layout) (depth : Nat) (done : String) : Json → String
  | null => done ++ "null"
  | bool b => done ++ if b then "true" else "false"
  | integer n => done ++ toString n
  | number x => done ++ (x.reportChars?.map String.ofList).getD "null"
  | string s => writeString done s
  | array [] => done ++ "[]"
  | array (v :: vs) =>
    writeItems layout depth
      (write layout (depth + 1) (done ++ "[" ++ layout.lineBreak (depth + 1)) v) vs
  | object [] => done ++ "\x7b\x7d"
  | object (f :: fs) =>
    writeFields layout depth (writeField layout depth (done ++ "\x7b") f) fs

/-- The items behind the first, and the closing bracket. -/
def writeItems (layout : Layout) (depth : Nat) (done : String) : List Json → String
  | [] => done ++ layout.lineBreak depth ++ "]"
  | v :: vs =>
    writeItems layout depth
      (write layout (depth + 1) (done ++ "," ++ layout.lineBreak (depth + 1)) v) vs

def writeField (layout : Layout) (depth : Nat) (done : String) : String × Json → String
  | (k, v) =>
    write layout (depth + 1)
      (writeString (done ++ layout.lineBreak (depth + 1)) k ++ layout.colon) v

/-- The fields behind the first, and the closing bracket. -/
def writeFields (layout : Layout) (depth : Nat) (done : String) : List (String × Json) → String
  | [] => done ++ layout.lineBreak depth ++ "\x7d"
  | f :: fs => writeFields layout depth (writeField layout depth (done ++ ",") f) fs

end

def render (v : Json) (layout : Layout) : String := write layout 0 "" v

end Json

end FilterLang
