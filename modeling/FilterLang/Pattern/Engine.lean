import FilterLang.Pattern.CharSet

/-! The part of a regular expression engine that is not written down here: its tables of Unicode
properties, the room it has for a pattern, and its messages. What is proved about patterns is proved
for every engine. -/
namespace FilterLang

structure Engine where
  /-- The characters with a property, by what a pattern has for it: a letter, or all that stands
  between the braces, be it the name alone or with a relation and a value. -/
  property? : List Char → Option CharSet
  /-- How much a pattern may weigh. -/
  room : Nat
  /-- The message about a text that is no pattern. -/
  refusal : String → String

/-- An engine with no properties and no messages. Its room is about 10 MiB at 32 bytes a state. -/
def Engine.plain : Engine where
  property? _ := none
  room := 327680
  refusal _ := ""

end FilterLang
