import FilterLang.Pattern.CharSet

/-! Regular expressions with ordered choice, and their search. A search carries the expressions that
still have to match, in order of preference, through the text one character at a time; among equal
continuations only the preferred one is kept. So a search never goes back in the text. -/
namespace FilterLang

/-- The characters on both sides of a place in the text, as far as there are any. -/
structure Spot where
  before : Option Char
  after : Option Char

inductive WordEdge where
  | boundary | interior | start | finish | startHalf | finishHalf
deriving DecidableEq

/-- Conditions on a place in the text. -/
inductive Place where
  | textStart
  | textEnd
  | lineStart (crlf : Bool)
  | lineEnd (crlf : Bool)
  | word (edge : WordEdge) (ascii : Bool)
deriving DecidableEq

def WordEdge.holds : WordEdge → Bool → Bool → Bool
  | boundary, before, after => before != after
  | interior, before, after => before == after
  | start, before, after => !before && after
  | finish, before, after => before && !after
  | startHalf, before, _ => !before
  | finishHalf, _, after => !after

def Place.holds : Place → Spot → Bool
  | textStart, s => s.before.isNone
  | textEnd, s => s.after.isNone
  | lineStart false, s => s.before.all (· == '\n')
  | lineEnd false, s => s.after.all (· == '\n')
  | lineStart true, s =>
    s.before.all fun c => c == '\n' || (c == '\r' && s.after != some '\n')
  | lineEnd true, s =>
    s.after.all fun c => c == '\r' || (c == '\n' && s.before != some '\r')
  | word edge ascii, s =>
    let inWord := (if ascii then CharSet.asciiWord else CharSet.word).contains
    edge.holds (s.before.any inWord) (s.after.any inWord)

/-- `plus` is one or more rounds. `more` is any number of further rounds of a loop, none of which
may be empty; it is also zero or more rounds of what is never empty. A greedy loop prefers another
round to its end. -/
inductive Regex where
  | empty
  | char (set : CharSet)
  | here (place : Place)
  | seq (a b : Regex)
  | alt (a b : Regex)
  | plus (greedy : Bool) (r : Regex)
  | more (greedy : Bool) (r : Regex)
deriving DecidableEq

namespace Regex

/-- Whether a match may be empty, conditions on the place apart. -/
def nullable : Regex → Bool
  | empty => true
  | char _ => false
  | here _ => true
  | seq a b => a.nullable && b.nullable
  | alt a b => a.nullable || b.nullable
  | plus _ r => r.nullable
  | more _ _ => true

/-- Whether every match begins at the start of the text. -/
def anchored : Regex → Bool
  | here .textStart => true
  | seq a _ => a.anchored
  | alt a b => a.anchored && b.anchored
  | plus _ r => r.anchored
  | _ => false

def optional (greedy : Bool) (r : Regex) : Regex := if greedy then alt r empty else alt empty r

def star (greedy : Bool) (r : Regex) : Regex :=
  if r.nullable then optional greedy (plus greedy r) else more greedy r

/-- `n` copies of `r` before `rest`. -/
def times (r rest : Regex) : Nat → Regex
  | 0 => rest
  | n + 1 => seq r (times r rest n)

/-- At most `n` copies of `r`. -/
def atMost (greedy : Bool) (r : Regex) : Nat → Regex
  | 0 => empty
  | n + 1 => optional greedy (seq r (atMost greedy r n))

def atLeast (greedy : Bool) (r : Regex) : Nat → Regex
  | 0 => star greedy r
  | n + 1 => times r (plus greedy r) n

/-! ### Search -/

/-- What may be done next: stop with a match, or read a character of a set and go on. -/
inductive Move where
  | accept
  | read (set : CharSet) (next : List Regex)
deriving DecidableEq

/-- The moves of both lists in order, without those of the second that the first has. -/
def merge (xs ys : List Move) : List Move := xs ++ ys.filter fun y => !xs.contains y

/-- The moves of `r` followed by `next`, where `after` are the moves of `next` alone. An empty round
ends a loop in its first round and leads nowhere in a later one. -/
def moves (s : Spot) : Regex → List Regex → Thunk (List Move) → List Move
  | empty, _, after => after.get
  | char set, next, _ => [.read set next]
  | here p, _, after => if p.holds s then after.get else []
  | seq a b, next, after => a.moves s (b :: next) ⟨fun _ => b.moves s next after⟩
  | alt a b, next, after => merge (a.moves s next after) (b.moves s next after)
  | plus greedy r, next, after => r.moves s (more greedy r :: next) after
  | more greedy r, next, after =>
    let round := r.moves s (more greedy r :: next) ⟨fun _ => []⟩
    if greedy then merge round after.get else merge after.get round

def threadMoves (s : Spot) : List Regex → List Move
  | [] => [.accept]
  | r :: next => r.moves s next ⟨fun _ => threadMoves s next⟩

def allMoves (s : Spot) (threads : List (List Regex)) : List Move :=
  threads.foldl (fun seen thread => merge seen (threadMoves s thread)) []

/-- What is left of the moves after reading `c`. Moves behind an acceptance are less preferred than
stopping there. -/
def follow (c : Char) : List Move → List (List Regex)
  | [] => []
  | .accept :: _ => []
  | .read set next :: rest => if set.contains c then next :: follow c rest else follow c rest

/-- Carries threads through the text: `before` is the character just read, `count` how many have
been read, `best` the end of the match preferred so far. While there is none and `restart` is set,
a match may also begin at the present place. -/
def run (r : Regex) (restart : Bool) (before : Option Char) (threads : List (List Regex))
    (best : Option Nat) (count : Nat) : List Char → Option Nat
  | [] =>
    if (allMoves ⟨before, none⟩ threads).contains .accept then some count else best
  | c :: cs =>
    let found := allMoves ⟨before, some c⟩ threads
    let best := if found.contains .accept then some count else best
    let left := follow c found
    let left := if restart && best.isNone then left ++ [[r]] else left
    if left.isEmpty then best else run r restart (some c) left best (count + 1) cs

/-- The end of the leftmost match, counted in characters from the start of the text. -/
def search (r : Regex) (cs : List Char) : Option Nat := run r (!r.anchored) none [[r]] none 0 cs

end Regex

end FilterLang
