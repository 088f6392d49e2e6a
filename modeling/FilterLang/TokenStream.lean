import FilterLang.Token
import FilterLang.VariablePattern

/-! Token streams: a text from which tokens are pulled one at a time. At each place the kinds are
tried in order of priority and the first that fits is taken. Blanks are passed over; where no kind
fits the stream stays, so the same error comes again. -/
namespace FilterLang

/-- No kind of token fits the text from `position` on; `excerpt` is how that text begins. -/
structure Unrecognized where
  position : Nat
  excerpt : String
deriving DecidableEq

namespace Unrecognized

def excerptLength : Nat := 20

def before (position : Nat) (rest : List Char) : Unrecognized :=
  ⟨position, String.ofList (rest.take excerptLength)⟩

def message (e : Unrecognized) : String :=
  "unrecognized input at position " ++ toString e.position ++ ": '" ++ e.excerpt ++ "'"

end Unrecognized

/-! ### Lengths of lexemes -/

namespace Lexeme

def symbol (s : String) (cs : List Char) : Option Nat :=
  if s.toList.isPrefixOf cs then some s.length else none

def isIdentifier (c : Char) : Bool := c.isAlphanum || c == '_'

/-- A word that does not go on as an identifier. -/
def word (s : String) (cs : List Char) : Option Nat :=
  if s.toList.isPrefixOf cs && !(cs.drop s.length).head?.any isIdentifier then some s.length
  else none

def blanks (cs : List Char) : Option Nat :=
  let n := (cs.takeWhile Text.isBlank).length
  if n = 0 then none else some n

/-- Digits, and a point with more digits if there are some behind it. -/
def number (cs : List Char) : Option Nat :=
  let whole := (cs.takeWhile Char.isDigit).length
  if whole = 0 then none
  else match cs.dropWhile Char.isDigit with
    | '.' :: rest =>
      let fraction := (rest.takeWhile Char.isDigit).length
      some (if fraction = 0 then whole else whole + 1 + fraction)
    | _ => some whole

/-- A quote and all up to the next one. -/
def quoted : List Char → Option Nat
  | '"' :: rest =>
    if rest.contains '"' then some ((rest.takeWhile (· != '"')).length + 2) else none
  | _ => none

end Lexeme

/-- How many characters at the front of a text form a lexeme of the kind. -/
def Kind.reach (p : VariablePattern) : Kind → List Char → Option Nat
  | .blank, cs => Lexeme.blanks cs
  | .operator .and, cs => Lexeme.word "and" cs <|> Lexeme.word "AND" cs
  | .operator op, cs => Lexeme.symbol op.symbol cs
  | .literal .boolean, cs => Lexeme.word "true" cs <|> Lexeme.word "false" cs
  | .literal .var, cs => p.reach cs
  | .literal .number, cs => Lexeme.number cs
  | .literal .string, cs => Lexeme.quoted cs
  | .leftParen, cs => Lexeme.symbol "(" cs
  | .rightParen, cs => Lexeme.symbol ")" cs

/-- The first kind that fits the front of a text, and the length of its lexeme. -/
def classify (p : VariablePattern) (cs : List Char) : Option (Kind × Nat) :=
  Kind.byPriority.findSome? fun k => (k.reach p cs).map (k, ·)

/-- The token of a lexeme. -/
def Token.ofLexeme (kind : Kind) (lexeme : List Char) (offset : Nat) : Token :=
  match kind with
  | .literal .string => ⟨kind, String.ofList lexeme.tail.dropLast, offset⟩
  | _ => ⟨kind, String.ofList lexeme, offset⟩

/-! ### Streams -/

/-- `position` counts bytes from the start of the text to `rest`. -/
structure TokenStream where
  pattern : VariablePattern
  rest : List Char
  position : Nat

namespace TokenStream

def ofText (pattern : VariablePattern) (text : List Char) : TokenStream := ⟨pattern, text, 0⟩

def advance (s : TokenStream) (n : Nat) : TokenStream :=
  { s with rest := s.rest.drop n, position := s.position + Text.utf8Length (s.rest.take n) }

def skipBlanks (s : TokenStream) : TokenStream := s.advance (s.rest.takeWhile Text.isBlank).length

/-- The token at the very front, and the stream behind it. -/
def front (s : TokenStream) : Except Unrecognized (Option Token) × TokenStream :=
  if s.rest.isEmpty then (.ok none, s)
  else match classify s.pattern s.rest with
    | some (kind, n) => (.ok (some (.ofLexeme kind (s.rest.take n) s.position)), s.advance n)
    | none => (.error (.before s.position s.rest), s)

/-- Pulls the next token, if the text has one. -/
def next (s : TokenStream) : Except Unrecognized (Option Token) × TokenStream :=
  s.skipBlanks.front

/-- Pulls at most `n` tokens and appends them to `found`, which has the last token first. -/
def pull (found : List Token) : Nat → TokenStream → Except Unrecognized (List Token)
  | 0, _ => .ok found.reverse
  | n + 1, s =>
    match s.next with
    | (.ok (some t), s) => pull (t :: found) n s
    | (.ok none, _) => .ok found.reverse
    | (.error e, _) => .error e

/-- All tokens that are left. A token takes at least one character, so there are no more of them
than characters, and one more pull comes to the end. -/
def tokens (s : TokenStream) : Except Unrecognized (List Token) := pull [] (s.rest.length + 1) s

end TokenStream

/-- The tokens of a text, with nothing trimmed off. -/
def tokenize (pattern : VariablePattern) (text : List Char) : Except Unrecognized (List Token) :=
  (TokenStream.ofText pattern text).tokens

end FilterLang
