import FilterLang.Parser
import FilterLang.Text.Quoted

/-! From text to verdict. Settings join a variable pattern with the parser's limits; an examination
trims the text, cuts it into tokens, parses them, and keeps a journal of what it did. Every failure
is part of the verdict. -/
namespace FilterLang

abbrev Verdict := Except Rejection Expr

inductive JournalLevel where
  | debug | trace
deriving DecidableEq

def JournalLevel.name : JournalLevel → String
  | debug => "DEBUG"
  | trace => "TRACE"

/-- What an examination did: it cut a text into so many tokens, or it rejected a text. -/
inductive JournalEntry where
  | tokenized (count : Nat) (text : List Char)
  | rejected (text : List Char) (r : Rejection)
deriving DecidableEq

namespace JournalEntry

/-- The part of the program that all entries come from. -/
def origin : String := "cond_expr::validate"

def level : JournalEntry → JournalLevel
  | tokenized _ _ => .trace
  | rejected _ _ => .debug

def message : JournalEntry → String
  | tokenized count text => "tokenized " ++ toString count ++ " tokens from " ++ Text.quoted text
  | rejected text r => "rejected expression " ++ Text.quoted text ++ ": " ++ r.message

end JournalEntry

structure Settings where
  pattern : VariablePattern := .default
  limits : Limits := {}

namespace Settings

/-- The tokens of the trimmed text. -/
def tokenize (s : Settings) (text : String) : Except Unrecognized (List Token) :=
  FilterLang.tokenize s.pattern (Text.trim text.toList)

/-- The verdict on a text, and the journal. The text is quoted trimmed with its tokens and as it
came with its rejection. -/
def examine (s : Settings) (text : String) : Verdict × List JournalEntry :=
  let rejected (r : Rejection) := JournalEntry.rejected text.toList r
  match s.tokenize text with
  | .error e => (.error (.unrecognized e), [rejected (.unrecognized e)])
  | .ok ts =>
    let entry := .tokenized ts.length (Text.trim text.toList)
    match parseTokens ts s.limits with
    | .ok e => (.ok e, [entry])
    | .error r => (.error r, [entry, rejected r])

def parse (s : Settings) (text : String) : Verdict := (s.examine text).1

end Settings

/-- The verdict on a list of tokens under the default limits. -/
def judge (ts : List Token) : Verdict := parseTokens ts {}

/-- The verdict on a text under the default limits. -/
def validate (pattern : VariablePattern) (text : String) : Verdict :=
  Settings.parse { pattern } text

/-- A pattern bound once and for all. -/
def validator (pattern : VariablePattern) : String → Verdict := fun text => validate pattern text

end FilterLang
