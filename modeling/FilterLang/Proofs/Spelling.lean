import FilterLang.Grammar
import FilterLang.Proofs.DefaultName
import FilterLang.Proofs.NumeralText
import FilterLang.Proofs.Pulling
import Mathlib.Data.List.Infix

/-! How written literals and operators are recognised under the default pattern. A text in front of
which stands a literal, then a blank, a closing parenthesis or nothing, begins with the token of the
literal, unless the literal is a number that is negative or not finite: then no kind fits. -/
namespace FilterLang

open VariablePattern (names)

variable {p : VariablePattern} {c : Char} {cs rest : List Char} {k : Kind} {n : Nat}

/-! ### Blanks at the ends -/

/-- The text neither begins nor ends with a blank, and is not empty. -/
structure Text.Tight (cs : List Char) : Prop where
  first : ∃ c ∈ cs.head?, Text.isBlank c = false
  last : ∃ c ∈ cs.getLast?, Text.isBlank c = false

namespace Text.Tight

theorem of_forall (hne : cs ≠ []) (h : ∀ c ∈ cs, Text.isBlank c = false) : Text.Tight cs := by
  refine ⟨⟨cs.head hne, List.head?_eq_some_head hne, h _ (List.head_mem hne)⟩,
    ⟨cs.getLast hne, List.getLast?_eq_some_getLast hne, h _ (List.getLast_mem hne)⟩⟩

theorem of_all (hne : cs ≠ []) (h : cs.all fun c => !Text.isBlank c) : Text.Tight cs :=
  of_forall hne fun c hc => by simpa using List.all_eq_true.mp h c hc

/-- Between two characters that are not blank anything may stand. -/
theorem enclose {first last : Char} (hf : Text.isBlank first = false)
    (hl : Text.isBlank last = false) : Text.Tight (first :: (cs ++ [last])) :=
  ⟨⟨first, rfl, hf⟩, ⟨last, by simp [List.getLast?_cons], hl⟩⟩

theorem ne_nil (h : Text.Tight cs) : cs ≠ [] := by
  obtain ⟨c, hc, -⟩ := h.first
  rintro rfl
  contradiction

theorem dropWhile_append (h : Text.Tight cs) : (cs ++ rest).dropWhile Text.isBlank = cs ++ rest := by
  obtain ⟨c, hc, hblank⟩ := h.first
  obtain ⟨ds, rfl⟩ := List.head?_eq_some_iff.mp hc
  exact Text.dropWhile_eq_self (by simp [hblank])

theorem dropWhile_space_append (h : Text.Tight cs) :
    (' ' :: (cs ++ rest)).dropWhile Text.isBlank = cs ++ rest := by
  rw [List.dropWhile_cons_of_pos rfl, h.dropWhile_append]

theorem reverse (h : Text.Tight cs) : Text.Tight cs.reverse := by
  refine ⟨?_, ?_⟩
  · rw [List.head?_reverse]
    exact h.last
  · rw [List.getLast?_reverse]
    exact h.first

theorem trim_eq (h : Text.Tight cs) : Text.trim cs = cs := by
  have hfirst : cs.dropWhile Text.isBlank = cs := by simpa using @dropWhile_append _ [] h
  have hlast : cs.reverse.dropWhile Text.isBlank = cs.reverse := by
    simpa using @dropWhile_append _ [] h.reverse
  rw [Text.trim, Text.trimStart, hfirst, Text.trimEnd, hlast, List.reverse_reverse]

end Text.Tight

/-! ### First characters -/

def Lexeme.opens (s : String) (c : Char) : Bool := s.toList.head? == some c

/-- Whether a lexeme of the kind can begin with the character. -/
def Kind.opensWith : Kind → Char → Bool
  | .blank, c => Text.isBlank c
  | .operator .and, c => Lexeme.opens "and" c || Lexeme.opens "AND" c
  | .operator op, c => Lexeme.opens op.symbol c
  | .literal .boolean, c => Lexeme.opens "true" c || Lexeme.opens "false" c
  | .literal .var, c => names.any (·.head? == some c)
  | .literal .number, c => c.isDigit
  | .literal .string, c => c == '"'
  | .leftParen, c => Lexeme.opens "(" c
  | .rightParen, c => Lexeme.opens ")" c

theorem Lexeme.not_isPrefixOf {s : String} (hs : s.toList ≠ []) (h : opens s c = false) :
    s.toList.isPrefixOf (c :: cs) = false := by
  obtain ⟨d, ds, hd⟩ := List.exists_cons_of_ne_nil hs
  have hdc : d ≠ c := by simpa [opens, hd] using h
  rw [hd, List.isPrefixOf_cons_cons]
  simp [hdc]

theorem Lexeme.symbol_eq_none {s : String} (hs : s.toList ≠ []) (h : opens s c = false) :
    symbol s (c :: cs) = none := by
  rw [symbol, not_isPrefixOf hs h]
  rfl

theorem Lexeme.word_eq_none {s : String} (hs : s.toList ≠ []) (h : opens s c = false) :
    word s (c :: cs) = none := by
  rw [word, not_isPrefixOf hs h]
  rfl

/-- Of two words neither fits. -/
theorem Lexeme.words_eq_none {s s' : String} (hs : s.toList ≠ []) (hs' : s'.toList ≠ [])
    (h : (opens s c || opens s' c) = false) :
    (word s (c :: cs) <|> word s' (c :: cs)) = none := by
  rw [Bool.or_eq_false_iff] at h
  simp [word_eq_none hs h.1, word_eq_none hs' h.2]

/-- A kind does not fit where its first character is missing. -/
theorem Kind.reach_eq_none (h : k.opensWith c = false) : k.reach .default (c :: cs) = none := by
  cases k with
  | blank => simpa [Kind.reach, Lexeme.blanks, Kind.opensWith] using h
  | operator op =>
    cases op with
    | and => exact Lexeme.words_eq_none (by simp) (by simp) h
    | _ => exact Lexeme.symbol_eq_none (by decide) h
  | literal kind =>
    cases kind with
    | number =>
      have hdigit : c.isDigit = false := h
      simp [Kind.reach, Lexeme.number, hdigit]
    | string =>
      have hquote : c ≠ '"' := by simpa [Kind.opensWith] using h
      simp only [Kind.reach]
      unfold Lexeme.quoted
      split
      next heq => exact absurd (List.cons.inj heq).1 hquote
      next => rfl
    | boolean => exact Lexeme.words_eq_none (by simp) (by simp) h
    | var =>
      refine Option.eq_none_iff_forall_ne_some.mpr fun n hn => ?_
      obtain ⟨w, hw, hp, -⟩ := VariablePattern.default_reach_iff.mp hn
      obtain ⟨d, ds, rfl⟩ := List.exists_cons_of_ne_nil (VariablePattern.names_ne_nil w hw)
      obtain ⟨rfl, -⟩ := List.cons_prefix_cons.mp hp
      simp only [Kind.opensWith, List.any_eq_false] at h
      exact h _ hw (by simp)
  | leftParen => exact Lexeme.symbol_eq_none (by decide) h
  | rightParen => exact Lexeme.symbol_eq_none (by decide) h

/-- Whether one of the first `i` kinds by priority can begin with the character. -/
def opensBefore (i : Nat) (c : Char) : Bool := (Kind.byPriority.take i).any (·.opensWith c)

theorem Kind.reach_of_opensBefore {i : Nat} (hk : k ∈ byPriority.take i)
    (h : opensBefore i c = false) : k.reach .default (c :: cs) = none := by
  have hc := List.any_eq_false.mp h k hk
  exact reach_eq_none (by simpa using hc)

/-- The kind with priority `i` is found where it fits and no kind before it can begin. -/
theorem classify_of_opensBefore (i : Nat) (hk : Kind.byPriority[i]? = some k)
    (hearlier : opensBefore i c = false) (h : k.reach .default (c :: cs) = some n) :
    classify .default (c :: cs) = some (k, n) :=
  classify_of_earlier i hk (fun _ hk' => Kind.reach_of_opensBefore hk' hearlier) h

/-! ### Operators and parentheses -/

theorem classify_operator (op : Operator) :
    classify p (op.symbol.toList ++ ' ' :: cs) = some (.operator op, op.symbol.length) := by
  cases op <;> rfl

theorem Operator.tight_symbol (op : Operator) : Text.Tight op.symbol.toList := by
  cases op
  all_goals exact .of_all (by decide) (by decide)

theorem classify_leftParen : classify .default ('(' :: cs) = some (.leftParen, 1) :=
  classify_of_opensBefore 12 rfl (by decide) rfl

theorem classify_rightParen : classify .default (')' :: cs) = some (.rightParen, 1) :=
  classify_of_opensBefore 13 rfl (by decide) rfl

/-! ### Literals -/

/-- What may follow a literal: a blank, a closing parenthesis or nothing. -/
def Closed (rest : List Char) : Prop := ∀ c ∈ rest.head?, c = ' ' ∨ c = ')'

theorem Closed.not_isDigit (h : Closed rest) : ∀ c ∈ rest.head?, c.isDigit = false := by
  intro c hc
  rcases h c hc with rfl | rfl
  · rfl
  · rfl

theorem Closed.takeWhile_isDigit (h : Closed rest) : rest.takeWhile Char.isDigit = [] := by
  cases rest with
  | nil => rfl
  | cons c rest => simp [h.not_isDigit c rfl]

theorem Closed.dropWhile_isDigit (h : Closed rest) : rest.dropWhile Char.isDigit = rest := by
  cases rest with
  | nil => rfl
  | cons c rest => simp [h.not_isDigit c rfl]

theorem classify_boolean (b : Bool) (h : Closed rest) :
    classify p ((Literal.boolean b).display.toList ++ rest) =
      some (.literal .boolean, (Literal.boolean b).display.toList.length) := by
  cases rest with
  | nil => cases b <;> rfl
  | cons c rest =>
    rcases h c rfl with rfl | rfl
    all_goals cases b <;> rfl

theorem classify_name {w : List Char} (h : w ∈ names) :
    classify .default (w ++ rest) = some (.literal .var, w.length) := by
  have hfirst : ∀ w ∈ names, w.head?.any (opensBefore 9) = false := by decide
  obtain ⟨c, cs, rfl⟩ := List.exists_cons_of_ne_nil (VariablePattern.names_ne_nil w h)
  refine classify_of_opensBefore 9 rfl (hfirst _ h) ?_
  exact VariablePattern.default_reach_iff.mpr ⟨_, h, List.prefix_append _ _, rfl⟩

theorem mem_digits_of_isDigit (h : c.isDigit) : c ∈ "0123456789".toList := by
  simp only [Char.isDigit, Bool.and_eq_true, decide_eq_true_eq, UInt32.le_iff_toNat_le] at h
  have hlow : 48 ≤ c.toNat := h.1
  have hhigh : c.toNat ≤ 57 := h.2
  have hall : ∀ n < 58, 48 ≤ n → Char.ofNat n ∈ "0123456789".toList := by decide
  rw [← Char.ofNat_toNat c]
  exact hall c.toNat (by omega) hlow

theorem not_isBlank_of_isDigit (h : c.isDigit) : Text.isBlank c = false := by
  have hall : "0123456789".toList.all fun c => !Text.isBlank c := by decide
  simpa using List.all_eq_true.mp hall c (mem_digits_of_isDigit h)

theorem PlainNumeral.not_isBlank {w f : List Char} (h : PlainNumeral cs w f) :
    ∀ c ∈ cs, Text.isBlank c = false := by
  intro c hc
  rcases h.mem c hc with hc | rfl
  · exact not_isBlank_of_isDigit hc
  · rfl

theorem PlainNumeral.tight {w f : List Char} (h : PlainNumeral cs w f) : Text.Tight cs := by
  obtain ⟨c, ds, hcs, -⟩ := h.head_isDigit
  exact .of_forall (by rw [hcs]; exact List.cons_ne_nil c ds) h.not_isBlank

theorem PlainNumeral.number_append {w f : List Char} (h : PlainNumeral cs w f) (hr : Closed rest) :
    Lexeme.number (cs ++ rest) = some cs.length := by
  cases h with
  | integer hne hw =>
    have htake : (cs ++ rest).takeWhile Char.isDigit = cs := by
      rw [List.takeWhile_append_of_pos hw, hr.takeWhile_isDigit, List.append_nil]
    have hdrop : (cs ++ rest).dropWhile Char.isDigit = rest := by
      rw [List.dropWhile_append_of_pos hw, hr.dropWhile_isDigit]
    simp only [Lexeme.number, htake, hdrop, List.length_eq_zero_iff, if_neg hne]
    split
    next => exact absurd (hr '.' rfl) (by decide)
    next => rfl
  | point hne hw hfne hf =>
    have htake := takeWhile_isDigit_point hw (f ++ rest)
    have hdrop := dropWhile_isDigit_point hw (f ++ rest)
    have hftake : (f ++ rest).takeWhile Char.isDigit = f := by
      rw [List.takeWhile_append_of_pos hf, hr.takeWhile_isDigit, List.append_nil]
    rw [List.append_assoc, List.cons_append]
    simp only [Lexeme.number, htake, hdrop, hftake, List.length_eq_zero_iff, if_neg hne, if_neg hfne,
      List.length_append, List.length_cons, Option.some.injEq]
    omega

/-- Where a digit is, no kind before numbers can begin. -/
theorem classify_number (hc : c.isDigit) (h : Lexeme.number (c :: cs) = some n) :
    classify .default (c :: cs) = some (.literal .number, n) := by
  have hfirst : "0123456789".toList.any (opensBefore 10) = false := by decide
  exact classify_of_opensBefore 10 rfl
    (by simpa using List.any_eq_false.mp hfirst c (mem_digits_of_isDigit hc)) h

theorem classify_numeral {w f : List Char} (h : PlainNumeral cs w f) (hr : Closed rest) :
    classify .default (cs ++ rest) = some (.literal .number, cs.length) := by
  have hreach := h.number_append hr
  obtain ⟨c, cs, rfl, hc⟩ := h.head_isDigit
  exact classify_number hc hreach

theorem classify_quoted {s : List Char} (h : '"' ∉ s) :
    classify .default ('"' :: (s ++ '"' :: rest)) = some (.literal .string, s.length + 2) := by
  refine classify_of_opensBefore 11 rfl (by decide) ?_
  exact Lexeme.quoted_eq_some.mpr ⟨s, rest, rfl, h, rfl⟩

/-- Finite and without a sign. -/
def Binary64.Plain (x : Binary64) : Prop := ∃ m : Magnitude, m.isFinite ∧ x = .signed false m

namespace Literal

/-- Strings without a quote and names of the pattern; no others come from a text. -/
def Lexical : Literal → Prop
  | string s => '"' ∉ s.toList
  | var name => VariablePattern.default.accepts name
  | _ => True

/-- The literals whose text is read back. -/
def Printable : Literal → Prop
  | number x => x.Plain
  | l => l.Lexical

variable {l : Literal}

theorem Printable.lexical (h : l.Printable) : l.Lexical := by
  cases l with
  | number x => trivial
  | _ => exact h

theorem toList_display_string (s : String) :
    (string s).display.toList = '"' :: (s.toList ++ ['"']) := by
  simp [display]

/-- A printable literal is recognised with its kind up to its end. -/
theorem classify_display (h : l.Printable) (hr : Closed rest) :
    classify .default (l.display.toList ++ rest) =
      some (.literal l.kind, l.display.toList.length) := by
  cases l with
  | number x =>
    obtain ⟨m, hm, rfl⟩ := h
    obtain ⟨w, f, hplain, -⟩ := Binary64.displayChars_plain hm
    rw [display, Binary64.display, String.toList_ofList]
    exact classify_numeral hplain hr
  | string s =>
    have hlen : (string s).display.toList.length = s.toList.length + 2 := by
      simp [toList_display_string]
    rw [hlen, toList_display_string, List.cons_append, List.append_assoc]
    exact classify_quoted h
  | boolean b => exact classify_boolean b hr
  | var name => exact classify_name (VariablePattern.default_accepts_iff.mp h)

/-- The token of a printable literal stands for the literal. -/
theorem ofToken?_display (h : l.Printable) (offset : Nat) :
    ofToken? (.ofLexeme (.literal l.kind) l.display.toList offset) = some l := by
  cases l with
  | number x =>
    obtain ⟨m, hm, rfl⟩ := h
    obtain ⟨w, f, -, hread⟩ := Binary64.displayChars_plain hm
    simp [kind, Token.ofLexeme, ofToken?, display, Binary64.display, Binary64.ofString?, hread]
  | string s => simp [kind, Token.ofLexeme, ofToken?, toList_display_string]
  | boolean b => cases b <;> rfl
  | var name => simp [kind, Token.ofLexeme, ofToken?, display]

theorem displayChars_infinite {m : Magnitude} (h : ¬ m.isFinite) :
    (Binary64.signed false m).displayChars = "inf".toList := by
  simp [Binary64.displayChars, Binary64.sign, h]

/-- No name begins like infinity. -/
theorem reach_inf : (Kind.literal .var).reach .default ("inf".toList ++ rest) = none := by
  have hnames : ∀ w ∈ names, ¬ w.take 3 <+: "inf".toList := by decide
  refine Option.eq_none_iff_forall_ne_some.mpr fun n hn => ?_
  obtain ⟨w, hw, hp, -⟩ := VariablePattern.default_reach_iff.mp hn
  exact hnames w hw (List.IsPrefix.take hp 3)

/-- Where a number that is not plain is written, no kind fits. -/
theorem classify_display_eq_none {x : Binary64} (h : ¬ x.Plain) :
    classify .default ((number x).display.toList ++ rest) = none := by
  have hfirst : ∀ c, opensBefore 14 c = false → ∀ cs, classify .default (c :: cs) = none :=
    fun c hc cs => classify_eq_none fun k hk => Kind.reach_of_opensBefore (i := 14) hk hc
  rw [display, Binary64.display, String.toList_ofList]
  cases x with
  | nan => exact hfirst 'N' (by decide) _
  | signed negative m =>
    cases negative with
    | true => exact hfirst '-' (by decide) _
    | false =>
      rw [displayChars_infinite fun hm => h ⟨m, hm, rfl⟩]
      refine classify_eq_none fun k hk => ?_
      by_cases hvar : k = .literal .var
      · rw [hvar]
        exact reach_inf
      · have hother : ∀ k ∈ Kind.byPriority, k ≠ .literal .var → k.opensWith 'i' = false := by
          decide
        exact Kind.reach_eq_none (hother k hk hvar)

/-- The text of a number has no blanks and is not empty. -/
theorem tight_displayChars (x : Binary64) : Text.Tight x.displayChars := by
  have hmagnitude : ∀ m : Magnitude, (Binary64.signed false m).displayChars ≠ [] ∧
      ∀ c ∈ (Binary64.signed false m).displayChars, Text.isBlank c = false := by
    intro m
    by_cases hm : m.isFinite
    · obtain ⟨w, f, hplain, -⟩ := Binary64.displayChars_plain hm
      exact ⟨hplain.tight.ne_nil, hplain.not_isBlank⟩
    · rw [displayChars_infinite hm]
      have hinf : "inf".toList.all fun c => !Text.isBlank c := by decide
      exact ⟨by decide, fun c hc => by simpa using List.all_eq_true.mp hinf c hc⟩
  cases x with
  | nan => exact .of_all (by decide) (by decide)
  | signed negative m =>
    obtain ⟨hne, hall⟩ := hmagnitude m
    cases negative with
    | false => exact .of_forall hne hall
    | true =>
      refine .of_forall (List.cons_ne_nil _ _) fun c hc => ?_
      rcases List.mem_cons.mp hc with rfl | hc
      · rfl
      · exact hall c hc

/-- What is written for a literal that could come from a text has no blanks at its ends. -/
theorem tight_display (h : l.Lexical) : Text.Tight l.display.toList := by
  cases l with
  | number x =>
    rw [display, Binary64.display, String.toList_ofList]
    exact tight_displayChars x
  | string s =>
    rw [toList_display_string]
    exact .enclose rfl rfl
  | boolean b =>
    cases b
    all_goals exact .of_all (by decide) (by decide)
  | var name =>
    have hnames : ∀ w ∈ names, w.all fun c => !Text.isBlank c := by decide
    have hw := VariablePattern.default_accepts_iff.mp h
    exact .of_all (VariablePattern.names_ne_nil _ hw) (hnames _ hw)

end Literal

/-! ### Tokens of a text -/

/-- What stands between the quotes of a string lexeme has no quote. -/
theorem Lexeme.not_mem_of_quoted (h : quoted cs = some n) : '"' ∉ (cs.take n).tail.dropLast := by
  obtain ⟨s, rest, rfl, hs, rfl⟩ := quoted_eq_some.mp h
  rwa [take_to_quote, List.tail_cons, List.dropLast_concat]

/-- A token of a text stands for no literal but a lexical one. -/
theorem Token.lexical_of_classify (h : classify .default cs = some (k, n)) {offset : Nat}
    {l : Literal} (hl : Literal.ofToken? (.ofLexeme k (cs.take n) offset) = some l) :
    l.Lexical := by
  have hreach := classify_fits h
  cases k with
  | literal kind =>
    cases kind with
    | number =>
      obtain ⟨x, -, rfl⟩ := Option.map_eq_some_iff.mp hl
      trivial
    | string =>
      cases hl
      have htext : (ofLexeme (.literal .string) (cs.take n) offset).text.toList =
          (cs.take n).tail.dropLast := String.toList_ofList
      rw [Literal.Lexical, htext]
      exact Lexeme.not_mem_of_quoted hreach
    | boolean =>
      cases hl
      trivial
    | var =>
      cases hl
      obtain ⟨w, hw, hp, rfl⟩ := VariablePattern.default_reach_iff.mp hreach
      have htext : (ofLexeme (.literal .var) (cs.take w.length) offset).text.toList = w :=
        String.toList_ofList.trans (List.prefix_iff_eq_take.mp hp).symm
      rw [Literal.Lexical, VariablePattern.default_accepts_iff, htext]
      exact hw
  | _ => cases hl

theorem TokenStream.Yields.lexical {s s' : TokenStream} {ts : List Token} (h : s.Yields ts s')
    (hp : s.pattern = .default) : ∀ t ∈ ts, ∀ l, Literal.ofToken? t = some l → l.Lexical := by
  induction h with
  | nil => simp
  | cons hn _ ih =>
    intro t ht l hl
    rcases List.mem_cons.mp ht with rfl | ht
    · obtain ⟨k, n, hc, -, rfl, -⟩ := exists_of_next hn
      rw [hp] at hc
      exact Token.lexical_of_classify hc hl
    · exact ih ((pattern_of_next hn).trans hp) t ht l hl

end FilterLang
