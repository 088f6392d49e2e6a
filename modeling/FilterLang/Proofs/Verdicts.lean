import FilterLang.Proofs.Recognition
import FilterLang.Proofs.RoundTrip

/-! What a verdict says about a text. Trimming takes off what the stream takes for blanks, so the one
text without tokens is the blank one; a numeral always reads as a number without a sign, so no number
token is invalid; and an error of the grammar repeats what it says of a place from one of the tokens,
each of which stands in the trimmed text. -/
namespace FilterLang

variable {limits : Limits} {c c' : Cursor} {cs : List Char} {t : Token} {ts : List Token}
  {text : String} {st : Stage} {g : GrammarError} {s : Settings}

/-! ### Trimming -/

namespace Text

theorem mem_dropWhile_of_not_isBlank {d : Char} (hd : d ∈ cs) (h : isBlank d = false) :
    d ∈ cs.dropWhile isBlank := by
  rw [← List.takeWhile_append_dropWhile (p := isBlank) (l := cs)] at hd
  rcases List.mem_append.mp hd with hd | hd
  · rw [List.mem_takeWhile_imp hd] at h
    contradiction
  · exact hd

/-- Trimming takes nothing but blanks off. -/
theorem mem_trim_of_not_isBlank {d : Char} (hd : d ∈ cs) (h : isBlank d = false) : d ∈ trim cs := by
  have hstart : d ∈ trimStart cs := mem_dropWhile_of_not_isBlank hd h
  rw [trim, trimEnd, List.mem_reverse]
  exact mem_dropWhile_of_not_isBlank (List.mem_reverse.mpr hstart) h

theorem trim_of_isBlank (h : ∀ d ∈ cs, isBlank d) : trim cs = [] := by
  have hstart : trimStart cs = [] := List.dropWhile_eq_nil_iff.mpr h
  rw [trim, hstart]
  rfl

end Text

/-- A trimmed text has no tokens only if the whole text is blank. -/
theorem tokenize_trim_eq_nil {p : VariablePattern} :
    tokenize p (Text.trim cs) = .ok [] ↔ ∀ d ∈ cs, Text.isBlank d := by
  constructor
  · intro h d hd
    obtain ⟨s', hy, hend⟩ := TokenStream.tokens_eq_ok.mp h
    cases hy
    have hblank := TokenStream.isBlank_of_end hend
    by_contra hnot
    exact hnot (hblank d (Text.mem_trim_of_not_isBlank hd (by simpa using hnot)))
  · intro h
    rw [Text.trim_of_isBlank h]
    rfl

/-! ### Tokens of a stream -/

namespace TokenStream

variable {s s' : TokenStream} {body : List Char}

/-- Every token begins inside the text, between two of its characters. -/
theorem Yields.placed (h : Yields s ts s') (hs : s.Within body) :
    ∀ t ∈ ts, Text.IsBoundary body t.offset ∧ t.offset < Text.utf8Length body ∧ t.kind ≠ .blank := by
  induction h with
  | nil => simp
  | cons hn _ ih =>
    have hnext := hs.next
    rw [hn] at hnext
    refine List.forall_mem_cons.mpr ⟨?_, ih hnext⟩
    obtain ⟨blanks, hf⟩ := exists_finds hn
    obtain ⟨front, back, hbody, hfront, -⟩ := (hf.spans hs).2
    refine ⟨⟨front, _, by rw [hbody, List.append_assoc], hfront⟩, ?_, hf.kind⟩
    exact hf.offset_lt.trans_le hnext.isBoundary.le

/-- Every token of a literal's kind stands for a literal, and numbers have no sign. -/
theorem Yields.literal (h : Yields s ts s') : ∀ t ∈ ts, ∀ k, t.kind = .literal k →
    ∃ l, Literal.ofToken? t = some l ∧ ∀ x, l = .number x → ∃ m, x = .signed false m := by
  induction h with
  | nil => simp
  | @cons _ _ _ t _ hn _ ih =>
    refine List.forall_mem_cons.mpr ⟨fun k hk => ?_, ih⟩
    rw [Literal.ofToken?, hk]
    cases k with
    | number =>
      obtain ⟨-, -, hext, -⟩ := applies_of_next hn
      rw [hk, Token.lexeme_of_ne (by simp [hk])] at hext
      obtain ⟨w, f, hplain⟩ := hext.numeral
      rw [Binary64.ofString?, hplain.binary64]
      exact ⟨_, rfl, by rintro x ⟨rfl⟩; exact ⟨_, rfl⟩⟩
    | string => exact ⟨_, rfl, by rintro x ⟨⟩⟩
    | boolean => exact ⟨_, rfl, by rintro x ⟨⟩⟩
    | var => exact ⟨_, rfl, by rintro x ⟨⟩⟩

end TokenStream

/-! ### What an error says -/

namespace GrammarError

/-- The offset that the error gives. -/
def offset? : GrammarError → Option Nat
  | unexpectedToken _ offset | trailingToken _ offset => some offset
  | invalidNumber _ offset | tooManyOperators _ offset => some offset
  | missingRightParen found => found.map Prod.snd
  | unexpectedEnd | nestedTooDeep _ => none

/-- The kind of token that the error names. -/
def kind? : GrammarError → Option Kind
  | unexpectedToken kind _ | trailingToken kind _ => some kind
  | missingRightParen found => found.map Prod.fst
  | _ => none

/-- A kind and an offset that the error gives are those of one of the tokens, a number that it calls
invalid is one of them that stands for nothing, and a limit that it gives is that of the parser. -/
def Reports (limits : Limits) (ts : List Token) : GrammarError → Prop
  | unexpectedToken kind offset | trailingToken kind offset
  | missingRightParen (some (kind, offset)) => ∃ t ∈ ts, t.kind = kind ∧ t.offset = offset
  | invalidNumber _ offset =>
    ∃ t ∈ ts, (∃ k, t.kind = .literal k) ∧ Literal.ofToken? t = none ∧ t.offset = offset
  | tooManyOperators limit offset => limit = limits.operators ∧ ∃ t ∈ ts, t.offset = offset
  | nestedTooDeep limit => limit = limits.depth
  | unexpectedEnd | missingRightParen none => True

theorem Reports.place {offset : Nat} (h : g.Reports limits ts) (ho : g.offset? = some offset) :
    ∃ t ∈ ts, t.offset = offset ∧ ∀ k, g.kind? = some k → t.kind = k := by
  have hnamed : ∀ {kind : Kind} {o : Nat}, (∃ t ∈ ts, t.kind = kind ∧ t.offset = o) →
      ∃ t ∈ ts, t.offset = o ∧ ∀ k, some kind = some k → t.kind = k := by
    rintro kind o ⟨t, ht, rfl, rfl⟩
    exact ⟨t, ht, rfl, fun k hk => Option.some.inj hk⟩
  cases g with
  | unexpectedToken | trailingToken =>
    cases ho
    exact hnamed h
  | missingRightParen found =>
    cases found with
    | none => contradiction
    | some place =>
      cases ho
      exact hnamed h
  | invalidNumber =>
    cases ho
    obtain ⟨t, ht, -, -, hoffset⟩ := h
    exact ⟨t, ht, hoffset, fun k hk => by contradiction⟩
  | tooManyOperators =>
    cases ho
    obtain ⟨-, t, ht, hoffset⟩ := h
    exact ⟨t, ht, hoffset, fun k hk => by contradiction⟩
  | unexpectedEnd | nestedTooDeep => contradiction

end GrammarError

/-- The error with which a run stops tells of the token before which it stops. -/
theorem Stops.reports (us : List Token) (h : Stops limits c st ts (.error g) c') :
    g.Reports limits (us ++ ts) := by
  have hmem : ∀ (t : Token) (vs : List Token), t ∈ us ++ t :: vs := by simp
  cases h with
  | unexpectedEnd => trivial
  | unclosed => trivial
  | nested => rfl
  | invalidNumber hk hl => exact ⟨_, hmem _ _, ⟨_, hk⟩, hl, rfl⟩
  | unexpected => exact ⟨_, hmem _ _, rfl, rfl⟩
  | tooMany => exact ⟨rfl, _, hmem _ _, rfl⟩
  | missing => exact ⟨_, hmem _ _, rfl, rfl⟩

/-- The rejections of a list of tokens: the empty list, and what the grammar has against another. -/
theorem parseTokens_eq_error {r : Rejection} (h : parseTokens ts limits = .error r) :
    ts = [] ∧ r = .emptyInput ∨ ts ≠ [] ∧ ∃ g, r = .grammar g ∧ g.Reports limits ts := by
  by_cases hne : ts = []
  · subst hne
    rw [parseTokens, Parser.readAll_nil] at h
    cases h
    exact .inl ⟨rfl, rfl⟩
  · refine .inr ⟨hne, ?_⟩
    obtain ⟨us, vs, st, e, c, rfl, hr, ha, hs⟩ := Stage.exists_stops limits {} .start ts
    rw [parseTokens, Parser.readAll_fresh hne hr ha hs] at h
    cases e with
    | error g =>
      cases h
      exact ⟨g, rfl, hs.reports us⟩
    | ok e =>
      cases vs with
      | nil => cases h
      | cons t vs =>
        cases h
        exact ⟨_, rfl, t, by simp, rfl, rfl⟩

/-! ### Verdicts -/

namespace Settings

theorem parse_of_tokens (h : s.tokenize text = .ok ts) : s.parse text = parseTokens ts s.limits := by
  unfold parse examine
  rw [h]
  dsimp only
  cases parseTokens ts s.limits <;> rfl

theorem parse_of_unrecognized {e : Unrecognized} (h : s.tokenize text = .error e) :
    s.parse text = .error (.unrecognized e) := by
  unfold parse examine
  rw [h]

/-- A text is rejected as unrecognized with what its tokens fail with. -/
theorem parse_eq_unrecognized {e : Unrecognized} :
    s.parse text = .error (.unrecognized e) ↔ s.tokenize text = .error e := by
  refine ⟨fun h => ?_, parse_of_unrecognized⟩
  cases htokens : s.tokenize text with
  | error e' =>
    rw [parse_of_unrecognized htokens] at h
    cases h
    rfl
  | ok ts =>
    rw [parse_of_tokens htokens] at h
    rcases parseTokens_eq_error h with ⟨-, hr⟩ | ⟨-, g, hr, -⟩ <;> cases hr

/-- A text is rejected as empty if it has no tokens. -/
theorem parse_eq_emptyInput : s.parse text = .error .emptyInput ↔ s.tokenize text = .ok [] := by
  constructor
  · intro h
    cases htokens : s.tokenize text with
    | error e =>
      rw [parse_of_unrecognized htokens] at h
      cases h
    | ok ts =>
      rw [parse_of_tokens htokens] at h
      rcases parseTokens_eq_error h with ⟨rfl, -⟩ | ⟨-, g, hr, -⟩
      · rfl
      · cases hr
  · intro h
    rw [parse_of_tokens h]
    rfl

/-- What the grammar has against a text tells of the tokens of the text. -/
theorem exists_reports (h : s.parse text = .error (.grammar g)) :
    ∃ ts, s.tokenize text = .ok ts ∧ g.Reports s.limits ts := by
  cases htokens : s.tokenize text with
  | error e =>
    rw [parse_of_unrecognized htokens] at h
    cases h
  | ok ts =>
    rw [parse_of_tokens htokens] at h
    rcases parseTokens_eq_error h with ⟨-, hr⟩ | ⟨-, g, hr, hreports⟩ <;> cases hr
    exact ⟨ts, rfl, hreports⟩

/-- A verdict is that nothing is there just when the text is blank, and that something is not
recognized just when the tokens of the trimmed text fail with it. An accepted tree has no numbers but
unsigned ones. An error of the grammar calls no number invalid, gives the limits that are set, and
gives a place only if one of the tokens stands there in the trimmed text, with the kind that it
names, which is not that of blanks. -/
theorem parse_classifies (s : Settings) (text : String) :
    let body := Text.trim text.toList
    (s.parse text = .error .emptyInput ↔ ∀ c ∈ text.toList, Text.isBlank c) ∧
    (∀ e, s.parse text = .error (.unrecognized e) ↔ FilterLang.tokenize s.pattern body = .error e) ∧
    (∀ e, s.parse text = .ok e → ∀ x, .number x ∈ e.literals → ∃ m, x = .signed false m) ∧
    ∀ g, s.parse text = .error (.grammar g) →
      (∀ numeral offset, g ≠ .invalidNumber numeral offset) ∧
      (∀ limit, g = .nestedTooDeep limit → limit = s.limits.depth) ∧
      (∀ limit offset, g = .tooManyOperators limit offset → limit = s.limits.operators) ∧
      ∀ offset, g.offset? = some offset →
        offset < Text.utf8Length body ∧ Text.IsBoundary body offset ∧
        ∃ ts, FilterLang.tokenize s.pattern body = .ok ts ∧ ∃ t ∈ ts, t.offset = offset ∧
          ∀ k, g.kind? = some k → t.kind = k ∧ k ≠ .blank := by
  intro body
  refine ⟨parse_eq_emptyInput.trans tokenize_trim_eq_nil, fun e => parse_eq_unrecognized,
    fun e he x hx => ?_, fun g hg => ?_⟩
  · obtain ⟨ts, hts, hparse⟩ := parse_eq_ok.mp he
    obtain ⟨s', hy, -⟩ := TokenStream.tokens_eq_ok.mp hts
    obtain ⟨t, ht, htx⟩ := (parseTokens_eq_ok_iff.mp hparse).1.exists_token _ hx
    obtain ⟨l, hl, hsign⟩ := hy.literal t ht _ (Literal.kind_of_ofToken? htx)
    exact hsign x (Option.some.inj (hl.symm.trans htx))
  · obtain ⟨ts, hts, hreports⟩ := exists_reports hg
    obtain ⟨s', hy, -⟩ := TokenStream.tokens_eq_ok.mp hts
    have hplaced := hy.placed (TokenStream.ofText_within s.pattern body)
    refine ⟨?_, by rintro limit ⟨rfl⟩; exact hreports, by rintro limit offset ⟨rfl⟩; exact hreports.1,
      fun offset ho => ?_⟩
    · rintro numeral offset ⟨rfl⟩
      obtain ⟨t, ht, ⟨k, hk⟩, hnone, -⟩ := hreports
      obtain ⟨l, hl, -⟩ := hy.literal t ht k hk
      rw [hl] at hnone
      contradiction
    · obtain ⟨t, ht, rfl, hkind⟩ := hreports.place ho
      obtain ⟨hboundary, hlt, hblank⟩ := hplaced t ht
      refine ⟨hlt, hboundary, ts, hts, t, ht, rfl, fun k hk => ?_⟩
      rw [← hkind k hk]
      exact ⟨rfl, hblank⟩

/-- The second `<` of the trimmed text is out of place; the string before it has a wide character. -/
theorem parse_classifies_misplaced :
    let text := "\u00a0\"é\" < < 1"
    Settings.parse {} text = .error (.grammar (.unexpectedToken (.operator .lt) 7)) ∧
      ∃ ts, FilterLang.tokenize .default (Text.trim text.toList) = .ok ts ∧
        ∃ t ∈ ts, t.offset = 7 ∧ t.kind = .operator .lt := by
  intro text
  have hparse : Settings.parse {} text = .error (.grammar (.unexpectedToken (.operator .lt) 7)) := by
    decide +kernel
  obtain ⟨-, -, -, hgrammar⟩ := parse_classifies {} text
  obtain ⟨-, -, -, hplace⟩ := hgrammar _ hparse
  obtain ⟨-, -, ts, hts, t, ht, hoffset, hkind⟩ := hplace 7 rfl
  exact ⟨hparse, ts, hts, t, ht, hoffset, (hkind _ rfl).1⟩

end Settings

end FilterLang
