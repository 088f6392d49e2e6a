import FilterLang.Proofs.Printing
import FilterLang.Settings

/-! Printing and parsing again. Under the default pattern the printed form of a tree is accepted with
an equal tree just when all its literals can be printed and the limits hold the tree. In the other
direction this rests on what a text can denote: its strings have no quotes and its variables are
names of the pattern, so of an equal tree only the numbers are still in question, and the stream
fails in front of the first that is negative or not finite. -/
namespace FilterLang

/-! ### What a text can denote -/

/-- Every literal of a derived tree is that of one of the tokens. -/
theorem Derives.exists_token {l : Level} {ts : List Token} {e : Expr} (h : Derives l ts e) :
    ∀ k ∈ e.literals, ∃ t ∈ ts, Literal.ofToken? t = some k := by
  intro k hk
  rwa [← h.literals, List.mem_filterMap] at hk

theorem Literal.lexical_of_equals {k l : Literal} (h : k.equals l) (hk : k.Lexical) : l.Lexical := by
  cases k with
  | number x =>
    cases l with
    | number y => trivial
    | _ => simp [equals] at h
  | _ =>
    cases l with
    | number y => trivial
    | _ => simp_all [equals]

/-- Equal trees have equal literals. -/
theorem Expr.exists_equals {e e' : Expr} (h : e'.equals e) :
    ∀ l ∈ e.literals, ∃ k ∈ e'.literals, k.equals l := by
  induction e generalizing e' with
  | literal l =>
    cases e' with
    | literal k => simpa [literals, equals] using h
    | binary op x y => simp [equals] at h
  | binary op x y ihx ihy =>
    cases e' with
    | literal k => simp [equals] at h
    | binary op' x' y' =>
      simp only [equals, Bool.and_eq_true] at h
      obtain ⟨⟨-, hx⟩, hy⟩ := h
      intro l hl
      rcases List.mem_append.mp hl with hl | hl
      · obtain ⟨k, hk, hkl⟩ := ihx hx l hl
        exact ⟨k, by simp [literals, hk], hkl⟩
      · obtain ⟨k, hk, hkl⟩ := ihy hy l hl
        exact ⟨k, by simp [literals, hk], hkl⟩

theorem Expr.equals_self {e : Expr} (h : ∀ l ∈ e.literals, l.Printable) : e.equals e := by
  induction e with
  | literal l =>
    cases l with
    | number x =>
      obtain ⟨m, -, rfl⟩ := h (.number x) (by simp [literals])
      simp [equals, Literal.equals, Binary64.equals]
    | _ => simp [equals, Literal.equals]
  | binary op x y ihx ihy =>
    simp [equals, ihx fun l hl => h l (by simp [literals, hl]),
      ihy fun l hl => h l (by simp [literals, hl])]

/-! ### Parsing a printed tree -/

theorem Settings.parse_eq_ok {s : Settings} {text : String} {e : Expr} : s.parse text = .ok e ↔
    ∃ ts, s.tokenize text = .ok ts ∧ parseTokens ts s.limits = .ok e := by
  unfold parse examine
  cases htokens : s.tokenize text with
  | error err => simp
  | ok ts =>
    cases hparse : parseTokens ts s.limits with
    | error r => simp [hparse]
    | ok e' => simp [hparse]

/-- The printed form of a tree with lexical literals is cut into the tokens of the tree if all its
literals can be printed, and else not into tokens at all. -/
theorem Expr.tokenize_display {e : Expr} (h : ∀ l ∈ e.literals, l.Lexical) (limits : Limits) :
    ((∀ l ∈ e.literals, l.Printable) ∧
      ∃ ts, Settings.tokenize { limits } e.display = .ok ts ∧ Printed e ts) ∨
    (∃ l ∈ e.literals, ¬ l.Printable) ∧ ∀ ts, Settings.tokenize { limits } e.display ≠ .ok ts := by
  have hstream : Settings.tokenize { limits } e.display =
      (TokenStream.ofText .default e.chars).tokens := by
    rw [Settings.tokenize, toList_display, (tight_chars h).trim_eq]
    rfl
  have hrest : (TokenStream.ofText .default e.chars).rest.dropWhile Text.isBlank =
      e.chars ++ [] := by
    rw [← (tight_chars h).dropWhile_append, List.append_nil]
    rfl
  rw [hstream]
  rcases exists_pulled h rfl hrest (by rintro c ⟨⟩) with
    ⟨hl, ts, s', hy, hprinted, hend⟩ | ⟨hnot, hfails⟩
  · have hnil : s'.skipBlanks.rest = [] := by
      rw [TokenStream.skipBlanks_rest, hend]
      rfl
    have hnext := congrArg Prod.fst (TokenStream.next_of_nil hnil)
    exact .inl ⟨hl, ts, TokenStream.tokens_eq_ok.mpr ⟨s', hy, hnext⟩, hprinted⟩
  · exact .inr ⟨hnot, fun ts => hfails.tokens_ne_ok⟩

/-- The tokens of a tree are parsed as the tree, within limits that hold the tree. -/
theorem Printed.parseTokens_iff {e e' : Expr} {ts : List Token} (h : Printed e ts)
    (limits : Limits) : parseTokens ts limits = .ok e' ↔
      e' = e ∧ e.depth - 1 ≤ limits.depth ∧ e.operations ≤ limits.operators := by
  have hderives : Derives .conjunction ts e := h.derives.to_conjunction
  have hheight : e.height ≤ limits.depth + 1 ↔ e.depth - 1 ≤ limits.depth := by
    rw [Expr.depth_eq_height]
    omega
  rw [parseTokens_eq_ok_iff, h.nestsWithin_iff, hderives.countP_isOperator, hheight]
  constructor
  · rintro ⟨he', hl⟩
    exact ⟨he'.unique hderives, hl⟩
  · rintro ⟨rfl, hl⟩
    exact ⟨hderives, hl⟩

/-- What a parsed text denotes has its literals from the tokens that the text yields. -/
theorem Settings.exists_yields_of_parse {s : Settings} {text : String} {e : Expr}
    (h : s.parse text = .ok e) : ∃ ts s',
      (TokenStream.ofText s.pattern (Text.trim text.toList)).Yields ts s' ∧
        ∀ l ∈ e.literals, ∃ t ∈ ts, Literal.ofToken? t = some l := by
  obtain ⟨ts, htokens, hparse⟩ := parse_eq_ok.mp h
  obtain ⟨s', hy, -⟩ := TokenStream.tokens_eq_ok.mp htokens
  exact ⟨ts, s', hy, (parseTokens_eq_ok_iff.mp hparse).1.exists_token⟩

/-- What a parsed text denotes has lexical literals. -/
theorem Settings.lexical_of_parse {limits : Limits} {text : String} {e : Expr}
    (h : Settings.parse { limits } text = .ok e) : ∀ l ∈ e.literals, l.Lexical := by
  obtain ⟨ts, s', hy, htokens⟩ := exists_yields_of_parse h
  intro l hl
  obtain ⟨t, ht, htl⟩ := htokens l hl
  exact hy.lexical rfl t ht l htl

/-- What a tree needs for its printed form to be read back within the limits: its numbers are finite
and have no sign, its strings have no quotes, its variables are names of the default pattern, and
the limits leave room for its groups and its operators. -/
structure Expr.ReadsBack (e : Expr) (limits : Limits) : Prop where
  numbers : ∀ x, .number x ∈ e.literals → ∃ m : Magnitude, m.isFinite ∧ x = .signed false m
  strings : ∀ s, .string s ∈ e.literals → '"' ∉ s.toList
  names : ∀ name, .var name ∈ e.literals → VariablePattern.default.accepts name
  depth : e.depth - 1 ≤ limits.depth
  operations : e.operations ≤ limits.operators

theorem Expr.readsBack_iff {e : Expr} {limits : Limits} : e.ReadsBack limits ↔
    (∀ l ∈ e.literals, l.Printable) ∧ e.depth - 1 ≤ limits.depth ∧
      e.operations ≤ limits.operators := by
  constructor
  · intro h
    refine ⟨fun l hl => ?_, h.depth, h.operations⟩
    cases l with
    | number x => exact h.numbers x hl
    | string s => exact h.strings s hl
    | boolean b => trivial
    | var name => exact h.names name hl
  · rintro ⟨h, hdepth, hoperations⟩
    exact ⟨fun x hx => h _ hx, fun s hs => h _ hs, fun name hn => h _ hn, hdepth, hoperations⟩

theorem Expr.ReadsBack.parse_display {e : Expr} {limits : Limits} (h : e.ReadsBack limits) :
    Settings.parse { limits } e.display = .ok e := by
  obtain ⟨hprintable, hlimits⟩ := readsBack_iff.mp h
  rcases e.tokenize_display (fun l hl => (hprintable l hl).lexical) limits with
    ⟨-, ts, hts, hprinted⟩ | ⟨⟨l, hl, hnot⟩, -⟩
  · exact Settings.parse_eq_ok.mpr ⟨ts, hts, (hprinted.parseTokens_iff limits).mpr ⟨rfl, hlimits⟩⟩
  · exact absurd (hprintable l hl) hnot

/-- With lexical literals the printed form is not accepted unless the tree reads back. -/
theorem Expr.readsBack_of_parse {e e' : Expr} {limits : Limits} (h : ∀ l ∈ e.literals, l.Lexical)
    (hparse : Settings.parse { limits } e.display = .ok e') : e.ReadsBack limits := by
  obtain ⟨ts, hts, hts'⟩ := Settings.parse_eq_ok.mp hparse
  rcases e.tokenize_display h limits with ⟨hprintable, us, hus, hprinted⟩ | ⟨-, hnone⟩
  · obtain rfl : ts = us := Except.ok.inj (hts.symm.trans hus)
    exact readsBack_iff.mpr ⟨hprintable, ((hprinted.parseTokens_iff limits).mp hts').2⟩
  · exact absurd hts (hnone ts)

/-- The printed form of a tree is parsed as the tree itself if the tree reads back, and else neither
as the tree nor as an equal one. -/
theorem parse_display_iff (e : Expr) (limits : Limits) :
    (Settings.parse { limits } e.display = .ok e ↔ e.ReadsBack limits) ∧
    ((∃ e', Settings.parse { limits } e.display = .ok e' ∧ e'.equals e) ↔ e.ReadsBack limits) := by
  refine ⟨⟨fun h => ?_, fun h => h.parse_display⟩, ?_, fun h => ⟨e, h.parse_display, ?_⟩⟩
  · exact Expr.readsBack_of_parse (Settings.lexical_of_parse h) h
  · rintro ⟨e', hparse, hequals⟩
    refine Expr.readsBack_of_parse (fun l hl => ?_) hparse
    obtain ⟨k, hk, hkl⟩ := Expr.exists_equals hequals l hl
    exact Literal.lexical_of_equals hkl (Settings.lexical_of_parse hparse k hk)
  · exact Expr.equals_self (Expr.readsBack_iff.mp h).1

end FilterLang
