import FilterLang.TokenStream
import Mathlib.Data.List.TakeWhile

/-! Pulling tokens as a relation. A stream yields tokens one after another until it halts, at the end
of the text or before something unrecognized. Every lexeme has at least one character, so the pulls
of a whole text end, and their result says how the stream halted. -/
namespace FilterLang

/-! ### Blanks in front -/

theorem Text.dropWhile_eq_self {cs : List Char} (h : ∀ c ∈ cs.head?, isBlank c = false) :
    cs.dropWhile isBlank = cs := by
  cases cs with
  | nil => rfl
  | cons c cs => rw [List.dropWhile_cons_of_neg (by simp [h c rfl])]

theorem Text.takeWhile_eq_nil {cs : List Char} (h : ∀ c ∈ cs.head?, isBlank c = false) :
    cs.takeWhile isBlank = [] := by
  cases cs with
  | nil => rfl
  | cons c cs => exact List.takeWhile_cons_of_neg (by simp [h c rfl])

/-! ### Lexemes -/

theorem Lexeme.symbol_eq_some {s : String} {cs : List Char} {n : Nat} :
    symbol s cs = some n ↔ s.toList <+: cs ∧ s.length = n := by
  rw [symbol]
  split_ifs with h
  · simp [List.isPrefixOf_iff_prefix.mp h]
  · simpa using fun hp => absurd (List.isPrefixOf_iff_prefix.mpr hp) h

theorem Lexeme.symbol_eq_none_iff {s : String} {cs : List Char} :
    symbol s cs = none ↔ ¬ s.toList <+: cs := by
  simp [Option.eq_none_iff_forall_ne_some, symbol_eq_some]

/-- The word is at the front of the text, and no letter, digit or underscore follows it. -/
def Lexeme.StandsAlone (w : String) (cs : List Char) : Prop :=
  ∃ rest, cs = w.toList ++ rest ∧ ∀ c ∈ rest.head?, isIdentifier c = false

theorem Lexeme.word_eq_some {w : String} {cs : List Char} {n : Nat} :
    word w cs = some n ↔ StandsAlone w cs ∧ w.length = n := by
  rw [word, StandsAlone]
  constructor
  · intro h
    split_ifs at h with hw
    rw [Bool.and_eq_true, List.isPrefixOf_iff_prefix] at hw
    obtain ⟨⟨rest, rfl⟩, hnext⟩ := hw
    rw [← String.length_toList, List.drop_left, Bool.not_eq_true', Option.any_eq_false] at hnext
    exact ⟨⟨rest, rfl, by simpa using hnext⟩, Option.some.inj h⟩
  · rintro ⟨⟨rest, rfl, hrest⟩, rfl⟩
    rw [if_pos]
    rw [Bool.and_eq_true, List.isPrefixOf_iff_prefix, ← String.length_toList, List.drop_left,
      Bool.not_eq_true', Option.any_eq_false]
    exact ⟨List.prefix_append _ _, by simpa using hrest⟩

theorem takeWhile_to_quote {s rest : List Char} (h : '"' ∉ s) :
    (s ++ '"' :: rest).takeWhile (· != '"') = s := by
  rw [List.takeWhile_append_of_pos fun c hc => by simpa using ne_of_mem_of_not_mem hc h]
  simp

theorem take_to_quote (s rest : List Char) :
    ('"' :: (s ++ '"' :: rest)).take (s.length + 2) = '"' :: (s ++ ['"']) := by
  have hsplit : '"' :: (s ++ '"' :: rest) = '"' :: (s ++ ['"']) ++ rest := by simp
  rw [hsplit]
  exact List.take_left' (by simp)

/-- A quoted lexeme ends with the first quote behind the one it begins with. -/
theorem Lexeme.quoted_eq_some {cs : List Char} {n : Nat} : quoted cs = some n ↔
    ∃ s rest, cs = '"' :: (s ++ '"' :: rest) ∧ '"' ∉ s ∧ n = s.length + 2 := by
  constructor
  · intro h
    unfold quoted at h
    split at h
    next rest =>
      split_ifs at h with hquote
      cases h
      obtain ⟨s, tail, rfl, hs⟩ := List.eq_append_cons_of_mem (List.contains_iff_mem.mp hquote)
      exact ⟨s, tail, rfl, hs, by rw [takeWhile_to_quote hs]⟩
    next => contradiction
  · rintro ⟨s, rest, rfl, hs, rfl⟩
    simp [quoted, takeWhile_to_quote hs]

/-- A lexeme is not empty. -/
theorem Kind.reach_pos {p : VariablePattern} {k : Kind} {cs : List Char} {n : Nat}
    (h : k.reach p cs = some n) : 0 < n := by
  have hsymbol : ∀ {s : String}, 0 < s.length → Lexeme.symbol s cs = some n → 0 < n :=
    fun hs h => lt_of_lt_of_eq hs (Lexeme.symbol_eq_some.mp h).2
  have hword : ∀ {s s' : String}, 0 < s.length → 0 < s'.length →
      (Lexeme.word s cs <|> Lexeme.word s' cs) = some n → 0 < n := by
    intro s s' hs hs' h
    rw [Option.orElse_eq_orElse, Option.orElse_eq_or, Option.or_eq_some_iff] at h
    rcases h with h | ⟨-, h⟩
    · exact lt_of_lt_of_eq hs (Lexeme.word_eq_some.mp h).2
    · exact lt_of_lt_of_eq hs' (Lexeme.word_eq_some.mp h).2
  cases k with
  | blank =>
    simp only [Kind.reach, Lexeme.blanks] at h
    split_ifs at h with hn
    cases h
    exact Nat.pos_of_ne_zero hn
  | operator op =>
    cases op with
    | and => exact hword (by decide) (by decide) h
    | _ => exact hsymbol (by decide) h
  | literal kind =>
    cases kind with
    | number =>
      simp only [Kind.reach, Lexeme.number] at h
      split_ifs at h with hn
      split at h
      · cases h
        split_ifs <;> omega
      · cases h
        omega
    | string =>
      obtain ⟨s, rest, -, -, rfl⟩ := Lexeme.quoted_eq_some.mp h
      omega
    | boolean => exact hword (by decide) (by decide) h
    | var =>
      obtain ⟨-, hn⟩ := Option.filter_eq_some_iff.mp h
      simpa using hn
  | leftParen => exact hsymbol (by decide) h
  | rightParen => exact hsymbol (by decide) h

/-- The kind that is found fits. -/
theorem classify_fits {p : VariablePattern} {cs : List Char} {k : Kind} {n : Nat}
    (h : classify p cs = some (k, n)) : k.reach p cs = some n := by
  obtain ⟨k', -, hk⟩ := List.exists_of_findSome?_eq_some h
  obtain ⟨m, hm, heq⟩ := Option.map_eq_some_iff.mp hk
  cases heq
  exact hm

/-- The kind with priority `i` is found where it fits and no kind before it does. -/
theorem classify_of_earlier {p : VariablePattern} {cs : List Char} {k : Kind} {n : Nat} (i : Nat)
    (hk : Kind.byPriority[i]? = some k)
    (hearlier : ∀ k' ∈ Kind.byPriority.take i, k'.reach p cs = none)
    (h : k.reach p cs = some n) : classify p cs = some (k, n) := by
  obtain ⟨hi, hget⟩ := List.getElem?_eq_some_iff.mp hk
  have hsplit : Kind.byPriority = Kind.byPriority.take i ++ k :: Kind.byPriority.drop (i + 1) := by
    rw [← hget, ← List.drop_eq_getElem_cons hi, List.take_append_drop]
  rw [classify, List.findSome?_eq_some_iff]
  refine ⟨_, k, _, hsplit, by rw [h]; rfl, fun k' hk' => ?_⟩
  rw [hearlier k' hk']
  rfl

theorem classify_eq_none {p : VariablePattern} {cs : List Char}
    (h : ∀ k ∈ Kind.byPriority, k.reach p cs = none) : classify p cs = none := by
  rw [classify, List.findSome?_eq_none_iff]
  intro k hk
  rw [h k hk]
  rfl

namespace TokenStream

/-! ### One pull -/

theorem skipBlanks_rest (s : TokenStream) : s.skipBlanks.rest = s.rest.dropWhile Text.isBlank :=
  calc s.rest.drop (s.rest.takeWhile Text.isBlank).length
      = (s.rest.takeWhile Text.isBlank ++ s.rest.dropWhile Text.isBlank).drop
          (s.rest.takeWhile Text.isBlank).length := by rw [List.takeWhile_append_dropWhile]
    _ = s.rest.dropWhile Text.isBlank := List.drop_left

variable {s s' s'' : TokenStream} {t : Token} {ts us : List Token}

theorem next_of_nil (h : s.skipBlanks.rest = []) : s.next = (.ok none, s.skipBlanks) := by
  simp [next, front, h]

theorem next_of_some (hne : s.skipBlanks.rest ≠ []) {k : Kind} {n : Nat}
    (h : classify s.pattern s.skipBlanks.rest = some (k, n)) :
    s.next = (.ok (some (.ofLexeme k (s.skipBlanks.rest.take n) s.skipBlanks.position)),
      s.skipBlanks.advance n) := by
  have hp : s.skipBlanks.pattern = s.pattern := rfl
  simp [next, front, hne, hp, h]

theorem next_of_none (hne : s.skipBlanks.rest ≠ [])
    (h : classify s.pattern s.skipBlanks.rest = none) :
    s.next = (.error (.before s.skipBlanks.position s.skipBlanks.rest), s.skipBlanks) := by
  have hp : s.skipBlanks.pattern = s.pattern := rfl
  simp [next, front, hne, hp, h]

/-- What a pull that fails has found. -/
theorem exists_of_next_error {e : Unrecognized} (h : s.next.1 = .error e) :
    s.skipBlanks.rest ≠ [] ∧ classify s.pattern s.skipBlanks.rest = none ∧
      e = .before s.skipBlanks.position s.skipBlanks.rest := by
  by_cases hne : s.skipBlanks.rest = []
  · rw [next_of_nil hne] at h
    cases h
  cases hc : classify s.pattern s.skipBlanks.rest with
  | none =>
    rw [next_of_none hne hc] at h
    cases h
    exact ⟨hne, rfl, rfl⟩
  | some found =>
    rw [next_of_some hne hc] at h
    cases h

/-- What a pull that gives a token has found. -/
theorem exists_of_next (h : s.next = (.ok (some t), s')) : ∃ k n,
    classify s.pattern s.skipBlanks.rest = some (k, n) ∧ s.skipBlanks.rest ≠ [] ∧
      t = .ofLexeme k (s.skipBlanks.rest.take n) s.skipBlanks.position ∧
      s' = s.skipBlanks.advance n := by
  by_cases hne : s.skipBlanks.rest = []
  · rw [next_of_nil hne] at h
    cases h
  cases hc : classify s.pattern s.skipBlanks.rest with
  | none =>
    rw [next_of_none hne hc] at h
    cases h
  | some found =>
    obtain ⟨k, n⟩ := found
    rw [next_of_some hne hc] at h
    cases h
    exact ⟨k, n, rfl, hne, rfl, rfl⟩

/-- A token takes something from the text. -/
theorem rest_length_lt (h : s.next = (.ok (some t), s')) : s'.rest.length < s.rest.length := by
  obtain ⟨k, n, hc, hne, -, rfl⟩ := exists_of_next h
  have hn := Kind.reach_pos (classify_fits hc)
  have hpos := List.length_pos_iff.mpr hne
  have hle : s.skipBlanks.rest.length ≤ s.rest.length := by
    rw [skipBlanks_rest]
    exact (List.dropWhile_suffix _).length_le
  simp only [advance, List.length_drop]
  omega

theorem pattern_of_next (h : s.next = (.ok (some t), s')) : s'.pattern = s.pattern := by
  obtain ⟨k, n, -, -, -, rfl⟩ := exists_of_next h
  rfl

/-- A lexeme behind the blanks is pulled as its token. -/
theorem next_of_front {lexeme rest : List Char} {k : Kind}
    (hs : s.skipBlanks.rest = lexeme ++ rest)
    (h : classify s.pattern (lexeme ++ rest) = some (k, lexeme.length)) :
    s.next = (.ok (some (.ofLexeme k lexeme s.skipBlanks.position)),
      ⟨s.pattern, rest, s.skipBlanks.position + Text.utf8Length lexeme⟩) := by
  have hpos : 0 < lexeme.length := Kind.reach_pos (classify_fits h)
  have hne : s.skipBlanks.rest ≠ [] := by
    rw [hs]
    exact List.append_ne_nil_of_left_ne_nil (List.length_pos_iff.mp hpos) rest
  rw [← hs] at h
  have hp : s.skipBlanks.pattern = s.pattern := rfl
  rw [next_of_some hne h, advance, hs, List.take_left, List.drop_left, hp]

theorem next_of_lexeme {lexeme rest : List Char} {k : Kind}
    (hs : s.rest.dropWhile Text.isBlank = lexeme ++ rest)
    (h : classify s.pattern (lexeme ++ rest) = some (k, lexeme.length)) :
    ∃ offset s', s.next = (.ok (some (.ofLexeme k lexeme offset)), s') ∧ s'.rest = rest ∧
      s'.pattern = s.pattern := by
  rw [← skipBlanks_rest] at hs
  exact ⟨_, _, next_of_front hs h, rfl, rfl⟩

/-! ### Many pulls -/

/-- The next tokens of the stream, and the stream behind them. -/
inductive Yields : TokenStream → List Token → TokenStream → Prop where
  | nil {s : TokenStream} : Yields s [] s
  | cons {s s' s'' : TokenStream} {t : Token} {ts : List Token} (h : s.next = (.ok (some t), s'))
      (hs : Yields s' ts s'') : Yields s (t :: ts) s''

namespace Yields

theorem single (h : s.next = (.ok (some t), s')) : Yields s [t] s' := .cons h .nil

theorem append (h : Yields s ts s') (h' : Yields s' us s'') : Yields s (ts ++ us) s'' := by
  induction h with
  | nil => exact h'
  | cons hn _ ih => exact .cons hn (ih h')

theorem pattern_eq (h : Yields s ts s') : s'.pattern = s.pattern := by
  induction h with
  | nil => rfl
  | cons hn _ ih => rw [ih, pattern_of_next hn]

end Yields

/-- The stream gives no more tokens. -/
def Halts (s : TokenStream) : Prop := ∀ t, s.next.1 ≠ .ok (some t)

theorem Halts.of_error {e : Unrecognized} (h : s.next.1 = .error e) : s.Halts := by simp [Halts, h]

theorem Halts.of_end (h : s.next.1 = .ok none) : s.Halts := by simp [Halts, h]

/-- There is only one place at which a stream comes to a halt. -/
theorem Yields.unique (h : Yields s ts s') (h' : Yields s us s'') (hs : s'.Halts)
    (hs' : s''.Halts) : ts = us ∧ s' = s'' := by
  induction h generalizing us with
  | nil =>
    cases h' with
    | nil => exact ⟨rfl, rfl⟩
    | cons hn _ => exact absurd (congrArg Prod.fst hn) (hs _)
  | cons hn _ ih =>
    cases h' with
    | nil => exact absurd (congrArg Prod.fst hn) (hs' _)
    | cons hn' h' =>
      cases hn.symm.trans hn'
      obtain ⟨rfl, rfl⟩ := ih h' hs
      exact ⟨rfl, rfl⟩

/-- Enough pulls come to a halt, and their result is all that the stream yields before the end of
the text or the error before which it halts. -/
theorem exists_yields (found : List Token) {n : Nat} (hn : s.rest.length < n) :
    ∃ ts s', Yields s ts s' ∧ ((s'.next.1 = .ok none ∧ pull found n s = .ok (found.reverse ++ ts)) ∨
      ∃ e, s'.next.1 = .error e ∧ pull found n s = .error e) := by
  induction n generalizing s found with
  | zero => omega
  | succ n ih =>
    rcases hnext : s.next with ⟨e | _ | t, s'⟩
    · exact ⟨[], s, .nil, .inr ⟨e, by rw [hnext], by rw [pull, hnext]⟩⟩
    · exact ⟨[], s, .nil, .inl ⟨by rw [hnext], by rw [pull, hnext, List.append_nil]⟩⟩
    · have hlt : s'.rest.length < n := by
        have := rest_length_lt hnext
        omega
      obtain ⟨ts, s'', hy, h⟩ := ih (t :: found) hlt
      refine ⟨t :: ts, s'', .cons hnext hy, ?_⟩
      rw [pull, hnext]
      simpa using h

/-- The stream yields tokens up to a place where nothing is recognized. -/
def Fails (s : TokenStream) : Prop := ∃ ts s' e, Yields s ts s' ∧ s'.next.1 = .error e

theorem Yields.fails (h : Yields s ts s') (hs : s'.Fails) : s.Fails := by
  obtain ⟨us, s'', e, hy, he⟩ := hs
  exact ⟨ts ++ us, s'', e, h.append hy, he⟩

/-- All tokens of a stream are those that it yields up to the end of the text. -/
theorem tokens_eq_ok : s.tokens = .ok ts ↔ ∃ s', Yields s ts s' ∧ s'.next.1 = .ok none := by
  obtain ⟨us, s'', hy, h⟩ := exists_yields (s := s) [] (Nat.lt_succ_self _)
  constructor
  · intro hts
    rcases h with ⟨hend, hpull⟩ | ⟨e, -, hpull⟩
    · rw [tokens, hpull] at hts
      cases hts
      exact ⟨s'', hy, hend⟩
    · rw [tokens, hpull] at hts
      cases hts
  · rintro ⟨s', hy', hend'⟩
    have hhalts : s''.Halts := by
      rcases h with ⟨hend, -⟩ | ⟨e, he, -⟩
      · exact .of_end hend
      · exact .of_error he
    obtain ⟨rfl, rfl⟩ := hy'.unique hy (.of_end hend') hhalts
    rcases h with ⟨-, hpull⟩ | ⟨e, hend, -⟩
    · rw [tokens, hpull]
      rfl
    · rw [hend] at hend'
      cases hend'

/-- The tokens of a stream fail with the error before which it halts. -/
theorem tokens_eq_error {e : Unrecognized} :
    s.tokens = .error e ↔ ∃ ts s', Yields s ts s' ∧ s'.next.1 = .error e := by
  obtain ⟨us, s'', hy, h⟩ := exists_yields (s := s) [] (Nat.lt_succ_self _)
  constructor
  · intro hts
    rcases h with ⟨-, hpull⟩ | ⟨e', he', hpull⟩
    · rw [tokens, hpull] at hts
      cases hts
    · rw [tokens, hpull] at hts
      cases hts
      exact ⟨us, s'', hy, he'⟩
  · rintro ⟨ts, s', hy', he⟩
    have hhalts : s''.Halts := by
      rcases h with ⟨hend, -⟩ | ⟨e, he, -⟩
      · exact .of_end hend
      · exact .of_error he
    obtain ⟨rfl, rfl⟩ := hy'.unique hy (.of_error he) hhalts
    rcases h with ⟨hend, -⟩ | ⟨e', he', hpull⟩
    · rw [hend] at he
      cases he
    · rw [he'] at he
      cases he
      rw [tokens, hpull]

theorem Fails.tokens_ne_ok (h : s.Fails) : s.tokens ≠ .ok ts := by
  rw [Ne, tokens_eq_ok]
  rintro ⟨s', hy, hend⟩
  obtain ⟨us, s'', e, hy', he⟩ := h
  obtain ⟨rfl, rfl⟩ := hy.unique hy' (.of_end hend) (.of_error he)
  rw [hend] at he
  cases he

end TokenStream

end FilterLang
