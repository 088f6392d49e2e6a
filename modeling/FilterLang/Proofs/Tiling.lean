import FilterLang.Proofs.Pulling
import FilterLang.Proofs.RegexMatching

/-! Where tokens stand. After any number of pulls a stream is between two characters of its text,
and it never goes back. A pull that gives a token has passed over blanks to the offset of the token
and over its lexeme behind them, so the tokens of a text tile it: it is their lexemes, each at its
offset, with only blanks before, between and behind them. -/
namespace FilterLang

/-! ### Places in a text -/

namespace Text

/-- From byte `i` to byte `j` of the text stands `u`. -/
def Spans (cs : List Char) (i : Nat) (u : List Char) (j : Nat) : Prop :=
  ∃ front back, cs = front ++ u ++ back ∧ utf8Length front = i ∧ i + utf8Length u = j

/-- The byte offset is between two characters or at an end of the text. -/
def IsBoundary (cs : List Char) (i : Nat) : Prop :=
  ∃ front back, cs = front ++ back ∧ utf8Length front = i

theorem IsBoundary.le {cs : List Char} {i : Nat} (h : IsBoundary cs i) : i ≤ utf8Length cs := by
  obtain ⟨front, back, rfl, rfl⟩ := h
  simp

theorem utf8Length_pos {cs : List Char} (h : cs ≠ []) : 0 < utf8Length cs := by
  obtain ⟨c, cs, rfl⟩ := List.exists_cons_of_ne_nil h
  have := Char.utf8Size_pos c
  rw [utf8Length_cons]
  omega

/-- A beginning of a text is determined by its length in bytes. -/
theorem eq_of_utf8Length_eq {u v cs : List Char} (hu : u <+: cs) (hv : v <+: cs)
    (h : utf8Length u = utf8Length v) : u = v := by
  have hfront : ∀ {u v : List Char}, u <+: v → utf8Length u = utf8Length v → u = v := by
    rintro u v ⟨w, rfl⟩ h
    have hw : ¬ w ≠ [] := fun hne => by
      have := utf8Length_pos hne
      rw [utf8Length_append] at h
      omega
    rw [not_not.mp hw, List.append_nil]
  rcases List.prefix_or_prefix_of_prefix hu hv with hp | hp
  · exact hfront hp h
  · exact (hfront hp h.symm).symm

end Text

/-! ### Lexemes of tokens -/

theorem Lexeme.number_le {cs : List Char} {n : Nat} (h : number cs = some n) : n ≤ cs.length := by
  have hsplit := congrArg List.length (@List.takeWhile_append_dropWhile _ Char.isDigit cs)
  rw [List.length_append] at hsplit
  simp only [number] at h
  split_ifs at h
  split at h
  next rest hrest =>
    have hfraction := (List.takeWhile_prefix (l := rest) Char.isDigit).length_le
    rw [hrest, List.length_cons] at hsplit
    cases h
    split_ifs <;> omega
  next =>
    cases h
    omega

/-- A lexeme is part of the text. -/
theorem Kind.reach_le {p : VariablePattern} {k : Kind} {cs : List Char} {n : Nat}
    (h : k.reach p cs = some n) : n ≤ cs.length := by
  have hsymbol : ∀ {s : String}, Lexeme.symbol s cs = some n → n ≤ cs.length := by
    intro s h
    obtain ⟨hp, rfl⟩ := Lexeme.symbol_eq_some.mp h
    exact hp.length_le
  have hword : ∀ {s s' : String},
      (Lexeme.word s cs <|> Lexeme.word s' cs) = some n → n ≤ cs.length := by
    intro s s' h
    rw [Option.orElse_eq_orElse, Option.orElse_eq_or, Option.or_eq_some_iff] at h
    rcases h with h | ⟨-, h⟩
    all_goals
      obtain ⟨⟨rest, rfl, -⟩, rfl⟩ := Lexeme.word_eq_some.mp h
      rw [List.length_append]
      exact Nat.le_add_right _ _
  cases k with
  | blank =>
    simp only [Kind.reach, Lexeme.blanks] at h
    split_ifs at h
    cases h
    exact (List.takeWhile_prefix _).length_le
  | operator op =>
    cases op with
    | and => exact hword h
    | _ => exact hsymbol h
  | literal kind =>
    cases kind with
    | number => exact Lexeme.number_le h
    | string =>
      obtain ⟨s, rest, rfl, -, rfl⟩ := Lexeme.quoted_eq_some.mp h
      simp
    | boolean => exact hword h
    | var => exact Regex.le_of_search (Option.filter_eq_some_iff.mp h).1
  | leftParen => exact hsymbol h
  | rightParen => exact hsymbol h

namespace Token

theorem ofLexeme_of_ne {k : Kind} (h : k ≠ .literal .string) (lexeme : List Char) (offset : Nat) :
    ofLexeme k lexeme offset = ⟨k, String.ofList lexeme, offset⟩ := by
  unfold ofLexeme
  split
  · contradiction
  · rfl

theorem lexeme_of_ne {t : Token} (h : t.kind ≠ .literal .string) : t.lexeme = t.text := by
  unfold lexeme
  split
  · contradiction
  · rfl

/-- A lexeme of the kind, with the offset put in, is the token. -/
theorem ofLexeme_lexeme (t : Token) (offset : Nat) :
    ofLexeme t.kind t.lexeme.toList offset = { t with offset } := by
  by_cases hk : t.kind = .literal .string
  · simp [ofLexeme, lexeme, hk]
  · rw [ofLexeme_of_ne hk, lexeme_of_ne hk, String.ofList_toList]

theorem kind_ofLexeme (k : Kind) (lexeme : List Char) (offset : Nat) :
    (ofLexeme k lexeme offset).kind = k := by
  unfold ofLexeme
  split <;> rfl

theorem offset_ofLexeme (k : Kind) (lexeme : List Char) (offset : Nat) :
    (ofLexeme k lexeme offset).offset = offset := by
  unfold ofLexeme
  split <;> rfl

/-- The lexeme of a token is what it was made of. -/
theorem lexeme_ofLexeme {p : VariablePattern} {k : Kind} {cs : List Char} {n : Nat}
    (h : k.reach p cs = some n) (offset : Nat) :
    (ofLexeme k (cs.take n) offset).lexeme.toList = cs.take n := by
  by_cases hk : k = .literal .string
  · subst hk
    obtain ⟨s, rest, rfl, -, rfl⟩ := Lexeme.quoted_eq_some.mp h
    rw [take_to_quote]
    simp [ofLexeme, lexeme]
  · rw [ofLexeme_of_ne hk, lexeme_of_ne hk, String.toList_ofList]

end Token

namespace TokenStream

variable {s s' s'' : TokenStream} {t : Token} {ts : List Token} {text : List Char}

/-! ### One pull -/

theorem advance_advance (s : TokenStream) (m n : Nat) :
    (s.advance m).advance n = s.advance (m + n) := by
  simp [advance, List.take_add, Nat.add_assoc]

/-- A pull does nothing to the stream but to advance it. -/
theorem exists_next_eq_advance (s : TokenStream) : ∃ n, s.next.2 = s.advance n := by
  by_cases hne : s.skipBlanks.rest = []
  · exact ⟨_, by rw [next_of_nil hne]; rfl⟩
  cases hc : classify s.pattern s.skipBlanks.rest with
  | none => exact ⟨_, by rw [next_of_none hne hc]; rfl⟩
  | some found => exact ⟨_, by rw [next_of_some hne hc]; exact advance_advance ..⟩

/-- The stream has passed a first part of the text and has the rest of it left. -/
def Within (s : TokenStream) (text : List Char) : Prop :=
  ∃ front, text = front ++ s.rest ∧ Text.utf8Length front = s.position

theorem Within.advance (h : s.Within text) (n : Nat) : (s.advance n).Within text := by
  obtain ⟨front, rfl, hpos⟩ := h
  exact ⟨front ++ s.rest.take n, by simp [TokenStream.advance], by simp [TokenStream.advance, hpos]⟩

theorem Within.next (h : s.Within text) : s.next.2.Within text := by
  obtain ⟨n, hn⟩ := exists_next_eq_advance s
  rw [hn]
  exact h.advance n

theorem position_le_next (s : TokenStream) : s.position ≤ s.next.2.position := by
  obtain ⟨n, hn⟩ := exists_next_eq_advance s
  rw [hn]
  exact Nat.le_add_right _ _

theorem Within.isBoundary (h : s.Within text) : Text.IsBoundary text s.position := by
  obtain ⟨front, htext, hpos⟩ := h
  exact ⟨front, s.rest, htext, hpos⟩

theorem Within.skipBlanks (h : s.Within text) : s.skipBlanks.Within text := h.advance _

/-- What is left stands at the end of the text. -/
theorem Within.spans (h : s.Within text) :
    Text.Spans text s.position s.rest (Text.utf8Length text) := by
  obtain ⟨front, rfl, hpos⟩ := h
  exact ⟨front, [], by simp, hpos, by simp [hpos]⟩

theorem skipBlanks_head (s : TokenStream) :
    ∀ c ∈ s.skipBlanks.rest.head?, Text.isBlank c = false := by
  intro c hc
  have hnot := List.head?_dropWhile_not Text.isBlank s.rest
  rw [skipBlanks_rest] at hc
  rwa [hc] at hnot

theorem skipBlanks_position (s : TokenStream) :
    s.skipBlanks.position = s.position + Text.utf8Length (s.rest.takeWhile Text.isBlank) := by
  have htake := List.prefix_iff_eq_take.mp (List.takeWhile_prefix (l := s.rest) Text.isBlank)
  rw [skipBlanks, advance, ← htake]

theorem reach_blank_eq_none {p : VariablePattern} {cs : List Char}
    (h : ∀ c ∈ cs.head?, Text.isBlank c = false) : Kind.blank.reach p cs = none := by
  cases cs with
  | nil => rfl
  | cons c cs => simp [Kind.reach, Lexeme.blanks, h c rfl]

/-- Blanks and then the lexeme of the token, at its offset, lead from the first stream to the
second one. -/
structure Finds (s : TokenStream) (blanks : List Char) (t : Token) (s' : TokenStream) : Prop where
  blank : ∀ c ∈ blanks, Text.isBlank c
  rest : s.rest = blanks ++ t.lexeme.toList ++ s'.rest
  offset : t.offset = s.position + Text.utf8Length blanks
  position : s'.position = t.offset + Text.utf8Length t.lexeme.toList
  lexeme : t.lexeme.toList ≠ []
  kind : t.kind ≠ .blank

theorem exists_finds (h : s.next = (.ok (some t), s')) : ∃ blanks, s.Finds blanks t s' := by
  obtain ⟨k, n, hc, hne, rfl, rfl⟩ := exists_of_next h
  have hreach := classify_fits hc
  have hlexeme := Token.lexeme_ofLexeme hreach s.skipBlanks.position
  refine ⟨s.rest.takeWhile Text.isBlank, fun c hc => List.mem_takeWhile_imp hc, ?_, ?_, ?_, ?_, ?_⟩
  · have hdrop : s.rest.dropWhile Text.isBlank = s.skipBlanks.rest := s.skipBlanks_rest.symm
    rw [hlexeme, List.append_assoc, advance, List.take_append_drop, ← hdrop,
      List.takeWhile_append_dropWhile]
  · rw [Token.offset_ofLexeme, skipBlanks_position]
  · rw [hlexeme, Token.offset_ofLexeme]
    rfl
  · have hpos := Kind.reach_pos hreach
    rw [hlexeme]
    simp [hne]
    omega
  · rw [Token.kind_ofLexeme]
    rintro rfl
    rw [reach_blank_eq_none s.skipBlanks_head] at hreach
    contradiction

/-- A stream at its end has only blanks left. -/
theorem isBlank_of_end (h : s.next.1 = .ok none) : ∀ c ∈ s.rest, Text.isBlank c := by
  by_cases hne : s.skipBlanks.rest = []
  · rw [skipBlanks_rest] at hne
    exact List.dropWhile_eq_nil_iff.mp hne
  cases hc : classify s.pattern s.skipBlanks.rest with
  | none =>
    rw [next_of_none hne hc] at h
    cases h
  | some found =>
    rw [next_of_some hne hc] at h
    cases h

namespace Finds

variable {blanks : List Char}

theorem offset_lt (h : s.Finds blanks t s') : t.offset < s'.position := by
  rw [h.position]
  have := Text.utf8Length_pos h.lexeme
  omega

/-- What a pull finds stands in the text. -/
theorem spans (h : s.Finds blanks t s') (hs : s.Within text) :
    Text.Spans text s.position blanks t.offset ∧
      Text.Spans text t.offset t.lexeme.toList s'.position := by
  obtain ⟨front, rfl, hpos⟩ := hs
  constructor
  · exact ⟨front, t.lexeme.toList ++ s'.rest, by simp [h.rest], hpos, h.offset.symm⟩
  · refine ⟨front ++ blanks, s'.rest, by simp [h.rest], ?_, h.position.symm⟩
    rw [Text.utf8Length_append, hpos, h.offset]

end Finds

/-! ### Many pulls -/

/-- The stream behind `n` pulls, whatever they give. -/
def afterPulls (s : TokenStream) : Nat → TokenStream
  | 0 => s
  | n + 1 => (s.afterPulls n).next.2

theorem Within.afterPulls (h : s.Within text) (n : Nat) : (s.afterPulls n).Within text := by
  induction n with
  | zero => exact h
  | succ n ih => exact ih.next

theorem pattern_afterPulls (s : TokenStream) (n : Nat) : (s.afterPulls n).pattern = s.pattern := by
  induction n with
  | zero => rfl
  | succ n ih =>
    obtain ⟨m, hm⟩ := exists_next_eq_advance (s.afterPulls n)
    rw [afterPulls, hm]
    exact ih

theorem Yields.within (h : Yields s ts s') (hs : s.Within text) : s'.Within text := by
  induction h with
  | nil => exact hs
  | cons hn _ ih =>
    have hnext := hs.next
    rw [hn] at hnext
    exact ih hnext

theorem ofText_within (p : VariablePattern) (text : List Char) : (ofText p text).Within text :=
  ⟨[], rfl, rfl⟩

/-- From byte `i` on the text is blanks and the lexeme of the first token, at its offset, then so on
for the other tokens, and blanks in the end. -/
def Tiles : List Token → Nat → List Char → Prop
  | [], _, cs => ∀ c ∈ cs, Text.isBlank c
  | t :: ts, i, cs => ∃ blanks rest, cs = blanks ++ t.lexeme.toList ++ rest ∧
      (∀ c ∈ blanks, Text.isBlank c) ∧ t.kind ≠ .blank ∧ t.offset = i + Text.utf8Length blanks ∧
      Tiles ts (t.offset + Text.utf8Length t.lexeme.toList) rest

theorem Yields.tiles (h : Yields s ts s') (hend : s'.next.1 = .ok none) :
    Tiles ts s.position s.rest := by
  induction h with
  | nil => exact isBlank_of_end hend
  | cons hn _ ih =>
    obtain ⟨blanks, hf⟩ := exists_finds hn
    refine ⟨blanks, _, hf.rest, hf.blank, hf.kind, hf.offset, ?_⟩
    rw [← hf.position]
    exact ih hend

/-- Each token lies behind the place where the stream is, and behind the tokens before it. -/
theorem Yields.ordered (h : Yields s ts s') : (∀ t ∈ ts, s.position ≤ t.offset) ∧
    ts.Pairwise fun t u => t.offset < u.offset ∧
      t.offset + Text.utf8Length t.lexeme.toList ≤ u.offset := by
  induction h with
  | nil => simp
  | cons hn _ ih =>
    obtain ⟨blanks, hf⟩ := exists_finds hn
    have hlt := hf.offset_lt
    have hoffset := hf.offset
    have hposition := hf.position
    constructor
    · refine List.forall_mem_cons.mpr ⟨by omega, fun u hu => ?_⟩
      have := ih.1 u hu
      omega
    · refine List.pairwise_cons.mpr ⟨fun u hu => ?_, ih.2⟩
      have := ih.1 u hu
      omega

/-- A stream over a text is always at a boundary, never goes back, and finds a token behind blanks;
all its tokens tile the text. -/
theorem pulls_tile (p : VariablePattern) (text : List Char) :
    (∀ n, let s := (ofText p text).afterPulls n
      Text.IsBoundary text s.position ∧ s.position ≤ Text.utf8Length text ∧
        s.position ≤ s.next.2.position ∧
        ∀ t, s.next.1 = .ok (some t) → t.kind ≠ .blank ∧ t.offset < s.next.2.position ∧
          Text.Spans text t.offset t.lexeme.toList s.next.2.position ∧
          ∃ blanks, (∀ c ∈ blanks, Text.isBlank c) ∧
            Text.Spans text s.position blanks t.offset) ∧
    ∀ ts, tokenize p text = .ok ts → Tiles ts 0 text ∧
      ts.Pairwise fun t u => t.offset < u.offset ∧
        t.offset + Text.utf8Length t.lexeme.toList ≤ u.offset := by
  constructor
  · intro n s
    have hs : s.Within text := (ofText_within p text).afterPulls n
    refine ⟨hs.isBoundary, hs.isBoundary.le, s.position_le_next, fun t ht => ?_⟩
    obtain ⟨blanks, hf⟩ := exists_finds (Prod.ext ht rfl : s.next = (.ok (some t), s.next.2))
    obtain ⟨hblanks, hlexeme⟩ := hf.spans hs
    exact ⟨hf.kind, hf.offset_lt, hlexeme, blanks, hf.blank, hblanks⟩
  · intro ts hts
    obtain ⟨s', hy, hend⟩ := tokens_eq_ok.mp hts
    exact ⟨hy.tiles hend, hy.ordered.2⟩

/-- A wide blank, a string with an accent in it, and a number at the end of the text. -/
theorem pulls_tile_wide :
    let text := "\u3000\"é\"<=1".toList
    let ts : List Token := [⟨.literal .string, "é", 3⟩, ⟨.operator .le, "<=", 7⟩,
      ⟨.literal .number, "1", 9⟩]
    tokenize .default text = .ok ts ∧ Tiles ts 0 text := by
  intro text ts
  have hts : tokenize .default text = .ok ts := by decide +kernel
  exact ⟨hts, ((pulls_tile .default text).2 ts hts).1⟩

end TokenStream

end FilterLang
