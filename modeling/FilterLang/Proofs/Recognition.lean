import FilterLang.Proofs.NumeralText
import FilterLang.Proofs.Tiling

/-! The rules by which a lexeme is recognised, told without the order in which kinds are tried:
which kind applies at the front of a text, and how far its lexeme extends. At most one kind applies;
a stream hands out a token of that kind with that lexeme, and fails at the first place at which none
applies. -/
namespace FilterLang

variable {p : VariablePattern} {r u v : List Char} {k : Kind} {n : Nat}

/-! ### Rules -/

namespace Lexeme

/-- The text begins with a Boolean. -/
def BooleanAt (r : List Char) : Prop := StandsAlone "true" r ∨ StandsAlone "false" r

/-- Digits, or digits with a point between them. -/
def IsNumeral (u : List Char) : Prop := ∃ w f, PlainNumeral u w f

structure LongestNumeral (r u : List Char) : Prop where
  front : u <+: r
  numeral : IsNumeral u
  longest : ∀ v, v <+: r → IsNumeral v → v.length ≤ u.length

end Lexeme

/-- The text begins with the operator. -/
def Operator.StandsAt (r : List Char) : Operator → Prop
  | .and => Lexeme.StandsAlone "and" r ∨ Lexeme.StandsAlone "AND" r
  | .lt => "<".toList <+: r ∧ ¬ "<=".toList <+: r
  | .gt => ">".toList <+: r ∧ ¬ ">=".toList <+: r
  | op => op.symbol.toList <+: r

/-- The text begins with neither an operator nor a Boolean. -/
def Lexeme.Unreserved (r : List Char) : Prop := (∀ op : Operator, ¬ op.StandsAt r) ∧ ¬ BooleanAt r

/-- The text begins with neither an operator nor a Boolean nor a variable. -/
def Lexeme.Unnamed (p : VariablePattern) (r : List Char) : Prop :=
  Unreserved r ∧ p.matchLength? (.ofList r) = none

/-- A token of this kind is at the front of a text that does not begin with a blank. -/
def Kind.Applies (p : VariablePattern) (r : List Char) : Kind → Prop
  | .blank => False
  | .operator op => op.StandsAt r
  | .literal .boolean => Lexeme.BooleanAt r
  | .literal .var => Lexeme.Unreserved r ∧ (p.matchLength? (.ofList r)).isSome
  | .literal .number => Lexeme.Unnamed p r ∧ ∃ c ∈ r.head?, c.isDigit
  | .literal .string => Lexeme.Unnamed p r ∧ ∃ rest, r = '"' :: rest ∧ '"' ∈ rest
  | .leftParen => Lexeme.Unnamed p r ∧ ∃ rest, r = '(' :: rest
  | .rightParen => Lexeme.Unnamed p r ∧ ∃ rest, r = ')' :: rest

/-- The beginning `u` of the text is the lexeme, where the kind applies. -/
def Kind.Extends (p : VariablePattern) (r u : List Char) : Kind → Prop
  | .blank => False
  | .operator .and => u = "and".toList ∨ u = "AND".toList
  | .operator op => u = op.symbol.toList
  | .literal .boolean => u = "true".toList ∨ u = "false".toList
  | .literal .var => p.matchLength? (.ofList r) = some (Text.utf8Length u)
  | .literal .number => Lexeme.LongestNumeral r u
  | .literal .string => ∃ s, u = '"' :: (s ++ ['"']) ∧ '"' ∉ s
  | .leftParen => u = ['(']
  | .rightParen => u = [')']

/-! ### Numerals -/

namespace Lexeme

theorem prefix_takeWhile {q : Char → Bool} (h : u <+: r) (hu : ∀ c ∈ u, q c) :
    u <+: r.takeWhile q := by
  obtain ⟨rest, rfl⟩ := h
  rw [List.takeWhile_append_of_pos hu]
  exact List.prefix_append u _

/-- What a numeral at the front of a text can be. -/
theorem IsNumeral.front (h : IsNumeral v) (hv : v <+: r) :
    v <+: r.takeWhile Char.isDigit ∨ ∃ f rest, r.dropWhile Char.isDigit = '.' :: rest ∧ f ≠ [] ∧
      f <+: rest.takeWhile Char.isDigit ∧ v = r.takeWhile Char.isDigit ++ '.' :: f := by
  obtain ⟨w, f, hplain⟩ := h
  cases hplain with
  | integer _ hw => exact .inl (prefix_takeWhile hv hw)
  | point _ hw hfne hf =>
    obtain ⟨rest, rfl⟩ := hv
    rw [List.append_assoc, List.cons_append, takeWhile_isDigit_point hw, dropWhile_isDigit_point hw]
    exact .inr ⟨f, f ++ rest, rfl, hfne, prefix_takeWhile (List.prefix_append f rest) hf, rfl⟩

/-- Where a digit is, the longest numeral is found. -/
theorem exists_longestNumeral (h : ∃ c ∈ r.head?, c.isDigit) :
    ∃ u, LongestNumeral r u ∧ number r = some u.length := by
  have hne : r.takeWhile Char.isDigit ≠ [] := by
    obtain ⟨c, hc, hdigit⟩ := h
    obtain ⟨cs, rfl⟩ := List.head?_eq_some_iff.mp hc
    simp [hdigit]
  have hdigits : ∀ q, ∀ d ∈ List.takeWhile Char.isDigit q, d.isDigit :=
    fun q d hd => List.mem_takeWhile_imp hd
  have hlength := mt List.length_eq_zero_iff.mp hne
  have hsplit := @List.takeWhile_append_dropWhile _ Char.isDigit r
  by_cases hpoint : ∃ rest, r.dropWhile Char.isDigit = '.' :: rest ∧
      rest.takeWhile Char.isDigit ≠ []
  · obtain ⟨rest, hrest, hfne⟩ := hpoint
    rw [hrest] at hsplit
    refine ⟨r.takeWhile Char.isDigit ++ '.' :: rest.takeWhile Char.isDigit,
      ⟨?_, ⟨_, _, .point hne (hdigits _) hfne (hdigits _)⟩, fun v hv hn => ?_⟩, ?_⟩
    · obtain ⟨tail, htail⟩ := List.takeWhile_prefix (l := rest) Char.isDigit
      exact ⟨tail, by rw [List.append_assoc, List.cons_append, htail, hsplit]⟩
    · rcases hn.front hv with hv | ⟨f, rest', hrest', -, hf, rfl⟩
      · have := hv.length_le
        rw [List.length_append]
        omega
      · cases hrest.symm.trans hrest'
        simpa using hf.length_le
    · have hfraction := mt List.length_eq_zero_iff.mp hfne
      simp only [number, hlength, hrest, hfraction, if_false, List.length_append, List.length_cons,
        Option.some.injEq]
      omega
  · refine ⟨_, ⟨List.takeWhile_prefix _, ⟨_, _, .integer hne (hdigits _)⟩, fun v hv hn => ?_⟩, ?_⟩
    · rcases hn.front hv with hv | ⟨f, rest, hrest, hfne, hf, -⟩
      · exact hv.length_le
      · exact absurd ⟨rest, hrest, fun h => hfne (List.prefix_nil.mp (h ▸ hf))⟩ hpoint
    · simp only [number, hlength, if_false]
      split
      next rest hrest =>
        have hnil : rest.takeWhile Char.isDigit = [] := by
          by_contra hfne
          exact hpoint ⟨rest, hrest, hfne⟩
        simp [hnil]
      next => rfl

theorem LongestNumeral.unique (hu : LongestNumeral r u) (hv : LongestNumeral r v) : u = v := by
  have hle : u.length ≤ v.length := hv.longest u hu.front hu.numeral
  have hge : v.length ≤ u.length := hu.longest v hv.front hv.numeral
  exact (List.prefix_of_prefix_length_le hu.front hv.front hle).eq_of_length (le_antisymm hle hge)

theorem LongestNumeral.head (h : LongestNumeral r u) : ∃ c ∈ r.head?, c.isDigit := by
  obtain ⟨w, f, hplain⟩ := h.numeral
  obtain ⟨c, cs, rfl, hc⟩ := hplain.head_isDigit
  obtain ⟨rest, rfl⟩ := h.front
  exact ⟨c, rfl, hc⟩

theorem number_eq_some (h : LongestNumeral r u) : number r = some u.length := by
  obtain ⟨v, hv, hn⟩ := exists_longestNumeral h.head
  rw [hn, h.unique hv]

theorem number_eq_none (h : ¬ ∃ c ∈ r.head?, c.isDigit) : number r = none := by
  cases r with
  | nil => rfl
  | cons c cs =>
    have hc : c.isDigit = false := by simpa using h
    simp [number, hc]

end Lexeme

/-! ### Variables -/

namespace VariablePattern

theorem reach_le (h : p.reach r = some n) : n ≤ r.length := @Kind.reach_le p (.literal .var) r n h

theorem matchLength?_eq_none : p.matchLength? (.ofList r) = none ↔ p.reach r = none := by
  rw [matchLength?, String.toList_ofList, Option.map_eq_none_iff]

theorem matchLength?_eq_some (hu : u <+: r) :
    p.matchLength? (.ofList r) = some (Text.utf8Length u) ↔ p.reach r = some u.length := by
  rw [matchLength?, String.toList_ofList, Option.map_eq_some_iff]
  constructor
  · rintro ⟨n, hn, hlength⟩
    have hle := reach_le hn
    rw [← Text.eq_of_utf8Length_eq (List.take_prefix n r) hu hlength, List.length_take,
      Nat.min_eq_left hle, hn]
  · intro h
    exact ⟨_, h, by rw [← List.prefix_iff_eq_take.mp hu]⟩

end VariablePattern

/-! ### Operators and Booleans -/

namespace Lexeme

variable {w w' : String} {c : Char} {cs : List Char}

theorem words_eq_none_iff :
    (word w r <|> word w' r) = none ↔ ¬ (StandsAlone w r ∨ StandsAlone w' r) := by
  have hnone : ∀ {w : String}, word w r = none ↔ ¬ StandsAlone w r := by
    intro w
    rw [Option.eq_none_iff_forall_ne_some]
    exact ⟨fun h hw => h _ (word_eq_some.mpr ⟨hw, rfl⟩), fun h n hn => h (word_eq_some.mp hn).1⟩
  rw [Option.orElse_eq_orElse, Option.orElse_eq_or, Option.or_eq_none_iff, hnone, hnone, not_or]

theorem words_left (h : StandsAlone w r) : (word w r <|> word w' r) = some w.length := by
  rw [word_eq_some.mpr ⟨h, rfl⟩]
  rfl

theorem words_right (hw : word w r = none) (h : StandsAlone w' r) :
    (word w r <|> word w' r) = some w'.length := by
  rw [hw, word_eq_some.mpr ⟨h, rfl⟩]
  rfl

end Lexeme

/-- The kind with priority `i` is found where it fits and, as can be computed, no kind before it. -/
theorem classify_of_all (i : Nat) (hk : Kind.byPriority[i]? = some k)
    (hearlier : (Kind.byPriority.take i).all fun k => (k.reach p r).isNone)
    (h : k.reach p r = some n) : classify p r = some (k, n) :=
  classify_of_earlier i hk
    (fun k' hk' => Option.isNone_iff_eq_none.mp (List.all_eq_true.mp hearlier k' hk')) h

/-- A text that begins with an operator is recognised as beginning with it. -/
theorem Operator.StandsAt.classify_eq {op : Operator} (h : op.StandsAt r) :
    ∃ u, u <+: r ∧ (Kind.operator op).Extends p r u ∧
      classify p r = some (.operator op, u.length) := by
  cases op with
  | and =>
    rcases h with ⟨rest, rfl, hrest⟩ | ⟨rest, rfl, hrest⟩
    · exact ⟨_, List.prefix_append _ _, .inl rfl,
        classify_of_all 7 rfl rfl (Lexeme.words_left ⟨rest, rfl, hrest⟩)⟩
    · exact ⟨_, List.prefix_append _ _, .inr rfl,
        classify_of_all 7 rfl rfl (Lexeme.words_right rfl ⟨rest, rfl, hrest⟩)⟩
  | lt =>
    obtain ⟨⟨rest, rfl⟩, hnot⟩ := h
    refine ⟨_, List.prefix_append _ _, rfl, classify_of_earlier 5 rfl ?_ rfl⟩
    simp only [Kind.byPriority, List.take, List.forall_mem_cons]
    exact ⟨rfl, Lexeme.symbol_eq_none_iff.mpr hnot, rfl, rfl, rfl, by simp⟩
  | gt =>
    obtain ⟨⟨rest, rfl⟩, hnot⟩ := h
    refine ⟨_, List.prefix_append _ _, rfl, classify_of_earlier 6 rfl ?_ rfl⟩
    simp only [Kind.byPriority, List.take, List.forall_mem_cons]
    exact ⟨rfl, rfl, Lexeme.symbol_eq_none_iff.mpr hnot, rfl, rfl, rfl, by simp⟩
  | _ =>
    obtain ⟨rest, rfl⟩ := h
    exact ⟨_, List.prefix_append _ _, rfl, rfl⟩

theorem Lexeme.BooleanAt.classify_eq (h : BooleanAt r) :
    ∃ u, u <+: r ∧ (Kind.literal .boolean).Extends p r u ∧
      classify p r = some (.literal .boolean, u.length) := by
  rcases h with ⟨rest, rfl, hrest⟩ | ⟨rest, rfl, hrest⟩
  · exact ⟨_, List.prefix_append _ _, .inl rfl,
      classify_of_all 8 rfl rfl (words_left ⟨rest, rfl, hrest⟩)⟩
  · exact ⟨_, List.prefix_append _ _, .inr rfl,
      classify_of_all 8 rfl rfl (words_right rfl ⟨rest, rfl, hrest⟩)⟩

/-- Where an operator fits, one stands: this one or the longer one that begins like it. -/
theorem Operator.exists_standsAt {op : Operator} (h : (Kind.operator op).reach p r ≠ none) :
    ∃ op : Operator, op.StandsAt r := by
  have hfront : ∀ {s : String}, Lexeme.symbol s r ≠ none → s.toList <+: r :=
    fun hs => not_not.mp (mt Lexeme.symbol_eq_none_iff.mpr hs)
  cases op with
  | and => exact ⟨.and, not_not.mp (mt Lexeme.words_eq_none_iff.mpr h)⟩
  | lt =>
    by_cases hle : "<=".toList <+: r
    · exact ⟨.le, hle⟩
    · exact ⟨.lt, hfront h, hle⟩
  | gt =>
    by_cases hge : ">=".toList <+: r
    · exact ⟨.ge, hge⟩
    · exact ⟨.gt, hfront h, hge⟩
  | le => exact ⟨.le, hfront h⟩
  | ge => exact ⟨.ge, hfront h⟩
  | eq => exact ⟨.eq, hfront h⟩
  | ne => exact ⟨.ne, hfront h⟩

/-- The kinds that are tried before variables do not fit where nothing is reserved. -/
theorem Lexeme.Unreserved.reach_eq_none (h : Unreserved r)
    (hblank : ∀ c ∈ r.head?, Text.isBlank c = false) :
    ∀ k ∈ Kind.byPriority.take 9, k.reach p r = none := by
  have hop : ∀ op : Operator, (Kind.operator op).reach p r = none := fun op => by
    by_contra hne
    obtain ⟨op', hop'⟩ := Operator.exists_standsAt hne
    exact h.1 op' hop'
  simp only [Kind.byPriority, List.take, List.forall_mem_cons]
  exact ⟨TokenStream.reach_blank_eq_none hblank, hop _, hop _, hop _, hop _, hop _, hop _, hop _,
    words_eq_none_iff.mpr h.2, by simp⟩

/-- The kinds that are tried before numbers do not fit where nothing is reserved or named. -/
theorem Lexeme.Unnamed.reach_eq_none (h : Unnamed p r)
    (hblank : ∀ c ∈ r.head?, Text.isBlank c = false) :
    ∀ k ∈ Kind.byPriority.take 10, k.reach p r = none := by
  have hvar : (Kind.literal .var).reach p r = none := VariablePattern.matchLength?_eq_none.mp h.2
  exact List.forall_mem_append.mpr ⟨h.1.reach_eq_none hblank, List.forall_mem_singleton.mpr hvar⟩

/-- Where nothing is reserved or named, the kind with priority `i` is found where it fits and, as can
be computed, no kind between variables and it. -/
theorem Lexeme.Unnamed.classify_eq (hnamed : Unnamed p r)
    (hblank : ∀ c ∈ r.head?, Text.isBlank c = false) (i : Nat) (hk : Kind.byPriority[i]? = some k)
    (hbetween : ((Kind.byPriority.take i).drop 10).all fun k => (k.reach p r).isNone)
    (h : k.reach p r = some n) : classify p r = some (k, n) := by
  refine classify_of_earlier i hk (fun k' hk' => ?_) h
  rw [← List.take_append_drop 10 (Kind.byPriority.take i), List.mem_append, List.take_take] at hk'
  rcases hk' with hfirst | hlater
  · exact hnamed.reach_eq_none hblank k' ((List.take_prefix_take_left (min_le_left 10 i)).subset hfirst)
  · exact Option.isNone_iff_eq_none.mp (List.all_eq_true.mp hbetween k' hlater)

/-! ### The kind and its lexeme -/

/-- A kind that applies is found with its lexeme. -/
theorem Kind.Applies.classify_eq (h : k.Applies p r)
    (hblank : ∀ c ∈ r.head?, Text.isBlank c = false) :
    ∃ u, u <+: r ∧ k.Extends p r u ∧ classify p r = some (k, u.length) := by
  cases k with
  | blank => exact h.elim
  | operator op => exact Operator.StandsAt.classify_eq h
  | literal kind =>
    cases kind with
    | boolean => exact Lexeme.BooleanAt.classify_eq h
    | var =>
      obtain ⟨hres, hsome⟩ := h
      obtain ⟨n, hn⟩ : ∃ n, p.reach r = some n := by
        rw [← Option.ne_none_iff_exists', Ne, ← VariablePattern.matchLength?_eq_none]
        exact Option.isSome_iff_ne_none.mp hsome
      have htake : (r.take n).length = n := by
        rw [List.length_take, Nat.min_eq_left (VariablePattern.reach_le hn)]
      refine ⟨r.take n, List.take_prefix n r, ?_, ?_⟩
      · exact (VariablePattern.matchLength?_eq_some (List.take_prefix n r)).mpr (by rw [htake, hn])
      · rw [htake]
        exact classify_of_earlier 9 rfl (hres.reach_eq_none hblank) hn
    | number =>
      obtain ⟨hnamed, hdigit⟩ := h
      obtain ⟨u, hu, hn⟩ := Lexeme.exists_longestNumeral hdigit
      exact ⟨u, hu.front, hu, hnamed.classify_eq hblank 10 rfl rfl hn⟩
    | string =>
      obtain ⟨hnamed, rest, rfl, hquote⟩ := h
      obtain ⟨s, tail, rfl, hs⟩ := List.eq_append_cons_of_mem hquote
      exact ⟨'"' :: (s ++ ['"']), ⟨tail, by simp⟩, ⟨s, rfl, hs⟩, hnamed.classify_eq hblank 11 rfl rfl
        (Lexeme.quoted_eq_some.mpr ⟨s, tail, rfl, hs, by simp⟩)⟩
  | leftParen =>
    obtain ⟨hnamed, rest, rfl⟩ := h
    exact ⟨['('], ⟨rest, rfl⟩, rfl, hnamed.classify_eq hblank 12 rfl rfl rfl⟩
  | rightParen =>
    obtain ⟨hnamed, rest, rfl⟩ := h
    exact ⟨[')'], ⟨rest, rfl⟩, rfl, hnamed.classify_eq hblank 13 rfl rfl rfl⟩

theorem Kind.Applies.unique {k' : Kind} (h : k.Applies p r) (h' : k'.Applies p r)
    (hblank : ∀ c ∈ r.head?, Text.isBlank c = false) : k = k' := by
  obtain ⟨u, -, -, hc⟩ := h.classify_eq hblank
  obtain ⟨v, -, -, hc'⟩ := h'.classify_eq hblank
  exact congrArg Prod.fst (Option.some.inj (hc.symm.trans hc'))

/-- Where no kind applies, none is found. -/
theorem classify_of_not_applies (h : ∀ k : Kind, ¬ k.Applies p r)
    (hblank : ∀ c ∈ r.head?, Text.isBlank c = false) : classify p r = none := by
  have hres : Lexeme.Unreserved r := ⟨fun op => h (.operator op), h (.literal .boolean)⟩
  have hnamed : Lexeme.Unnamed p r :=
    ⟨hres, Option.not_isSome_iff_eq_none.mp fun hsome => h (.literal .var) ⟨hres, hsome⟩⟩
  have hsymbol : ∀ {s : String} {c : Char}, s.toList = [c] → (¬ ∃ rest, r = c :: rest) →
      Lexeme.symbol s r = none := by
    intro s c hs hnot
    rw [Lexeme.symbol_eq_none_iff, hs]
    rintro ⟨rest, rfl⟩
    exact hnot ⟨rest, rfl⟩
  refine classify_eq_none (List.forall_mem_append.mpr ⟨hnamed.reach_eq_none hblank, ?_⟩)
  simp only [List.forall_mem_cons]
  refine ⟨?_, ?_, ?_, ?_, by simp⟩
  · exact Lexeme.number_eq_none fun hdigit => h (.literal .number) ⟨hnamed, hdigit⟩
  · refine Option.eq_none_iff_forall_ne_some.mpr fun n hn => ?_
    obtain ⟨s, rest, rfl, -, -⟩ := Lexeme.quoted_eq_some.mp hn
    exact h (.literal .string) ⟨hnamed, _, rfl, by simp⟩
  · exact hsymbol rfl fun hparen => h .leftParen ⟨hnamed, hparen⟩
  · exact hsymbol rfl fun hparen => h .rightParen ⟨hnamed, hparen⟩

/-- A kind has at most one lexeme at the front of a text. -/
theorem Kind.Extends.unique (hu : k.Extends p r u) (hv : k.Extends p r v) (hur : u <+: r)
    (hvr : v <+: r) : u = v := by
  have hwords : ∀ {w w' : List Char}, ¬ w <+: w' → ¬ w' <+: w → u = w ∨ u = w' → v = w ∨ v = w' →
      u = v := by
    intro w w' hww hww' hu hv
    have hp := List.prefix_or_prefix_of_prefix hur hvr
    rcases hu with rfl | rfl
    · rcases hv with rfl | rfl
      · rfl
      · exact (hp.elim hww hww').elim
    · rcases hv with rfl | rfl
      · exact (hp.elim hww' hww).elim
      · rfl
  cases k with
  | blank => exact hu.elim
  | operator op =>
    cases op with
    | and => exact hwords (by decide) (by decide) hu hv
    | _ => exact hu.trans hv.symm
  | literal kind =>
    cases kind with
    | boolean => exact hwords (by decide) (by decide) hu hv
    | var => exact Text.eq_of_utf8Length_eq hur hvr (Option.some.inj (hu.symm.trans hv))
    | number => exact Lexeme.LongestNumeral.unique hu hv
    | string =>
      obtain ⟨s, rfl, hs⟩ := hu
      obtain ⟨s', rfl, hs'⟩ := hv
      obtain ⟨rest, rfl⟩ := hur
      obtain ⟨rest', hrest⟩ := hvr
      have htail : s' ++ '"' :: rest' = s ++ '"' :: rest := by simpa using hrest
      have hcontent := congrArg (List.takeWhile (· != '"')) htail
      rw [takeWhile_to_quote hs, takeWhile_to_quote hs'] at hcontent
      rw [hcontent]
  | leftParen => exact hu.trans hv.symm
  | rightParen => exact hu.trans hv.symm

theorem classify_eq_some_iff (hblank : ∀ c ∈ r.head?, Text.isBlank c = false) :
    classify p r = some (k, n) ↔
      k.Applies p r ∧ ∃ u, u <+: r ∧ k.Extends p r u ∧ u.length = n := by
  constructor
  · intro h
    have hex : ∃ k : Kind, k.Applies p r := by
      by_contra hnot
      rw [classify_of_not_applies (not_exists.mp hnot) hblank] at h
      contradiction
    obtain ⟨k', hk'⟩ := hex
    obtain ⟨u, hu, hext, hc⟩ := hk'.classify_eq hblank
    rw [hc] at h
    cases h
    exact ⟨hk', u, hu, hext, rfl⟩
  · rintro ⟨hk, u, hu, hext, rfl⟩
    obtain ⟨v, hv, hext', hc⟩ := hk.classify_eq hblank
    rw [hc, hext.unique hext' hu hv]

/-! ### Pulls -/

namespace TokenStream

variable {s s' : TokenStream} {t : Token} {ts : List Token} {text : List Char}

/-- A pull that gives a token has found the kind that applies behind the blanks, and its lexeme. -/
theorem applies_of_next (h : s.next = (.ok (some t), s')) :
    (∀ k, t.kind = k ↔ k.Applies s.pattern s.skipBlanks.rest) ∧
      t.lexeme.toList <+: s.skipBlanks.rest ∧
      t.kind.Extends s.pattern s.skipBlanks.rest t.lexeme.toList ∧
      t.offset = s.skipBlanks.position := by
  obtain ⟨k, n, hc, -, rfl, -⟩ := exists_of_next h
  obtain ⟨hk, u, hu, hext, rfl⟩ := (classify_eq_some_iff s.skipBlanks_head).mp hc
  rw [Token.lexeme_ofLexeme (classify_fits hc), Token.kind_ofLexeme, Token.offset_ofLexeme,
    ← List.prefix_iff_eq_take.mp hu]
  exact ⟨fun k' => ⟨fun heq => heq ▸ hk, fun hk' => hk.unique hk' s.skipBlanks_head⟩, hu, hext, rfl⟩

/-- A pull fails where something is left behind the blanks and no kind applies. -/
theorem next_eq_error_iff {e : Unrecognized} : s.next.1 = .error e ↔ s.skipBlanks.rest ≠ [] ∧
    (∀ k : Kind, ¬ k.Applies s.pattern s.skipBlanks.rest) ∧
      e = .before s.skipBlanks.position s.skipBlanks.rest := by
  constructor
  · intro h
    obtain ⟨hne, hc, he⟩ := exists_of_next_error h
    refine ⟨hne, fun k hk => ?_, he⟩
    obtain ⟨u, -, -, hc'⟩ := hk.classify_eq s.skipBlanks_head
    exact absurd (hc.symm.trans hc') (by simp)
  · rintro ⟨hne, hnot, rfl⟩
    rw [next_of_none hne (classify_of_not_applies hnot s.skipBlanks_head)]

/-! ### Scans -/

/-- A scan that begins at the first text and takes whole runs of blanks and lexemes off its front
gets to the second one. -/
inductive Scans (p : VariablePattern) : List Char → List Char → Prop where
  | here {r : List Char} : Scans p r r
  | blanks {bs r r' : List Char} (hne : bs ≠ []) (hbs : ∀ c ∈ bs, Text.isBlank c)
      (hr : ∀ c ∈ r.head?, Text.isBlank c = false) (h : Scans p r r') : Scans p (bs ++ r) r'
  | lexeme {k : Kind} {u r r' : List Char} (hblank : ∀ c ∈ (u ++ r).head?, Text.isBlank c = false)
      (hk : k.Applies p (u ++ r)) (hu : k.Extends p (u ++ r) u) (h : Scans p r r') :
      Scans p (u ++ r) r'

theorem scans_of_skipBlanks (h : Scans p s.skipBlanks.rest r) : Scans p s.rest r := by
  have hhead := s.skipBlanks_head
  rw [skipBlanks_rest] at h hhead
  rw [← @List.takeWhile_append_dropWhile _ Text.isBlank s.rest]
  by_cases hne : s.rest.takeWhile Text.isBlank = []
  · rwa [hne, List.nil_append]
  · exact .blanks hne (fun c hc => List.mem_takeWhile_imp hc) hhead h

/-- Where a stream has yielded tokens, a scan gets to the same place. -/
theorem Yields.scans (h : Yields s ts s') (hp : s.pattern = p) (h' : Scans p s'.rest r) :
    Scans p s.rest r := by
  induction h with
  | nil => exact h'
  | @cons s _ _ _ _ hn _ ih =>
    have hrest := ih ((pattern_of_next hn).trans hp) h'
    obtain ⟨k, n, hc, -, -, rfl⟩ := exists_of_next hn
    have hblank := s.skipBlanks_head
    obtain ⟨hk, u, ⟨tail, htail⟩, hext, rfl⟩ := (classify_eq_some_iff hblank).mp hc
    rw [advance, ← htail, List.drop_left] at hrest
    apply scans_of_skipBlanks
    rw [hp] at hk hext
    rw [← htail] at hk hext hblank ⊢
    exact .lexeme hblank hk hext hrest

theorem skipBlanks_eq_self (h : ∀ c ∈ s.rest.head?, Text.isBlank c = false) : s.skipBlanks = s := by
  rw [skipBlanks, Text.takeWhile_eq_nil h]
  rfl

/-- A text that is one lexeme from end to end is cut into one token. -/
theorem tokenize_whole {cs : List Char} (hhead : ∀ c ∈ cs.head?, Text.isBlank c = false)
    (h : classify p cs = some (k, cs.length)) : tokenize p cs = .ok [.ofLexeme k cs 0] := by
  let s := ofText p cs
  have hself : s.skipBlanks = s := skipBlanks_eq_self hhead
  have hfront : s.skipBlanks.rest = cs ++ [] := by
    rw [hself, List.append_nil]
    rfl
  have hn := next_of_front hfront (by rwa [List.append_nil])
  rw [hself] at hn
  exact tokens_eq_ok.mpr ⟨_, .single hn, by rw [next_of_nil rfl]⟩

theorem skipBlanks_skipBlanks (s : TokenStream) : s.skipBlanks.skipBlanks = s.skipBlanks :=
  skipBlanks_eq_self s.skipBlanks_head

/-- Where a scan gets to something that is not blank, a stream yields tokens up to there. -/
theorem Scans.exists_yields {cs : List Char} (h : Scans p cs r)
    (hr : ∀ c ∈ r.head?, Text.isBlank c = false) (hp : s.pattern = p) (hs : s.rest = cs) :
    ∃ ts s', Yields s ts s' ∧ s'.skipBlanks.rest = r := by
  induction h generalizing s with
  | here => exact ⟨[], s, .nil, by rw [skipBlanks_rest, hs, Text.dropWhile_eq_self hr]⟩
  | @blanks bs rest _ _ hbs hhead _ ih =>
    have hrest : s.skipBlanks.rest = rest := by
      rw [skipBlanks_rest, hs, List.dropWhile_append_of_pos hbs, Text.dropWhile_eq_self hhead]
    obtain ⟨ts, s', hy, hs'⟩ := ih hr (s := s.skipBlanks) hp hrest
    cases hy with
    | nil => exact ⟨[], s, .nil, by rwa [skipBlanks_skipBlanks] at hs'⟩
    | cons hn hy =>
      rw [next, skipBlanks_skipBlanks] at hn
      exact ⟨_, s', .cons hn hy, hs'⟩
  | lexeme hblank hk hu _ ih =>
    have hc := (classify_eq_some_iff hblank).mpr ⟨hk, _, List.prefix_append _ _, hu, rfl⟩
    rw [← hp] at hc
    obtain ⟨offset, s₁, hn, hrest, hp₁⟩ :=
      next_of_lexeme (by rw [hs, Text.dropWhile_eq_self hblank]) hc
    obtain ⟨ts, s', hy, hs'⟩ := ih hr (hp₁.trans hp) hrest
    exact ⟨_, s', .cons hn hy, hs'⟩

/-- A token is of the kind that applies at its offset, and its lexeme is that of the kind; a text
has no tokens just when a scan of it gets to a place where no kind applies. -/
theorem tokenize_recognizes (p : VariablePattern) (text : List Char) :
    (∀ n t, ((ofText p text).afterPulls n).next.1 = .ok (some t) →
      ∃ r, Text.Spans text t.offset r (Text.utf8Length text) ∧ (∀ k, t.kind = k ↔ k.Applies p r) ∧
        t.lexeme.toList <+: r ∧ t.kind.Extends p r t.lexeme.toList) ∧
    ∀ e, tokenize p text = .error e ↔
      ∃ r, Scans p text r ∧ (∃ c ∈ r.head?, Text.isBlank c = false) ∧
        (∀ k : Kind, ¬ k.Applies p r) ∧ Text.Spans text e.position r (Text.utf8Length text) ∧
        e.excerpt = String.ofList (r.take 20) := by
  constructor
  · intro n t ht
    have hwithin := ((ofText_within p text).afterPulls n).skipBlanks
    obtain ⟨hk, hu, hext, hoffset⟩ := applies_of_next (Prod.ext ht rfl)
    rw [pattern_afterPulls] at hk hext
    exact ⟨_, hoffset ▸ hwithin.spans, hk, hu, hext⟩
  · intro e
    rw [tokenize, tokens_eq_error]
    constructor
    · rintro ⟨ts, s', hy, he⟩
      obtain ⟨hne, hnot, rfl⟩ := next_eq_error_iff.mp he
      rw [hy.pattern_eq] at hnot
      obtain ⟨c, cs, hcs⟩ := List.exists_cons_of_ne_nil hne
      exact ⟨_, hy.scans rfl (scans_of_skipBlanks .here),
        ⟨c, by simp [hcs], s'.skipBlanks_head c (by simp [hcs])⟩, hnot,
        (hy.within (ofText_within p text)).skipBlanks.spans, rfl⟩
    · rintro ⟨r, hscan, ⟨c, hc, hblank⟩, hnot, ⟨-, -, -, -, hposition⟩, hexcerpt⟩
      have hr : ∀ d ∈ r.head?, Text.isBlank d = false := by
        intro d hd
        rwa [← Option.mem_unique hc hd]
      obtain ⟨ts, s', hy, rfl⟩ := hscan.exists_yields (s := ofText p text) hr rfl rfl
      obtain ⟨-, -, -, -, hposition'⟩ := (hy.within (ofText_within p text)).skipBlanks.spans
      refine ⟨ts, s', hy, next_eq_error_iff.mpr ⟨?_, ?_, ?_⟩⟩
      · rintro hnil
        simp [hnil] at hc
      · rw [hy.pattern_eq]
        exact hnot
      · obtain ⟨position, excerpt⟩ := e
        have heq : position = s'.skipBlanks.position := by
          dsimp only at hposition
          omega
        cases hexcerpt
        rw [heq]
        rfl

/-- The longest numeral of `1.5.` ends before the second point. -/
theorem tokenize_recognizes_fraction :
    let text := "1.5.".toList
    let t : Token := ⟨.literal .number, "1.5", 0⟩
    ((ofText .default text).afterPulls 0).next.1 = .ok (some t) ∧
      ∃ r, Text.Spans text t.offset r (Text.utf8Length text) ∧
        (∀ k, t.kind = k ↔ k.Applies .default r) ∧
        t.lexeme.toList <+: r ∧ t.kind.Extends .default r t.lexeme.toList := by
  intro text t
  have ht : ((ofText .default text).afterPulls 0).next.1 = .ok (some t) := by decide +kernel
  exact ⟨ht, (tokenize_recognizes .default text).1 0 t ht⟩

end TokenStream

end FilterLang
