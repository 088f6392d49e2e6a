import FilterLang.Proofs.DefaultName
import FilterLang.Proofs.Recognition
import Mathlib.Data.List.Basic

/-! A lexeme by itself. A token is found with more text behind it; its lexeme, taken alone, has
nothing behind it. An operator or a Boolean is found again. A name that is also a keyword was a
variable only because an identifier went on behind it, so alone it is the keyword. And the pattern of
variables has to find in the lexeme what it found before. A pattern none of whose conditions look at
the next character does: in a longer text it finds the same, or something that ends behind the
lexeme. -/
namespace FilterLang

/-! ### Patterns that do not look ahead -/

/-- Whether the condition depends on the next character. -/
def Place.looksAhead : Place → Bool
  | textStart | lineStart false | word .startHalf _ => false
  | _ => true

theorem Place.holds_eq {place : Place} (h : place.looksAhead = false) (b a a' : Option Char) :
    place.holds ⟨b, a⟩ = place.holds ⟨b, a'⟩ := by
  unfold looksAhead at h
  split at h
  · rfl
  · rfl
  · rfl
  · contradiction

namespace Regex

/-- Whether a condition in the expression depends on the next character. -/
def looksAhead : Regex → Bool
  | empty | char _ => false
  | here place => place.looksAhead
  | seq a b | alt a b => a.looksAhead || b.looksAhead
  | plus _ r | more _ r => r.looksAhead

/-- None of the expressions looks ahead. -/
def Blind (rs : List Regex) : Prop := ∀ r ∈ rs, r.looksAhead = false

variable {r : Regex} {rs : List Regex} {threads : List (List Regex)} {a a' b : Option Char}
  {best : Option Nat} {restart : Bool} {count n : Nat} {u v : List Char}

theorem moves_eq (h : r.looksAhead = false) (a a' : Option Char) (next : List Regex)
    (after : Thunk (List Move)) : r.moves ⟨b, a⟩ next after = r.moves ⟨b, a'⟩ next after := by
  induction r generalizing next after with
  | empty => rfl
  | char set => rfl
  | here place => simp only [moves, Place.holds_eq h b a a']
  | seq r s ihr ihs =>
    obtain ⟨hr, hs⟩ := Bool.or_eq_false_iff.mp h
    simp only [moves]
    rw [ihr hr, ihs hs]
  | alt r s ihr ihs =>
    obtain ⟨hr, hs⟩ := Bool.or_eq_false_iff.mp h
    simp only [moves]
    rw [ihr hr, ihs hs]
  | plus greedy r ih =>
    simp only [moves]
    rw [ih h]
  | more greedy r ih =>
    simp only [moves]
    rw [ih h]

theorem threadMoves_eq (h : Blind rs) (a a' : Option Char) :
    threadMoves ⟨b, a⟩ rs = threadMoves ⟨b, a'⟩ rs := by
  induction rs with
  | nil => rfl
  | cons r rs ih =>
    obtain ⟨hr, hrs⟩ := List.forall_mem_cons.mp h
    rw [threadMoves, threadMoves, moves_eq hr a a', ih hrs]

theorem allMoves_eq (h : ∀ rs ∈ threads, Blind rs) (a a' : Option Char) :
    allMoves ⟨b, a⟩ threads = allMoves ⟨b, a'⟩ threads := by
  apply List.foldl_ext
  intro seen rs hrs
  rw [threadMoves_eq (h rs hrs) a a']

/-- What an expression leads to looks ahead no more than the expression does. -/
theorem Leads.blind {s : Spot} {set : CharSet} {rest : List Regex} (h : Leads s r set rest)
    (hr : r.looksAhead = false) : Blind rest := by
  induction h with
  | char => exact fun _ h => nomatch h
  | first _ ih =>
    obtain ⟨ha, hb⟩ := Bool.or_eq_false_iff.mp hr
    exact List.forall_mem_append.mpr ⟨ih ha, List.forall_mem_singleton.mpr hb⟩
  | second _ _ ih => exact ih (Bool.or_eq_false_iff.mp hr).2
  | left _ ih => exact ih (Bool.or_eq_false_iff.mp hr).1
  | right _ ih => exact ih (Bool.or_eq_false_iff.mp hr).2
  | plus _ ih => exact List.forall_mem_append.mpr ⟨ih hr, List.forall_mem_singleton.mpr hr⟩
  | more _ ih => exact List.forall_mem_append.mpr ⟨ih hr, List.forall_mem_singleton.mpr hr⟩

theorem blind_of_mem_threadMoves {s : Spot} {set : CharSet} {next : List Regex} (h : Blind rs)
    (hm : .read set next ∈ threadMoves s rs) : Blind next := by
  induction rs with
  | nil => simp [threadMoves] at hm
  | cons r rs ih =>
    obtain ⟨hr, hrs⟩ := List.forall_mem_cons.mp h
    rcases mem_moves.mp hm with ⟨-, hm⟩ | ⟨_, rest, hl, heq⟩
    · exact ih hrs hm
    · cases heq
      exact List.forall_mem_append.mpr ⟨hl.blind hr, hrs⟩

theorem blind_of_mem_follow {s : Spot} {c : Char} (h : ∀ rs ∈ threads, Blind rs)
    (hm : rs ∈ follow c (allMoves s threads)) : Blind rs := by
  obtain ⟨set, hmove, -⟩ := exists_of_mem_follow hm
  obtain ⟨rs', hrs', hmove⟩ := mem_allMoves.mp hmove
  exact blind_of_mem_threadMoves (h rs' hrs') hmove

/-- A run stops with what it knows at its first place, or finds something that ends later. -/
theorem run_cases (r : Regex) (restart : Bool) (b : Option Char) (threads : List (List Regex))
    (best : Option Nat) (count : Nat) (v : List Char) :
    run r restart b threads best count v =
        (if (allMoves ⟨b, v.head?⟩ threads).contains .accept then some count else best) ∨
      ∃ m, run r restart b threads best count v = some m ∧ count < m := by
  induction v generalizing b threads best count with
  | nil => exact .inl rfl
  | cons c v ih =>
    simp only [run]
    generalize hbest : (if (allMoves ⟨b, some c⟩ threads).contains .accept then some count
      else best) = best'
    generalize (if restart && best'.isNone then follow c (allMoves ⟨b, some c⟩ threads) ++ [[r]]
      else follow c (allMoves ⟨b, some c⟩ threads)) = left
    split
    · exact .inl hbest.symm
    · rcases ih (some c) left best' (count + 1) with h | ⟨m, hm, hlt⟩
      · rw [h]
        split
        · exact .inr ⟨count + 1, rfl, Nat.lt_succ_self count⟩
        · exact .inl hbest.symm
      · exact .inr ⟨m, hm, Nat.lt_of_succ_lt hlt⟩

/-- With more text behind it a run that does not look ahead finds the same, or something that ends
in that text. -/
theorem run_append (hr : r.looksAhead = false) (h : ∀ rs ∈ threads, Blind rs) :
    run r restart b threads best count (u ++ v) = run r restart b threads best count u ∨
      ∃ m, run r restart b threads best count (u ++ v) = some m ∧ count + u.length < m := by
  induction u generalizing b threads best count with
  | nil =>
    rw [run, allMoves_eq h none v.head?]
    exact run_cases r restart b threads best count v
  | cons c u ih =>
    simp only [List.cons_append, run, List.length_cons]
    generalize (if (allMoves ⟨b, some c⟩ threads).contains .accept then some count
      else best) = best'
    generalize hleft : (if restart && best'.isNone then
      follow c (allMoves ⟨b, some c⟩ threads) ++ [[r]]
      else follow c (allMoves ⟨b, some c⟩ threads)) = left
    split
    · exact .inl rfl
    · have hblind : ∀ rs ∈ left, Blind rs := by
        intro rs hrs
        rw [← hleft] at hrs
        split at hrs
        · rcases List.mem_append.mp hrs with hrs | hrs
          · exact blind_of_mem_follow h hrs
          · rw [List.mem_singleton.mp hrs]
            exact List.forall_mem_singleton.mpr hr
        · exact blind_of_mem_follow h hrs
      rw [← Nat.add_assoc, Nat.add_right_comm]
      exact ih hblind

theorem search_append (h : r.looksAhead = false) (u v : List Char) :
    r.search (u ++ v) = r.search u ∨ ∃ m, r.search (u ++ v) = some m ∧ u.length < m := by
  have hblind : ∀ rs ∈ [[r]], Blind rs :=
    List.forall_mem_singleton.mpr (List.forall_mem_singleton.mpr h)
  rw [← Nat.zero_add u.length]
  exact run_append h hblind

end Regex

namespace VariablePattern

variable {p : VariablePattern} {r u : List Char}

/-- What a pattern that does not look ahead finds up to the end of a text, it finds without the text
behind it. -/
theorem reach_of_prefix (h : p.regex.looksAhead = false) (hu : u <+: r)
    (hr : p.reach r = some u.length) : p.reach u = some u.length := by
  obtain ⟨v, rfl⟩ := hu
  obtain ⟨hsearch, hpos⟩ := Option.filter_eq_some_iff.mp hr
  rw [reach, Option.filter_eq_some_iff]
  rcases Regex.search_append h u v with heq | ⟨m, hm, hlt⟩
  · exact ⟨heq.symm.trans hsearch, hpos⟩
  · cases hsearch.symm.trans hm
    exact absurd hlt (Nat.lt_irrefl _)

theorem reach_eq_none_of_prefix (h : p.regex.looksAhead = false) (hu : u <+: r)
    (hr : p.reach r = none) : p.reach u = none := by
  obtain ⟨v, rfl⟩ := hu
  rcases Regex.search_append h u v with heq | ⟨m, hm, hlt⟩
  · rwa [reach, heq] at hr
  · rw [reach, hm, Option.filter_eq_none_iff] at hr
    exact absurd (decide_eq_true (Nat.zero_lt_of_lt hlt)) (hr m rfl)

end VariablePattern

/-! ### Keywords -/

/-- The words that the language keeps for itself. -/
def Lexeme.keywords : List (List Char) :=
  ["and".toList, "AND".toList, "true".toList, "false".toList]

variable {p : VariablePattern} {r u : List Char} {k : Kind} {t : Token} {ts : List Token}
  {w : String}

theorem Lexeme.standsAlone_self (w : String) : StandsAlone w w.toList :=
  ⟨[], (List.append_nil _).symm, by simp⟩

/-- A word that stands alone in the front of a text does so in the text, if it is not all of the
front. -/
theorem Lexeme.StandsAlone.of_prefix (h : StandsAlone w u) (hu : u <+: r) :
    u = w.toList ∨ StandsAlone w r := by
  obtain ⟨rest, rfl, hrest⟩ := h
  obtain ⟨tail, rfl⟩ := hu
  cases rest with
  | nil => exact .inl (List.append_nil _)
  | cons c rest => exact .inr ⟨c :: (rest ++ tail), by simp, hrest⟩

theorem Operator.StandsAt.of_prefix {op : Operator} (h : op.StandsAt u) (hu : u <+: r) :
    u ∈ Lexeme.keywords ∨ ∃ op : Operator, op.StandsAt r := by
  have hsymbol : ∀ op : Operator, op ≠ .and → op.symbol.toList <+: u →
      ∃ op : Operator, op.StandsAt r := by
    intro op hop hfront
    have hsymbol : Lexeme.symbol op.symbol r ≠ none :=
      fun hnone => Lexeme.symbol_eq_none_iff.mp hnone (hfront.trans hu)
    have hreach : (Kind.operator op).reach .default r ≠ none := by
      cases op with
      | and => contradiction
      | _ => exact hsymbol
    exact Operator.exists_standsAt hreach
  cases op with
  | and =>
    rcases h with h | h
    · rcases h.of_prefix hu with rfl | h
      · exact .inl (by decide)
      · exact .inr ⟨.and, .inl h⟩
    · rcases h.of_prefix hu with rfl | h
      · exact .inl (by decide)
      · exact .inr ⟨.and, .inr h⟩
  | lt => exact .inr (hsymbol .lt nofun h.1)
  | gt => exact .inr (hsymbol .gt nofun h.1)
  | le => exact .inr (hsymbol .le nofun h)
  | ge => exact .inr (hsymbol .ge nofun h)
  | eq => exact .inr (hsymbol .eq nofun h)
  | ne => exact .inr (hsymbol .ne nofun h)

theorem Lexeme.BooleanAt.of_prefix (h : BooleanAt u) (hu : u <+: r) :
    u ∈ keywords ∨ BooleanAt r := by
  rcases h with h | h
  · rcases h.of_prefix hu with rfl | h
    · exact .inl (by decide)
    · exact .inr (.inl h)
  · rcases h.of_prefix hu with rfl | h
    · exact .inl (by decide)
    · exact .inr (.inr h)

theorem Lexeme.not_unreserved_of_mem_keywords (h : u ∈ keywords) : ¬ Unreserved u := by
  rintro ⟨hop, hbool⟩
  simp only [keywords, List.mem_cons, List.not_mem_nil, or_false] at h
  rcases h with rfl | rfl | rfl | rfl
  · exact hop .and (.inl (standsAlone_self _))
  · exact hop .and (.inr (standsAlone_self _))
  · exact hbool (.inl (standsAlone_self _))
  · exact hbool (.inr (standsAlone_self _))

/-- The front of a text in which nothing is reserved is reserved only as a keyword. -/
theorem Lexeme.Unreserved.of_prefix_iff (h : Unreserved r) (hu : u <+: r) :
    Unreserved u ↔ u ∉ keywords := by
  constructor
  · exact fun hfront hmem => not_unreserved_of_mem_keywords hmem hfront
  · intro hmem
    constructor
    · intro op hop
      rcases hop.of_prefix hu with hkey | ⟨op', hop'⟩
      · exact hmem hkey
      · exact h.1 op' hop'
    · intro hbool
      rcases hbool.of_prefix hu with hkey | hbool
      · exact hmem hkey
      · exact h.2 hbool

/-! ### Lexemes -/

namespace Kind

/-- The kind applies at the front of `r` and its lexeme there is `u`. -/
structure Cuts (p : VariablePattern) (k : Kind) (r u : List Char) : Prop where
  head : ∀ c ∈ r.head?, Text.isBlank c = false
  front : u <+: r
  applies : k.Applies p r
  lexeme : k.Extends p r u

/-- Whether a lexeme of the kind is one with nothing behind it: the name of a variable is no keyword
and matches as a whole, and what is tried behind variables does not begin with one. -/
def Recurs (p : VariablePattern) (u : List Char) : Kind → Prop
  | .literal .var => u ∉ Lexeme.keywords ∧ p.accepts (.ofList u)
  | .literal .number | .literal .string | .leftParen | .rightParen =>
    p.matchLength? (.ofList u) = none
  | _ => True

theorem Cuts.classify_eq (h : k.Cuts p r u) : classify p r = some (k, u.length) :=
  (classify_eq_some_iff h.head).mpr ⟨h.applies, u, h.front, h.lexeme, rfl⟩

theorem Cuts.ne_nil (h : k.Cuts p r u) : u ≠ [] :=
  List.length_pos_iff.mp (reach_pos (classify_fits h.classify_eq))

theorem Cuts.lexeme_head (h : k.Cuts p r u) : ∀ c ∈ u.head?, Text.isBlank c = false := by
  obtain ⟨v, rfl⟩ := h.front
  obtain ⟨c, cs, rfl⟩ := List.exists_cons_of_ne_nil h.ne_nil
  exact h.head

/-- What is tried behind variables applies in front of its lexeme alone unless this begins with a
variable. -/
theorem unnamed_of_prefix_iff {P : Prop} (h : Lexeme.Unnamed p r) (hu : u <+: r)
    (hkey : ∀ w ∈ Lexeme.keywords, w.head? ≠ u.head?) (hP : P) :
    Lexeme.Unnamed p u ∧ P ↔ p.matchLength? (.ofList u) = none := by
  have hres : Lexeme.Unreserved u := (h.1.of_prefix_iff hu).mpr fun hmem => hkey u hmem rfl
  exact ⟨fun happ => happ.1.2, fun hnone => ⟨⟨hres, hnone⟩, hP⟩⟩

/-- A lexeme of the kind is cut off in the same way with nothing behind it just when it recurs. -/
theorem Cuts.recurs_iff (h : k.Cuts p r u) : k.Cuts p u u ↔ k.Recurs p u := by
  have hself : k.Cuts p u u ↔ k.Applies p u ∧ k.Extends p u u :=
    ⟨fun h => ⟨h.applies, h.lexeme⟩, fun ⟨hk, hext⟩ => ⟨h.lexeme_head, List.prefix_rfl, hk, hext⟩⟩
  obtain ⟨-, hu, hk, hext⟩ := h
  rw [hself]
  cases k with
  | blank => exact hk.elim
  | operator op =>
    refine iff_of_true ?_ trivial
    cases op with
    | and =>
      rcases hext with rfl | rfl
      · exact ⟨.inl (Lexeme.standsAlone_self _), .inl rfl⟩
      · exact ⟨.inr (Lexeme.standsAlone_self _), .inr rfl⟩
    | lt =>
      cases hext
      exact ⟨⟨List.prefix_rfl, by decide⟩, rfl⟩
    | gt =>
      cases hext
      exact ⟨⟨List.prefix_rfl, by decide⟩, rfl⟩
    | _ =>
      cases hext
      exact ⟨List.prefix_rfl, rfl⟩
  | literal kind =>
    cases kind with
    | boolean =>
      refine iff_of_true ?_ trivial
      rcases hext with rfl | rfl
      · exact ⟨.inl (Lexeme.standsAlone_self _), .inl rfl⟩
      · exact ⟨.inr (Lexeme.standsAlone_self _), .inr rfl⟩
    | var =>
      have haccepts : p.accepts (.ofList u) ↔ (Kind.literal .var).Extends p u u := by
        rw [VariablePattern.accepts, beq_iff_eq, String.toList_ofList]
        rfl
      rw [Recurs, haccepts, ← hk.1.of_prefix_iff hu]
      constructor
      · rintro ⟨⟨hres, -⟩, hlength⟩
        exact ⟨hres, hlength⟩
      · rintro ⟨hres, hlength⟩
        exact ⟨⟨hres, Option.isSome_iff_exists.mpr ⟨_, hlength⟩⟩, hlength⟩
    | number =>
      have hlongest : Lexeme.LongestNumeral u u :=
        ⟨List.prefix_rfl, hext.numeral, fun v hv _ => hv.length_le⟩
      obtain ⟨c, hc, hdigit⟩ := hlongest.head
      have hkey : ∀ w ∈ Lexeme.keywords, w.head? ≠ u.head? := by
        have hletters : ∀ w ∈ Lexeme.keywords, w.head?.any Char.isDigit = false := by decide
        intro w hw heq
        have hany : w.head?.any Char.isDigit = true := by
          rw [heq, hc]
          exact hdigit
        rw [hletters w hw] at hany
        contradiction
      exact (and_iff_left hlongest).trans (unnamed_of_prefix_iff hk.1 hu hkey ⟨c, hc, hdigit⟩)
    | string =>
      obtain ⟨s, rfl, hs⟩ := hext
      have hlexeme : (Kind.literal .string).Extends p ('"' :: (s ++ ['"'])) ('"' :: (s ++ ['"'])) :=
        ⟨s, rfl, hs⟩
      have hkey : ∀ w ∈ Lexeme.keywords, w.head? ≠ some '"' := by decide
      exact (and_iff_left hlexeme).trans
        (unnamed_of_prefix_iff hk.1 hu hkey ⟨_, rfl, by simp⟩)
  | leftParen =>
    cases hext
    exact (and_iff_left rfl).trans (unnamed_of_prefix_iff hk.1 hu (by decide) ⟨[], rfl⟩)
  | rightParen =>
    cases hext
    exact (and_iff_left rfl).trans (unnamed_of_prefix_iff hk.1 hu (by decide) ⟨[], rfl⟩)

/-- If variables do not look ahead, a lexeme recurs unless it is the name of a variable and a
keyword. -/
theorem Cuts.recurs_of_not_looksAhead (h : k.Cuts p r u) (hp : p.regex.looksAhead = false) :
    k.Recurs p u ↔ (k = .literal .var → u ∉ Lexeme.keywords) := by
  obtain ⟨-, hu, hk, hext⟩ := h
  have hunnamed : Lexeme.Unnamed p r → p.matchLength? (.ofList u) = none := fun hnamed =>
    VariablePattern.matchLength?_eq_none.mpr (VariablePattern.reach_eq_none_of_prefix hp hu
      (VariablePattern.matchLength?_eq_none.mp hnamed.2))
  cases k with
  | blank => exact hk.elim
  | operator op => exact iff_of_true trivial (by simp)
  | literal kind =>
    cases kind with
    | boolean => exact iff_of_true trivial (by simp)
    | var =>
      have hreach : p.reach u = some u.length := VariablePattern.reach_of_prefix hp hu
        ((VariablePattern.matchLength?_eq_some hu).mp hext)
      have haccepts : p.accepts (.ofList u) := by
        rw [VariablePattern.accepts, beq_iff_eq, String.toList_ofList]
        exact (VariablePattern.matchLength?_eq_some List.prefix_rfl).mpr hreach
      exact ⟨fun hrec _ => hrec.1, fun hkey => ⟨hkey rfl, haccepts⟩⟩
    | number => exact iff_of_true (hunnamed hk.1) (by simp)
    | string => exact iff_of_true (hunnamed hk.1) (by simp)
  | leftParen => exact iff_of_true (hunnamed hk.1) (by simp)
  | rightParen => exact iff_of_true (hunnamed hk.1) (by simp)

/-- No name of the default pattern is a keyword. -/
theorem Cuts.recurs_default (h : k.Cuts .default r u) : k.Recurs .default u := by
  have hblind : VariablePattern.default.regex.looksAhead = false := by
    rw [VariablePattern.default_regex]
    rfl
  rw [h.recurs_of_not_looksAhead hblind]
  rintro rfl hmem
  obtain ⟨w, hw, hwr, hlength⟩ := VariablePattern.default_reach_iff.mp
    ((VariablePattern.matchLength?_eq_some h.front).mp h.lexeme)
  obtain rfl : u = w := by
    rw [List.prefix_iff_eq_take.mp h.front, List.prefix_iff_eq_take.mp hwr, hlength]
  have hnames : ∀ w ∈ Lexeme.keywords, w ∉ VariablePattern.names := by decide
  exact hnames u hmem hw

end Kind

namespace TokenStream

variable {s s' : TokenStream} {text : List Char}

theorem Yields.cuts (h : Yields s ts s') (hp : s.pattern = p) :
    ∀ t ∈ ts, ∃ r, t.kind.Cuts p r t.lexeme.toList := by
  induction h with
  | nil => simp
  | @cons s _ _ _ _ hn _ ih =>
    refine List.forall_mem_cons.mpr ⟨?_, ih ((pattern_of_next hn).trans hp)⟩
    obtain ⟨hk, hu, hext, -⟩ := applies_of_next hn
    rw [hp] at hk hext
    exact ⟨_, s.skipBlanks_head, hu, (hk _).mp rfl, hext⟩

/-- A lexeme is cut into its token just when it is cut off with nothing behind it. -/
theorem tokenize_lexeme_iff (h : t.kind.Cuts p r t.lexeme.toList) :
    tokenize p t.lexeme.toList = .ok [{ t with offset := 0 }] ↔
      t.kind.Cuts p t.lexeme.toList t.lexeme.toList := by
  constructor
  · intro hts
    obtain ⟨s', hy, -⟩ := tokens_eq_ok.mp hts
    cases hy with
    | cons hn _ =>
      obtain ⟨hk, hu, hext, -⟩ := applies_of_next hn
      rw [skipBlanks_eq_self h.lexeme_head] at hk hu hext
      exact ⟨h.lexeme_head, hu, (hk _).mp rfl, hext⟩
  · intro hcuts
    rw [tokenize_whole h.lexeme_head hcuts.classify_eq, Token.ofLexeme_lexeme]

/-- The lexeme of a token is cut into just this token if it recurs. Where variables do not look
ahead, only the name of a variable that is a keyword does not; and under the default pattern every
lexeme does. -/
theorem tokenize_lexeme (h : tokenize p text = .ok ts) (ht : t ∈ ts) :
    let again := tokenize p t.lexeme.toList = .ok [{ t with offset := 0 }]
    (again ↔ t.kind.Recurs p t.lexeme.toList) ∧
      (p.regex.looksAhead = false →
        (again ↔ (t.kind = .literal .var → t.lexeme.toList ∉ Lexeme.keywords))) ∧
      (p = .default → again) := by
  intro again
  obtain ⟨s', hy, -⟩ := tokens_eq_ok.mp h
  obtain ⟨r, hcuts⟩ := hy.cuts rfl t ht
  have hagain : again ↔ t.kind.Recurs p t.lexeme.toList :=
    (tokenize_lexeme_iff hcuts).trans hcuts.recurs_iff
  refine ⟨hagain, fun hblind => hagain.trans (hcuts.recurs_of_not_looksAhead hblind), ?_⟩
  rintro rfl
  exact hagain.mpr hcuts.recurs_default

/-- A numeral is not taken for a variable where there is nothing behind it. -/
theorem tokenize_lexeme_numeral :
    let p : VariablePattern := ⟨"x", .seq (.here .textStart) (.char (.only 'x'))⟩
    let t : Token := ⟨.literal .number, "1", 2⟩
    let ts : List Token := [⟨.literal .var, "x", 0⟩, ⟨.operator .gt, ">", 1⟩, t]
    VariablePattern.ofString "x" = .ok p ∧ p.regex.looksAhead = false ∧
      tokenize p "x>1".toList = .ok ts ∧ t ∈ ts ∧
      tokenize p t.lexeme.toList = .ok [⟨.literal .number, "1", 0⟩] := by
  intro p t ts
  have hp : VariablePattern.ofString "x" = .ok p :=
    VariablePattern.ofString_of_regexOf (by decide +kernel)
  have hts : tokenize p "x>1".toList = .ok ts := by decide +kernel
  have ht : t ∈ ts := by simp [ts]
  exact ⟨hp, rfl, hts, ht, ((tokenize_lexeme hts ht).2.1 rfl).mpr nofun⟩

/-- In front of `ish` the name `true` is a variable, and by itself it is a Boolean. -/
theorem tokenize_lexeme_keyword :
    let truth : Regex := .seq (.char (.only 't')) (.seq (.char (.only 'r'))
      (.seq (.char (.only 'u')) (.char (.only 'e'))))
    let ish : Regex := .seq (.char (.only 'i')) (.seq (.char (.only 's')) (.char (.only 'h')))
    let p : VariablePattern := ⟨"true|ish", .seq (.here .textStart) (.alt truth ish)⟩
    let t : Token := ⟨.literal .var, "true", 0⟩
    VariablePattern.ofString "true|ish" = .ok p ∧
      tokenize p "trueish".toList = .ok [t, ⟨.literal .var, "ish", 4⟩] ∧
      tokenize p t.lexeme.toList = .ok [⟨.literal .boolean, "true", 0⟩] :=
  ⟨VariablePattern.ofString_of_regexOf (by decide +kernel), by decide +kernel, by decide +kernel⟩

/-- The name `a` of the pattern `a\B|b` is one in front of `b` only. -/
example :
    let p : VariablePattern := ⟨"a\\B|b", .seq (.here .textStart) (.alt
      (.seq (.char (.only 'a')) (.here (.word .interior false))) (.char (.only 'b')))⟩
    VariablePattern.ofString p.source = .ok p ∧
      tokenize p "ab".toList = .ok [⟨.literal .var, "a", 0⟩, ⟨.literal .var, "b", 1⟩] ∧
      tokenize p "a".toList = .error ⟨0, "a"⟩ :=
  ⟨VariablePattern.ofString_of_regexOf (by decide +kernel), by decide +kernel, by decide +kernel⟩

end TokenStream

end FilterLang
