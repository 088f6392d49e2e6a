import FilterLang.Proofs.RegexMatching
import FilterLang.VariablePattern

/-! The names of the default pattern: a basic type, `array` or nothing, and `_value`. The pattern
finds a name at the front of a text just when the text begins with one; no name is the beginning of
another, so what follows a name does not matter. -/
namespace FilterLang

/-! ### Expressions for words -/

namespace Regex

def spelling : List Char → Regex
  | [] => .empty
  | [c] => .char (.only c)
  | c :: cs => .seq (.char (.only c)) (spelling cs)

/-- The words in order of preference. -/
def oneOf : List (List Char) → Regex
  | [] => .char .none
  | [w] => spelling w
  | w :: ws => .alt (spelling w) (oneOf ws)

theorem contains_only {c d : Char} : (CharSet.only c).contains d ↔ d = c := by
  simp only [CharSet.only, CharSet.contains, Bool.and_eq_true, decide_eq_true_eq]
  exact ⟨fun h => Char.le_antisymm h.2 h.1, by rintro rfl; exact ⟨Char.le_refl _, Char.le_refl _⟩⟩

theorem matches_only {c : Char} {b : Option Char} {u v : List Char} :
    (char (.only c)).Matches b u v ↔ u = [c] := by
  constructor
  · intro h
    cases h with
    | char h => rw [contains_only.mp h]
  · rintro rfl
    exact .char (contains_only.mpr rfl)

theorem matches_spelling {w : List Char} {b : Option Char} {u v : List Char} :
    (spelling w).Matches b u v ↔ u = w := by
  induction w generalizing b u with
  | nil =>
    constructor
    · rintro ⟨⟩
      rfl
    · rintro rfl
      exact .empty
  | cons c w ih =>
    cases w with
    | nil => exact matches_only
    | cons d w =>
      constructor
      · intro h
        cases h with
        | seq hr hs =>
          rw [matches_only.mp hr, ih.mp hs]
          rfl
      · rintro rfl
        exact Matches.seq (u := [c]) (matches_only.mpr rfl) (ih.mpr rfl)

theorem matches_oneOf {ws : List (List Char)} {b : Option Char} {u v : List Char} :
    (oneOf ws).Matches b u v ↔ u ∈ ws := by
  induction ws with
  | nil =>
    constructor
    · intro h
      cases h with
      | char h => simp [CharSet.contains] at h
    · intro h
      contradiction
  | cons w ws ih =>
    cases ws with
    | nil => rw [List.mem_singleton]; exact matches_spelling
    | cons w' ws =>
      rw [List.mem_cons]
      constructor
      · intro h
        cases h with
        | left h => exact .inl (matches_spelling.mp h)
        | right h => exact .inr (ih.mp h)
      · rintro (h | h)
        · exact .left (matches_spelling.mpr h)
        · exact .right (ih.mpr h)

end Regex

/-! ### The names -/

namespace VariablePattern

def baseNames : List (List Char) :=
  ["binaryblob", "boolean", "datetime", "double", "integer", "longinteger", "string"].map
    String.toList

/-- All names of the default pattern. -/
def names : List (List Char) :=
  baseNames.flatMap fun base =>
    [base ++ "array_value".toList, base ++ "_value".toList]

/-- The default pattern as an expression over its words. -/
def nameRegex : Regex :=
  .seq (.here .textStart) (.seq (.oneOf baseNames)
    (.seq (.optional true (.seq (.spelling "array".toList) .empty)) (.spelling "_value".toList)))

theorem regexOf_defaultSource : (regexOf .plain defaultSource).toOption = some nameRegex := by
  decide +kernel

theorem default_regex : default.regex = nameRegex := by
  rw [default, regexOf_defaultSource, Option.getD_some]

theorem matches_nameRegex {u v : List Char} : nameRegex.Matches none u v ↔ u ∈ names := by
  simp only [names, List.mem_flatMap, List.mem_cons, List.not_mem_nil, or_false]
  constructor
  · intro h
    cases h with
    | seq hstart h =>
      cases hstart
      cases h with
      | seq hbase h =>
        cases h with
        | seq hopt hvalue =>
          refine ⟨_, Regex.matches_oneOf.mp hbase, ?_⟩
          rw [Regex.matches_spelling.mp hvalue]
          cases hopt with
          | left h =>
            cases h with
            | seq harray hempty =>
              cases hempty
              rw [Regex.matches_spelling.mp harray]
              exact .inl rfl
          | right h =>
            cases h
            exact .inr rfl
  · rintro ⟨base, hbase, rfl | rfl⟩
    · refine Regex.Matches.seq (u := []) (.here rfl) (.seq (Regex.matches_oneOf.mpr hbase) ?_)
      refine Regex.Matches.seq (u := "array".toList) ?_ (Regex.matches_spelling.mpr rfl)
      exact .left (Regex.Matches.seq (w := []) (Regex.matches_spelling.mpr rfl) .empty)
    · refine Regex.Matches.seq (u := []) (.here rfl) (.seq (Regex.matches_oneOf.mpr hbase) ?_)
      exact Regex.Matches.seq (u := []) (.right .empty) (Regex.matches_spelling.mpr rfl)

/-- No name is the beginning of another one. -/
theorem eq_of_prefix_names : ∀ w ∈ names, ∀ w' ∈ names, w <+: w' → w = w' := by
  decide

theorem names_ne_nil : ∀ w ∈ names, w ≠ [] := by decide

theorem eq_of_both_begin {w w' cs : List Char} (hw : w ∈ names) (hw' : w' ∈ names)
    (h : w <+: cs) (h' : w' <+: cs) : w = w' := by
  rcases List.prefix_or_prefix_of_prefix h h' with hp | hp
  · exact eq_of_prefix_names w hw w' hw' hp
  · exact (eq_of_prefix_names w' hw' w hw hp).symm

/-- The default pattern reaches to the end of the name at the front of the text. -/
theorem default_reach_iff {cs : List Char} {n : Nat} :
    default.reach cs = some n ↔ ∃ w ∈ names, w <+: cs ∧ n = w.length := by
  have hanchor : nameRegex.anchored := rfl
  rw [reach, default_regex, Option.filter_eq_some_iff]
  constructor
  · rintro ⟨h, -⟩
    obtain ⟨u, v, rfl, hm, rfl⟩ := Regex.exists_of_search hanchor h
    exact ⟨u, matches_nameRegex.mp hm, List.prefix_append u v, rfl⟩
  · rintro ⟨w, hw, ⟨v, rfl⟩, rfl⟩
    have hmatch : nameRegex.Matches none w v := matches_nameRegex.mpr hw
    have hsome := Regex.search_isSome hanchor hmatch
    obtain ⟨n, hn⟩ := Option.isSome_iff_exists.mp hsome
    obtain ⟨u, v', huv, hm, rfl⟩ := Regex.exists_of_search hanchor hn
    have hu := matches_nameRegex.mp hm
    have hp : u <+: w ++ v := huv ▸ List.prefix_append u v'
    rw [eq_of_both_begin hu hw hp (List.prefix_append w v)] at hn
    exact ⟨hn, by simpa [List.length_pos_iff] using names_ne_nil w hw⟩

/-- In bytes, the default pattern reaches to the end of the name at the front of the text. -/
theorem default_matchLength?_iff {text : String} {n : Nat} :
    default.matchLength? text = some n ↔
      ∃ w ∈ names, w <+: text.toList ∧ n = Text.utf8Length w := by
  rw [matchLength?, Option.map_eq_some_iff]
  constructor
  · rintro ⟨k, hk, rfl⟩
    obtain ⟨w, hw, hp, rfl⟩ := default_reach_iff.mp hk
    exact ⟨w, hw, hp, by rw [← List.prefix_iff_eq_take.mp hp]⟩
  · rintro ⟨w, hw, hp, rfl⟩
    exact ⟨w.length, default_reach_iff.mpr ⟨w, hw, hp, rfl⟩,
      by rw [← List.prefix_iff_eq_take.mp hp]⟩

/-- The default pattern accepts its names and nothing else. -/
theorem default_accepts_iff {name : String} : default.accepts name ↔ name.toList ∈ names := by
  rw [accepts, beq_iff_eq, matchLength?, Option.map_eq_some_iff]
  constructor
  · rintro ⟨n, hn, hlen⟩
    obtain ⟨w, hw, ⟨v, hv⟩, rfl⟩ := default_reach_iff.mp hn
    rw [← hv] at hlen ⊢
    rw [List.take_left, Text.utf8Length_append] at hlen
    have hnil : v = [] := by
      cases v with
      | nil => rfl
      | cons c v =>
        have := Char.utf8Size_pos c
        rw [Text.utf8Length_cons] at hlen
        omega
    rwa [hnil, List.append_nil]
  · intro h
    exact ⟨_, default_reach_iff.mpr ⟨_, h, List.prefix_refl _, rfl⟩, by rw [List.take_length]⟩

end VariablePattern

end FilterLang
