import FilterLang.Proofs.Separation
import Mathlib.Data.Set.Subsingleton

/-! Default names as tokens. What the default pattern finds at the front of a text is the one name
with which the text begins, whatever follows it. No operator and no keyword can be taken for a name,
so a name by itself is one token, and a text that is one variable token is a name. -/
namespace FilterLang.VariablePattern

variable {w : List Char} {text : String}

/-- A name is cut into itself. -/
theorem tokenize_name (h : w ∈ names) :
    tokenize .default w = .ok [⟨.literal .var, String.ofList w, 0⟩] := by
  have hhead : ∀ c ∈ w.head?, Text.isBlank c = false :=
    fun c hc => names_visible w h c (List.mem_of_mem_head? hc)
  have hwhole : classify .default (w ++ []) = some (.literal .var, w.length) := classify_name h
  exact TokenStream.tokenize_whole hhead (by rwa [List.append_nil] at hwhole)

theorem default_accepts_iff_tokenize :
    default.accepts text ↔ tokenize .default text.toList = .ok [⟨.literal .var, text, 0⟩] := by
  constructor
  · intro h
    simpa using tokenize_name (default_accepts_iff.mp h)
  · intro h
    obtain ⟨s', hy, -⟩ := TokenStream.tokens_eq_ok.mp h
    exact hy.lexical rfl _ (List.mem_singleton_self _) (.var text) rfl

/-- The default pattern finds just the names, a text begins with at most one of them, and what
follows a name does not matter; what it accepts as a whole is what is cut into one variable. -/
theorem default_recognizes_names (text : String) :
    (∀ n, default.matchLength? text = some n ↔
      ∃ w ∈ names, w <+: text.toList ∧ n = Text.utf8Length w) ∧
    {w | w ∈ names ∧ w <+: text.toList}.Subsingleton ∧
    (∀ w ∈ names, ∀ following,
      default.matchLength? (.ofList (w ++ following)) = some (Text.utf8Length w)) ∧
    (default.accepts text ↔
      tokenize .default text.toList = .ok [⟨.literal .var, text, 0⟩]) := by
  refine ⟨fun n => default_matchLength?_iff, ?_, ?_, default_accepts_iff_tokenize⟩
  · rintro w ⟨hw, hp⟩ w' ⟨hw', hp'⟩
    exact eq_of_both_begin hw hw' hp hp'
  · intro w hw following
    exact default_matchLength?_iff.mpr ⟨w, hw, by simp, rfl⟩

/-- `integer_value` is found in front of more letters, although `longinteger_value` ends like it. -/
theorem default_recognizes_names_ahead :
    let w := "integer_value".toList
    w ∈ names ∧ default.matchLength? (.ofList (w ++ "s".toList)) = some 13 ∧
      default.matchLength? "longinteger_value" = some 17 := by
  intro w
  have hw : w ∈ names := by decide
  obtain ⟨hfound, -, hfollowed, -⟩ := default_recognizes_names "longinteger_value"
  exact ⟨hw, hfollowed w hw _, (hfound 17).mpr ⟨_, by decide, List.prefix_rfl, by decide⟩⟩

end FilterLang.VariablePattern
