import FilterLang.Proofs.Enclosing
import FilterLang.Proofs.RegexMatching
import FilterLang.VariablePattern

/-! Where the name of a variable begins. The text of a pattern is put between an anchor with an
opening parenthesis and a closing one, and only then read. If the text is a pattern by itself, the
parentheses belong together and a name begins where the search does. A text that closes the group
and opens another one leaves its branches outside the anchor. -/
namespace FilterLang.VariablePattern

open Regex (lastOf)

variable {engine : Engine}

theorem regexOf_eq_seq {source : String} {r R : Regex} (h : Pattern.read engine source.toList = .ok r)
    (hR : regexOf engine source = .ok R) : R = .seq (.here .textStart) r :=
  Pattern.read_enclosed h hR

theorem exists_of_matchLength? {p : VariablePattern} {text : String} {n : Nat}
    (h : p.matchLength? text = some n) : ∃ a u v, text.toList = a ++ u ++ v ∧
      p.regex.Matches (lastOf none a) u v ∧ Text.utf8Length (a ++ u) = n ∧
      (p.regex.anchored → a = []) := by
  obtain ⟨k, hk, rfl⟩ := Option.map_eq_some_iff.mp h
  obtain ⟨a, u, v, htext, hm, rfl, hfront⟩ :=
    Regex.begins_of_search (Option.filter_eq_some_iff.mp hk).1
  exact ⟨a, u, v, htext, hm, by rw [htext, List.take_left], hfront⟩

theorem matches_of_seq_textStart {r : Regex} {u v : List Char}
    (h : (Regex.seq (.here .textStart) r).Matches none u v) : r.Matches none u v := by
  cases h with
  | seq hstart hr =>
    cases hstart with
    | here => exact hr

/-- A match ends where its length says and, if the text of the pattern is a pattern by itself,
begins where the search does. -/
theorem matchLength?_anchored {source text : String} {p : VariablePattern} {n : Nat}
    (hp : ofString source engine = .ok p) (hn : p.matchLength? text = some n) :
    (∃ a u v, text.toList = a ++ u ++ v ∧ p.regex.Matches (lastOf none a) u v ∧
      Text.utf8Length (a ++ u) = n) ∧
    ∀ r, Pattern.read engine source.toList = .ok r →
      ∃ u v, text.toList = u ++ v ∧ r.Matches none u v ∧ Text.utf8Length u = n := by
  obtain ⟨a, u, v, htext, hm, hlength, hfront⟩ := exists_of_matchLength? hn
  refine ⟨⟨a, u, v, htext, hm, hlength⟩, fun r hr => ?_⟩
  have hregex := regexOf_eq_seq hr (ofString_eq_ok hp).2
  rw [hregex] at hm hfront
  obtain rfl := hfront rfl
  exact ⟨u, v, htext, matches_of_seq_textStart hm, hlength⟩

/-- The anchor is in front of both branches, and the letters are the engine's. -/
theorem matchLength?_anchored_alternation :
    let letters := CharSet.ranges [('A', 'Z'), ('a', 'z')]
    let engine : Engine :=
      { Engine.plain with property? := fun name => if name = ['L'] then some letters else none }
    let either : Regex := .alt (.char (.only '1')) (.plus true (.char letters))
    let p : VariablePattern := ⟨"1|\\pL+", .seq (.here .textStart) either⟩
    ofString "1|\\pL+" engine = .ok p ∧ p.matchLength? "bar 1" = some 3 ∧
      ∃ u v, "bar 1".toList = u ++ v ∧ either.Matches none u v ∧ Text.utf8Length u = 3 := by
  intro letters engine either p
  have hp : ofString "1|\\pL+" engine = .ok p := ofString_of_regexOf (by decide +kernel)
  have hn : p.matchLength? "bar 1" = some 3 := by decide +kernel
  have hread : (Pattern.read engine "1|\\pL+".toList).toOption = some either := by
    decide +kernel
  exact ⟨hp, hn, (matchLength?_anchored hp hn).2 _ (eq_ok_of_toOption hread)⟩

/-- The text of a pattern may close the group it is put into. What it opens then stands outside the
anchor. -/
theorem matchLength?_unopened :
    let p : VariablePattern :=
      ⟨"a)|(?:b", .alt (.seq (.here .textStart) (.char (.only 'a'))) (.char (.only 'b'))⟩
    ofString "a)|(?:b" = .ok p ∧ p.matchLength? "xb" = some 2 ∧
      ¬ ∃ u v, "xb".toList = u ++ v ∧ p.regex.Matches none u v ∧ Text.utf8Length u = 2 := by
  intro p
  refine ⟨ofString_of_regexOf (by decide +kernel), by decide +kernel, ?_⟩
  rintro ⟨u, v, htext, hm, hlength⟩
  cases hm with
  | left h =>
    cases h with
    | seq hstart ha =>
      cases hstart
      cases ha
      cases htext
      contradiction
  | right hb =>
    cases hb
    cases htext
    contradiction

end FilterLang.VariablePattern
