import FilterLang.CommandLine
import Mathlib.Data.Prod.Basic
import Mathlib.Tactic.SplitIfs

/-! Leaving the expression out of a command line. An argument is an expression by its place and its
first characters alone, and nothing else that is read depends on an expression that has been read. So
a command line with the expression left out is read as before except that it has none, and to a
command line without an expression any text can be added as one. -/
namespace FilterLang.CommandLine

variable {c c' : CommandName} {v v' : Nat} {o : Options} {d d' : Draft} {mode mode' : Mode}
  {arg s : String} {args rest : List String} {e : Option String}

/-! ### One argument -/

/-- Whether an argument is an expression, as far as the options before it and its own characters
tell. -/
def Mode.takesExpression : Mode → List Char → Bool
  | .plain, _ => true
  | .value _, _ => false
  | .free, cs => !isOption cs

namespace Draft

def withExpression (d : Draft) (e : Option String) : Draft := { d with expression := e }

theorem take_expression (h : mode.takesExpression arg.toList) :
    d.take c mode arg = (d.setExpression arg).map (·, mode) := by
  cases mode with
  | plain => rfl
  | value => contradiction
  | free =>
    unfold take
    split <;> simp_all [Mode.takesExpression, isOption]

theorem setValue_withExpression (name value : String) :
    (d.withExpression e).setValue c name value =
      (d.setValue c name value).map (·.withExpression e) := by
  unfold setValue
  split
  case h_1 => cases h : d.pattern <;> simp [withExpression, h]
  case h_2 => cases h : d.maxDepth <;> simp [withExpression, h, Function.comp_def]
  case h_3 => cases h : d.maxOperators <;> simp [withExpression, h, Function.comp_def]
  case h_4 => rfl

theorem setPretty_withExpression (d : Draft) :
    (d.withExpression e).setPretty = d.setPretty.map (·.withExpression e) := by
  cases h : d.pretty <;> simp [setPretty, withExpression, h]

theorem setLetters_withExpression (d : Draft) (letters : List Char) :
    (d.withExpression e).setLetters letters = (d.setLetters letters).map (·.withExpression e) := by
  fun_induction setLetters d letters with
  | case1 => rfl
  | case2 d cs ih =>
    rw [setLetters]
    exact ih
  | case3 d cs ih =>
    rw [setLetters, setPretty_withExpression]
    cases d.setPretty with
    | none => rfl
    | some d' => exact ih d'
  | case4 => rfl
  | case5 => simp_all [setLetters]

theorem setLong_withExpression (name : String) (value : Option String) :
    (d.withExpression e).setLong c name value =
      (d.setLong c name value).map (Prod.map (·.withExpression e) id) := by
  unfold setLong
  split
  · rw [setValue_withExpression, Option.map_map, Option.map_map]
    rfl
  · split
    case h_3 =>
      rw [setPretty_withExpression, Option.map_map, Option.map_map]
      rfl
    all_goals rfl

/-- An option does to a draft what it does whatever expression the draft has. -/
theorem take_withExpression (h : mode.takesExpression arg.toList = false) :
    (d.withExpression e).take c mode arg =
      (d.take c mode arg).map (Prod.map (·.withExpression e) id) := by
  unfold take
  split
  case h_1 => contradiction
  case h_2 =>
    split_ifs
    · rfl
    · rw [setValue_withExpression, Option.map_map, Option.map_map]
      rfl
  case h_3 => rfl
  case h_4 => exact setLong_withExpression _ _
  case h_5 =>
    rw [setLetters_withExpression, Option.map_map, Option.map_map]
    rfl
  case h_6 => simp_all [Mode.takesExpression, isOption]

/-- What an argument does that is taken: it gives the expression, which must not have been given, or
it does the same to a draft with any other expression. -/
theorem take_cases (h : d.take c mode arg = some (d', mode')) :
    (mode.takesExpression arg.toList ∧ d.expression = none ∧ d' = d.withExpression (some arg) ∧
      mode' = mode) ∨
    (mode.takesExpression arg.toList = false ∧ d'.expression = d.expression ∧
      ∀ e, (d.withExpression e).take c mode arg = some (d'.withExpression e, mode')) := by
  cases htakes : mode.takesExpression arg.toList with
  | true =>
    rw [take_expression htakes, setExpression] at h
    split at h
    next hnone =>
      cases h
      exact .inl ⟨rfl, by simpa using hnone, rfl, rfl⟩
    next => contradiction
  | false =>
    have hany : ∀ e, (d.withExpression e).take c mode arg = some (d'.withExpression e, mode') := by
      intro e
      rw [take_withExpression htakes, h]
      rfl
    have hsame := hany d.expression
    rw [show d.withExpression d.expression = d from rfl, h] at hsame
    exact .inr ⟨rfl, congrArg (·.1.expression) (Option.some.inj hsame), hany⟩

end Draft

/-! ### Arguments behind a command -/

open Draft

theorem readArguments_of_take (htake : d.take c mode arg = some (d', mode'))
    (hhelp : d'.help = false) :
    readArguments c v d mode (arg :: args) = readArguments c v d' mode' args := by
  rw [readArguments, htake]
  simp [hhelp]

theorem exists_take (h : readArguments c v d mode (arg :: args) = some (.run c' v' o)) :
    ∃ d' mode', d.take c mode arg = some (d', mode') ∧ d'.help = false ∧
      readArguments c v d' mode' args = some (.run c' v' o) := by
  rw [readArguments] at h
  split at h
  next => contradiction
  next d' mode' htake =>
    cases hhelp : d'.help with
    | true => simp [hhelp] at h
    | false => exact ⟨d', mode', htake, hhelp, by simpa [hhelp] using h⟩

/-- Without the expression that has been read, the rest is read as before. -/
theorem readArguments_given (hd : d.expression = some s)
    (h : readArguments c v d mode args = some (.run c' v' o)) : o.expression = some s ∧
      readArguments c v (d.withExpression none) mode args =
        some (.run c' v' { o with expression := none }) := by
  induction args generalizing d mode with
  | nil =>
    cases mode with
    | value => contradiction
    | free | plain =>
      cases h
      exact ⟨hd, rfl⟩
  | cons arg args ih =>
    obtain ⟨d', mode', htake, hhelp, hrest⟩ := exists_take h
    rcases take_cases htake with ⟨-, hnone, -⟩ | ⟨-, hsame, hany⟩
    · rw [hd] at hnone
      contradiction
    · obtain ⟨ho, hread⟩ := ih (hsame.trans hd) hrest
      have hhelp' : (d'.withExpression none).help = false := hhelp
      exact ⟨ho, (readArguments_of_take (hany none) hhelp').trans hread⟩

/-- The expression can be left out. -/
theorem readArguments_omit (hd : d.expression = none)
    (h : readArguments c v d mode args = some (.run c' v' o)) (ho : o.expression = some s) :
    ∃ before after, args = before ++ s :: after ∧
      readArguments c v d mode (before ++ after) =
        some (.run c' v' { o with expression := none }) := by
  induction args generalizing d mode with
  | nil =>
    cases mode with
    | value => contradiction
    | free | plain =>
      cases h
      exact absurd (hd.symm.trans ho) (by simp)
  | cons arg args ih =>
    obtain ⟨d', mode', htake, hhelp, hrest⟩ := exists_take h
    rcases take_cases htake with ⟨-, -, rfl, rfl⟩ | ⟨-, hsame, -⟩
    · obtain ⟨hgiven, hread⟩ := readArguments_given rfl hrest
      obtain rfl : arg = s := Option.some.inj (hgiven.symm.trans ho)
      have hdraft : (d.withExpression (some arg)).withExpression none = d := by
        rw [← hd]
        rfl
      rw [hdraft] at hread
      exact ⟨[], args, rfl, hread⟩
    · obtain ⟨before, after, rfl, hread⟩ := ih (hsame.trans hd) hrest
      exact ⟨arg :: before, after, rfl, (readArguments_of_take htake hhelp).trans hread⟩

/-- Any text can be added as the expression, behind two dashes if there are none yet. -/
theorem readArguments_add (hd : d.expression = none) (hhelp : d.help = false)
    (h : readArguments c v d mode args = some (.run c' v' o)) (ho : o.expression = none) (s : String) :
    ∃ added ∈ [[s], ["--", s]], readArguments c v d mode (args ++ added) =
      some (.run c' v' { o with expression := some s }) := by
  induction args generalizing d mode with
  | nil =>
    have hgiven : readArguments c v d .plain [s] =
        some ((d.withExpression (some s)).request c v) := by
      have htake : d.take c .plain s = some (d.withExpression (some s), .plain) := by
        rw [take_expression rfl, setExpression, hd]
        rfl
      exact readArguments_of_take htake hhelp
    cases mode with
    | value => contradiction
    | plain =>
      cases h
      exact ⟨[s], by simp, hgiven⟩
    | free =>
      cases h
      exact ⟨["--", s], by simp, (readArguments_of_take rfl hhelp).trans hgiven⟩
  | cons arg args ih =>
    obtain ⟨d', mode', htake, hhelp', hrest⟩ := exists_take h
    rcases take_cases htake with ⟨-, -, rfl, rfl⟩ | ⟨-, hsame, -⟩
    · rw [(readArguments_given rfl hrest).1] at ho
      contradiction
    · obtain ⟨added, hadded, hread⟩ := ih (hsame.trans hd) hhelp' hrest
      exact ⟨added, hadded, (readArguments_of_take htake hhelp').trans hread⟩

/-! ### Whole command lines -/

theorem readLetters_ne_run (n : Nat) (letters : List Char) :
    readLetters n letters ≠ some (.inr (.run c v o)) := by
  fun_induction readLetters n letters with
  | case1 | case3 | case4 | case5 => simp
  | case2 n cs ih => exact ih

/-- What an argument before the command comes to that is none of the words there. -/
def readRun (n : Nat) (arg : String) : Option (Nat ⊕ Request) :=
  if isOption arg.toList then readLetters n arg.toList.tail else none

theorem readFrom_run (n : Nat) (rest : List String) (hcheck : arg ≠ "check")
    (htokens : arg ≠ "tokens") (hhelp : arg ≠ "help") (hhelp' : arg ≠ "--help")
    (hversion : arg ≠ "--version") (hverbose : arg ≠ "--verbose") :
    readFrom n (arg :: rest) =
      (readRun n arg).elim none (Sum.elim (fun n' => readFrom n' rest) some) := by
  rw [readFrom.eq_def]
  split
  case h_8 heq =>
    cases heq
    split
    next letter letters harg =>
      have hletters : readRun n arg = readLetters n (letter :: letters) := by
        rw [readRun, harg]
        rfl
      rw [hletters]
      rcases readLetters n (letter :: letters) with _ | _ | _ <;> rfl
    next hnot =>
      have hword : isOption arg.toList = false := by
        unfold isOption
        split
        next c cs harg => exact absurd harg (hnot c cs)
        next => rfl
      simp [readRun, hword]
  all_goals simp_all

/-- An argument before the command names it, or changes the verbosity at most, or ends the reading
without a command to run. -/
theorem readFrom_cases (n : Nat) (arg : String) :
    (∃ c, ∀ rest, readFrom n (arg :: rest) = readArguments c n {} .free rest) ∨
    (∃ n', ∀ rest, readFrom n (arg :: rest) = readFrom n' rest) ∨
    ∀ rest c v o, readFrom n (arg :: rest) ≠ some (.run c v o) := by
  by_cases hcheck : arg = "check"
  · subst hcheck
    exact .inl ⟨.check, fun rest => by rw [readFrom]⟩
  by_cases htokens : arg = "tokens"
  · subst htokens
    exact .inl ⟨.tokens, fun rest => by rw [readFrom]⟩
  by_cases hverbose : arg = "--verbose"
  · subst hverbose
    exact .inr (.inl ⟨n + 1, fun rest => by rw [readFrom]⟩)
  by_cases hanswer : arg = "help" ∨ arg = "--help" ∨ arg = "--version"
  · rcases hanswer with rfl | rfl | rfl <;> exact .inr (.inr fun rest c v o => by simp [readFrom])
  simp only [not_or] at hanswer
  obtain ⟨hhelp, hhelp', hversion⟩ := hanswer
  have hread := fun rest => readFrom_run n rest hcheck htokens hhelp hhelp' hversion hverbose
  simp only [hread]
  cases hrun : readRun n arg with
  | none => exact .inr (.inr (by simp))
  | some found =>
    cases found with
    | inl n' => exact .inr (.inl ⟨n', fun rest => rfl⟩)
    | inr request =>
      refine .inr (.inr fun rest c v o heq => ?_)
      obtain rfl : request = .run c v o := Option.some.inj heq
      rw [readRun] at hrun
      split at hrun
      · exact readLetters_ne_run _ _ hrun
      · contradiction

/-- A command line with the expression left out is read as before, without one. -/
theorem read_omit (h : read args = some (.run c v o)) (ho : o.expression = some s) :
    ∃ before after, args = before ++ s :: after ∧
      read (before ++ after) = some (.run c v { o with expression := none }) := by
  have hfrom : ∀ n, readFrom n args = some (.run c v o) → ∃ before after,
      args = before ++ s :: after ∧
        readFrom n (before ++ after) = some (.run c v { o with expression := none }) := by
    clear h
    induction args with
    | nil => exact fun n h => by contradiction
    | cons arg args ih =>
      intro n h
      rcases readFrom_cases n arg with ⟨c', hread⟩ | ⟨n', hread⟩ | hread
      · rw [hread] at h
        obtain ⟨before, after, rfl, hrest⟩ := readArguments_omit rfl h ho
        exact ⟨arg :: before, after, rfl, (hread _).trans hrest⟩
      · rw [hread] at h
        obtain ⟨before, after, rfl, hrest⟩ := ih n' h
        exact ⟨arg :: before, after, rfl, (hread _).trans hrest⟩
      · exact (hread _ _ _ _ h).elim
  exact hfrom 0 h

/-- A command line without an expression can be given any text as one. -/
theorem read_add (h : read args = some (.run c v o)) (ho : o.expression = none) (s : String) :
    ∃ added ∈ [[s], ["--", s]],
      read (args ++ added) = some (.run c v { o with expression := some s }) := by
  have hfrom : ∀ n, readFrom n args = some (.run c v o) → ∃ added ∈ [[s], ["--", s]],
      readFrom n (args ++ added) = some (.run c v { o with expression := some s }) := by
    clear h
    induction args with
    | nil => exact fun n h => by contradiction
    | cons arg args ih =>
      intro n h
      rcases readFrom_cases n arg with ⟨c', hread⟩ | ⟨n', hread⟩ | hread
      · rw [hread] at h
        obtain ⟨added, hadded, hrest⟩ := readArguments_add rfl rfl h ho s
        exact ⟨added, hadded, (hread _).trans hrest⟩
      · rw [hread] at h
        obtain ⟨added, hadded, hrest⟩ := ih n' h
        exact ⟨added, hadded, (hread _).trans hrest⟩
      · exact (hread _ _ _ _ h).elim
  exact hfrom 0 h

end FilterLang.CommandLine
