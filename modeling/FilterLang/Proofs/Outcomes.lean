import FilterLang.Program
import FilterLang.Proofs.Agreement
import FilterLang.Proofs.Omission

/-! What a run of a command leaves behind. A run fails, with nothing in its output and the message of
the failure on standard error, or it reports, with an exit code that repeats what the report says. It
makes no difference whether the expression is an argument or comes from standard input. -/
namespace FilterLang.Program

variable {engine : Engine} {c : CommandName} {v : Nat} {o : Options} {bytes : ByteArray}
  {text : String} {out : Outcome}

/-! ### Where the expression comes from -/

/-- The text of the expression: the one given, or else what standard input holds, if it can be
decoded. -/
def text? (o : Options) (bytes : ByteArray) : Option String :=
  o.expression.or (String.fromUTF8? bytes)

theorem readExpression_of_text (h : text? o bytes = some text) :
    readExpression o.expression (some bytes) = .ok (some text) := by
  rw [text?] at h
  unfold readExpression
  cases he : o.expression with
  | some given => simpa [he] using h
  | none =>
    rw [he, Option.none_or] at h
    simp [h]

theorem readExpression_of_undecodable (h : text? o bytes = none) :
    readExpression o.expression (some bytes) =
      .error (.io "stream did not contain valid UTF-8") := by
  obtain ⟨he, hbytes⟩ := Option.or_eq_none_iff.mp h
  simp [readExpression, he, hbytes]

/-- A text is the same expression whether it is given or stands in standard input. -/
theorem run_given (c : CommandName) (v : Nat) (o : Options) (s : String)
    (stdin : Option ByteArray) : run (.run c v { o with expression := some s }) stdin engine =
      run (.run c v { o with expression := none }) (some s.toUTF8) engine := by
  have hgiven : readExpression (some s) stdin = .ok (some s) := rfl
  have hdecode : String.fromUTF8? s.toUTF8 = some s := dif_pos s.isValidUTF8
  have hread : readExpression none (some s.toUTF8) = .ok (some s) := by
    simp only [readExpression, hdecode]
  rw [run, run, hgiven, hread]

/-! ### How a run ends -/

/-- What goes wrong first: standard input is decoded before the pattern is looked at, and the pattern
before the text. -/
inductive Fails (engine : Engine) (c : CommandName) (o : Options) (bytes : ByteArray) :
    Failure → Prop where
  | undecodable (ht : text? o bytes = none) :
      Fails engine c o bytes (.io "stream did not contain valid UTF-8")
  | pattern {text : String} {e : PatternError} (ht : text? o bytes = some text)
      (hp : o.pattern? engine = .error e) : Fails engine c o bytes (.pattern e)
  | unrecognized {text : String} {p : VariablePattern} {e : Unrecognized} (hc : c = .tokens)
      (ht : text? o bytes = some text) (hp : o.pattern? engine = .ok p)
      (he : Settings.tokenize { pattern := p } text = .error e) :
      Fails engine c o bytes (.unrecognized e)

/-- What a run of a command leaves behind, whatever the journal has in it. -/
inductive Ends (engine : Engine) (c : CommandName) (o : Options) (bytes : ByteArray) :
    Outcome → Prop where
  | failed {f : Failure} (h : Fails engine c o bytes f) : Ends engine c o bytes (failed f)
  | valid {text : String} {p : VariablePattern} {e : Expr} (journal : List JournalEntry)
      (hc : c = .check) (ht : text? o bytes = some text) (hp : o.pattern? engine = .ok p)
      (hv : Settings.parse { pattern := p, limits := o.limits } text = .ok e) :
      Ends engine c o bytes ⟨0, (Verdict.report (.ok e)).render o.layout ++ "\n", journal, none⟩
  | invalid {text : String} {p : VariablePattern} {r : Rejection} (journal : List JournalEntry)
      (hc : c = .check) (ht : text? o bytes = some text) (hp : o.pattern? engine = .ok p)
      (hv : Settings.parse { pattern := p, limits := o.limits } text = .error r) :
      Ends engine c o bytes ⟨1, (Verdict.report (.error r)).render o.layout ++ "\n", journal, none⟩
  | listed {text : String} {p : VariablePattern} {ts : List Token}
      (hc : c = .tokens) (ht : text? o bytes = some text) (hp : o.pattern? engine = .ok p)
      (hts : Settings.tokenize { pattern := p } text = .ok ts) :
      Ends engine c o bytes ⟨0, (reportTokens ts).render o.layout ++ "\n", [], none⟩

theorem run_ends (engine : Engine) (c : CommandName) (v : Nat) (o : Options) (bytes : ByteArray) :
    Ends engine c o bytes (run (.run c v o) (some bytes) engine) := by
  cases ht : text? o bytes with
  | none =>
    rw [run, readExpression_of_undecodable ht]
    exact .failed (.undecodable ht)
  | some text =>
    rw [run, readExpression_of_text ht]
    let given : Options := { o with expression := some text }
    cases hp : o.pattern? engine with
    | error e =>
      have hprepare : given.prepare engine = .error (.pattern e) := by
        simp [Options.prepare, given, show given.pattern? engine = .error e from hp]
      cases c with
      | check =>
        change Ends engine .check o bytes (runCheck engine v given)
        rw [runCheck, check_of_error hprepare]
        exact .failed (.pattern ht hp)
      | tokens =>
        change Ends engine .tokens o bytes (runTokens engine given)
        rw [runTokens, listTokens_of_error hprepare]
        exact .failed (.pattern ht hp)
    | ok p =>
      have hprepare := given.prepare_of_ok rfl (show given.pattern? engine = .ok p from hp)
      cases c with
      | check =>
        change Ends engine .check o bytes (runCheck engine v given)
        rw [runCheck, check_of_prepare hprepare]
        cases hv : Settings.parse { pattern := p, limits := o.limits } text with
        | ok e => exact .valid _ rfl ht hp hv
        | error r => exact .invalid _ rfl ht hp hv
      | tokens =>
        change Ends engine .tokens o bytes (runTokens engine given)
        rw [runTokens]
        cases htokens : Settings.tokenize { pattern := p } text with
        | error e =>
          rw [listTokens_of_unrecognized hprepare htokens]
          exact .failed (.unrecognized rfl ht hp htokens)
        | ok ts =>
          rw [listTokens_of_tokens hprepare htokens]
          exact .listed rfl ht hp htokens

namespace Ends

theorem exitCode (h : Ends engine c o bytes out) :
    out.exitCode = 0 ∨ out.exitCode = 1 ∨ out.exitCode = 2 := by
  cases h with
  | failed => exact .inr (.inr rfl)
  | invalid => exact .inr (.inl rfl)
  | valid | listed => exact .inl rfl

/-- A run without output is one that fails. -/
theorem exitCode_eq_two (h : Ends engine c o bytes out) : out.exitCode = 2 ↔ out.output = "" := by
  cases h with
  | failed => simp [Program.failed]
  | valid | invalid | listed => simp

theorem exists_fails (h : Ends engine c o bytes out) (hcode : out.exitCode = 2) :
    ∃ f, Fails engine c o bytes f ∧ out = Program.failed f := by
  cases h with
  | @failed f h => exact ⟨f, h, rfl⟩
  | valid | invalid | listed => simp at hcode

theorem of_undecodable (h : Ends engine c o bytes out) (ht : text? o bytes = none) :
    out = Program.failed (.io "stream did not contain valid UTF-8") := by
  cases h with
  | failed h =>
    cases h with
    | undecodable => rfl
    | pattern hsome | unrecognized _ hsome => rw [ht] at hsome; contradiction
  | valid _ _ hsome | invalid _ _ hsome | listed _ hsome => rw [ht] at hsome; contradiction

/-- What is reported about a text that is not valid. -/
theorem of_one (h : Ends engine c o bytes out) (hcode : out.exitCode = 1) : c = .check ∧
    ∃ text p, text? o bytes = some text ∧ o.pattern? engine = .ok p ∧
      let report := Verdict.report (Settings.parse { pattern := p, limits := o.limits } text)
      report.field? "valid" = some (.bool false) ∧ out.output = report.render o.layout ++ "\n" := by
  cases h with
  | failed => simp [Program.failed] at hcode
  | valid | listed => simp at hcode
  | @invalid text p r _ hc ht hp hv =>
    refine ⟨hc, text, p, ht, hp, ?_⟩
    rw [hv]
    exact ⟨Verdict.report_valid _, rfl⟩

/-- What is reported with success. -/
theorem of_zero (h : Ends engine c o bytes out) (hcode : out.exitCode = 0) :
    ∃ text p, text? o bytes = some text ∧ o.pattern? engine = .ok p ∧
      ((c = .check ∧
        let report := Verdict.report (Settings.parse { pattern := p, limits := o.limits } text)
        report.field? "valid" = some (.bool true) ∧ out.output = report.render o.layout ++ "\n") ∨
      (c = .tokens ∧ ∃ ts, Settings.tokenize { pattern := p } text = .ok ts ∧
        out.output = (reportTokens ts).render o.layout ++ "\n")) := by
  cases h with
  | failed => simp [Program.failed] at hcode
  | invalid => simp at hcode
  | @valid text p e _ hc ht hp hv =>
    refine ⟨text, p, ht, hp, .inl ⟨hc, ?_⟩⟩
    rw [hv]
    exact ⟨Verdict.report_valid _, rfl⟩
  | @listed text p ts hc ht hp hts => exact ⟨text, p, ht, hp, .inr ⟨hc, ts, hts, rfl⟩⟩

end Ends

theorem errorText_failed (f : Failure) : (failed f).errorText = f.message ++ "\n" := by
  simp [Outcome.errorText, failed]

open CommandLine in
/-- The exit code of a command is 2 just when nothing is put out, and then standard error has the
message of what went wrong first; it is 1 only when `check` reports a text as not valid, and 0 when
`check` reports it as valid or `tokens` lists its tokens. On a command line the expression can be left
out, and any text can be added as one; a run is the same with the expression on the command line and
with its text in standard input. -/
theorem run_agrees (engine : Engine) :
    (∀ (c : CommandName) (v : Nat) (o : Options) (bytes : ByteArray),
      let out := run (.run c v o) (some bytes) engine
      (out.exitCode = 0 ∨ out.exitCode = 1 ∨ out.exitCode = 2) ∧
      (out.exitCode = 2 ↔ out.output = "") ∧
      (out.exitCode = 2 → ∃ f, Fails engine c o bytes f ∧ out.failure = some f ∧
        out.errorText = f.message ++ "\n") ∧
      (o.expression = none → String.fromUTF8? bytes = none →
        out = failed (.io "stream did not contain valid UTF-8")) ∧
      (out.exitCode = 1 → c = .check ∧
        ∃ text p, text? o bytes = some text ∧ o.pattern? engine = .ok p ∧
        let report := Verdict.report (Settings.parse { pattern := p, limits := o.limits } text)
        report.field? "valid" = some (.bool false) ∧ out.output = report.render o.layout ++ "\n") ∧
      (out.exitCode = 0 → ∃ text p, text? o bytes = some text ∧ o.pattern? engine = .ok p ∧
        ((c = .check ∧
          let report := Verdict.report (Settings.parse { pattern := p, limits := o.limits } text)
          report.field? "valid" = some (.bool true) ∧
            out.output = report.render o.layout ++ "\n") ∨
        (c = .tokens ∧ ∃ ts, Settings.tokenize { pattern := p } text = .ok ts ∧
          out.output = (reportTokens ts).render o.layout ++ "\n")))) ∧
    ∀ (args : List String) (c : CommandName) (v : Nat) (o : Options),
      read args = some (.run c v o) →
      (∀ s, o.expression = some s → ∃ before after, args = before ++ s :: after ∧
        read (before ++ after) = some (.run c v { o with expression := none }) ∧
        ∀ stdin, run (.run c v o) stdin engine =
          run (.run c v { o with expression := none }) (some s.toUTF8) engine) ∧
      (o.expression = none → ∀ s, ∃ added ∈ [[s], ["--", s]],
        read (args ++ added) = some (.run c v { o with expression := some s }) ∧
        ∀ stdin, run (.run c v { o with expression := some s }) stdin engine =
          run (.run c v o) (some s.toUTF8) engine) := by
  constructor
  · intro c v o bytes out
    have hends : Ends engine c o bytes out := run_ends engine c v o bytes
    refine ⟨hends.exitCode, hends.exitCode_eq_two, fun hcode => ?_, fun he hbytes => ?_,
      hends.of_one, hends.of_zero⟩
    · obtain ⟨f, hf, hout⟩ := hends.exists_fails hcode
      rw [hout]
      exact ⟨f, hf, rfl, errorText_failed f⟩
    · exact hends.of_undecodable (Option.or_eq_none_iff.mpr ⟨he, hbytes⟩)
  · intro args c v o hread
    constructor
    · intro s hs
      obtain ⟨before, after, hargs, homit⟩ := read_omit hread hs
      refine ⟨before, after, hargs, homit, fun stdin => ?_⟩
      rw [← run_given c v o s stdin, ← hs]
    · intro hnone s
      obtain ⟨added, hadded, hgiven⟩ := read_add hread hnone s
      refine ⟨added, hadded, hgiven, fun stdin => ?_⟩
      rw [run_given, ← hnone]

open CommandLine in
/-- An expression that ends too early, on the command line and in standard input, for an engine that
knows the letters. -/
theorem run_agrees_cut_short :
    let engine : Engine := { Engine.plain with
      property? := fun name => if name = ['L'] then some (.range 'a' 'z') else none }
    let o : Options := { expression := some "abc <", pattern := some "\\pL+" }
    let out := run (.run .check 2 o) (some .empty) engine
    let args := ["check", "--pattern", "\\pL+", "abc <", "-vv"]
    read args = some (.run .check 2 o) ∧ out.exitCode = 1 ∧
      (∃ text p, text? o .empty = some text ∧ o.pattern? engine = .ok p ∧
        let report := Verdict.report (Settings.parse { pattern := p, limits := o.limits } text)
        report.field? "valid" = some (.bool false) ∧
          out.output = report.render o.layout ++ "\n") ∧
      ∃ before after, args = before ++ "abc <" :: after ∧
        read (before ++ after) = some (.run .check 2 { o with expression := none }) ∧
        out = run (.run .check 2 { o with expression := none }) (some "abc <".toUTF8) engine := by
  intro engine o out args
  have hread : read args = some (.run .check 2 o) := rfl
  have hcode : out.exitCode = 1 := by decide +kernel
  obtain ⟨-, -, -, -, hone, -⟩ := (run_agrees engine).1 .check 2 o .empty
  obtain ⟨before, after, hargs, homit, hrun⟩ := ((run_agrees engine).2 _ _ _ _ hread).1 "abc <" rfl
  exact ⟨hread, hcode, (hone hcode).2, before, after, hargs, homit, hrun _⟩

end FilterLang.Program
