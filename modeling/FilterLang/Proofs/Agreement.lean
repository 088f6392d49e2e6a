import FilterLang.Command
import FilterLang.Proofs.Reporting
import FilterLang.Proofs.Verdicts

/-! Every way to ask about a text finds the same tokens and the same verdict. A text is trimmed and cut
into tokens before it is parsed, whoever asks. The two commands prepare alike, so they fail alike
before they look at the text; after that only `tokens` fails, and just on what `check` reports as
unrecognized. -/
namespace FilterLang

theorem Settings.parse_eq (s : Settings) (text : String) : s.parse text =
    match s.tokenize text with
    | .ok ts => parseTokens ts s.limits
    | .error e => .error (.unrecognized e) := by
  cases h : s.tokenize text with
  | ok ts => exact parse_of_tokens h
  | error e => exact parse_of_unrecognized h

variable {engine : Engine} {o : Options} {text : String} {s : Settings} {f : Failure}

/-! ### Preparation -/

theorem Options.prepare_of_ok {p : VariablePattern} (htext : o.expression = some text)
    (hp : o.pattern? engine = .ok p) : o.prepare engine = .ok (text, { pattern := p, limits := o.limits }) := by
  simp [prepare, htext, hp]

/-- Before anything is done with a text there are two ways to fail. -/
theorem Options.prepare_cases (engine : Engine) (o : Options) :
    o.prepare engine = .error .noInput ∨ (∃ e, o.prepare engine = .error (.pattern e)) ∨
      ∃ text p, o.expression = some text ∧ o.pattern? engine = .ok p := by
  cases htext : o.expression with
  | none => exact .inl (by simp [prepare, htext])
  | some text =>
    cases hp : o.pattern? engine with
    | error e => exact .inr (.inl ⟨e, by simp [prepare, htext, hp]⟩)
    | ok p => exact .inr (.inr ⟨text, p, rfl, rfl⟩)

theorem check_of_error (h : o.prepare engine = .error f) : check o engine = .error f := by
  rw [check, h]
  rfl

theorem listTokens_of_error (h : o.prepare engine = .error f) : listTokens o engine = .error f := by
  rw [listTokens, h]
  rfl

theorem check_of_prepare (h : o.prepare engine = .ok (text, s)) : check o engine =
    .ok ⟨s.parse text, (Verdict.report (s.parse text)).render o.layout, (s.examine text).2⟩ := by
  rw [check, h]
  rfl

theorem listTokens_of_tokens {ts : List Token} (h : o.prepare engine = .ok (text, s))
    (hts : s.tokenize text = .ok ts) : listTokens o engine = .ok ((reportTokens ts).render o.layout) := by
  simp [listTokens, h, hts, bind, Except.bind, pure, Except.pure]

theorem listTokens_of_unrecognized {e : Unrecognized} (h : o.prepare engine = .ok (text, s))
    (he : s.tokenize text = .error e) : listTokens o engine = .error (.unrecognized e) := by
  simp [listTokens, h, he, bind, Except.bind, throw, throwThe, MonadExceptOf.throw]

/-! ### Agreement -/

/-- A verdict on a text is what its tokens are judged to be, whichever way it is asked for. The
commands fail alike for want of an expression or of a good pattern; what `tokens` fails to recognize
is the verdict of `check`; and otherwise the tokens that `tokens` lists are those whose parse `check`
reports. -/
theorem verdicts_agree :
    (∀ (p : VariablePattern) (text : String),
      let s : Settings := { pattern := p }
      validate p text = s.parse text ∧ validator p text = s.parse text ∧
        s.parse text = match s.tokenize text with
          | .ok ts => judge ts
          | .error e => .error (.unrecognized e)) ∧
    ∀ (engine : Engine) (o : Options),
      (check o engine = .error .noInput ↔ listTokens o engine = .error .noInput) ∧
      (∀ e, check o engine = .error (.pattern e) ↔ listTokens o engine = .error (.pattern e)) ∧
      (∀ e, listTokens o engine = .error (.unrecognized e) ↔
        ∃ r, check o engine = .ok r ∧ r.verdict = .error (.unrecognized e)) ∧
      (listTokens o engine = .error .noInput ∨ (∃ e, listTokens o engine = .error (.pattern e)) ∨
        (∃ e, listTokens o engine = .error (.unrecognized e)) ∨
        ∃ text p ts r, o.expression = some text ∧ o.pattern? engine = .ok p ∧
          Settings.tokenize { pattern := p } text = .ok ts ∧
          listTokens o engine = .ok ((reportTokens ts).render o.layout) ∧ check o engine = .ok r ∧
          r.verdict = parseTokens ts o.limits ∧
          r.output = (Verdict.report r.verdict).render o.layout ∧
          (Verdict.report r.verdict).field? "valid" = some (.bool r.isValid)) := by
  constructor
  · intro p text s
    exact ⟨rfl, rfl, s.parse_eq text⟩
  · intro engine o
    rcases o.prepare_cases engine with h | ⟨e, h⟩ | ⟨text, p, htext, hp⟩
    · simp [check_of_error h, listTokens_of_error h]
    · simp [check_of_error h, listTokens_of_error h]
    · have h := o.prepare_of_ok htext hp
      have hcheck := check_of_prepare h
      cases htokens : Settings.tokenize { pattern := p, limits := o.limits } text with
      | error e =>
        rw [Settings.parse_of_unrecognized htokens] at hcheck
        simp [hcheck, listTokens_of_unrecognized h htokens]
      | ok ts =>
        have hlist := listTokens_of_tokens h htokens
        rw [Settings.parse_of_tokens htokens] at hcheck
        have hgrammar : ∀ e, parseTokens ts o.limits ≠ .error (.unrecognized e) := by
          intro e he
          rcases parseTokens_eq_error he with ⟨-, hr⟩ | ⟨-, g, hr, -⟩ <;> cases hr
        refine ⟨by simp [hcheck, hlist], by simp [hcheck, hlist], ?_, ?_⟩
        · simp [hcheck, hlist, hgrammar]
        · exact .inr (.inr (.inr ⟨text, p, ts, _, htext, hp, htokens, hlist, hcheck, rfl, rfl,
            Verdict.report_valid _⟩))

end FilterLang
