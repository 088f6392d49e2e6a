import FilterLang.Proofs.Reading

/-! Errors stand at the first impossible token. A list begins an accepted one just when the machine
can read it within the limits (`viable_iff`): one more operand, if one is due, and the closing
parentheses of the open groups complete it. So the machine never reads on when there is no hope, and
never stops at a token while there is. -/
namespace FilterLang

/-- A fresh parser with these limits accepts the list. -/
def Limits.Accepts (limits : Limits) (ts : List Token) : Prop := ∃ e, parseTokens ts limits = .ok e

/-- The list can be continued to an accepted one. -/
def Limits.Viable (limits : Limits) (ts : List Token) : Prop := ∃ us, limits.Accepts (ts ++ us)

/-- The tokens before place `i` begin an accepted list, and with the token at `i` they do not. -/
def Limits.StuckAt (limits : Limits) (ts : List Token) (i : Nat) : Prop :=
  limits.Viable (ts.take i) ∧ ¬ limits.Viable (ts.take (i + 1))

/-! ### Completions -/

namespace Token

def rightParen : Token := ⟨.rightParen, ")", 0⟩

def truth : Token := ⟨.literal .boolean, "true", 0⟩

/-- The closing parentheses of so many groups. -/
def closers (n : Nat) : List Token := List.replicate n rightParen

theorem closers_isRight (n : Nat) : ∀ t ∈ closers n, t.isRight := by
  intro t ht
  rw [List.eq_of_mem_replicate ht]
  rfl

end Token

/-- What completes the tokens read before the stage. -/
def Stage.completion : Stage → List Token
  | operand _ outer => Token.truth :: Token.closers outer.length
  | operator _ _ outer => Token.closers outer.length

theorem Reads.closers (e : Expr) (p : Pending) (outer : List Pending) :
    ∃ x q, Reads (.operator e p outer) (Token.closers outer.length) (.operator x q []) := by
  induction outer generalizing e p with
  | nil => exact ⟨e, p, .nil⟩
  | cons q outer ih =>
    obtain ⟨x, r, h⟩ := ih (q.relational (p.whole e)) { q with relation := none }
    exact ⟨x, r, .cons (.closing rfl) h⟩

theorem Reads.completion (s : Stage) : ∃ x q, Reads s s.completion (.operator x q []) := by
  cases s with
  | operand p outer =>
    obtain ⟨x, q, h⟩ := Reads.closers (p.relational (.literal (.boolean true)))
      { p with relation := none } outer
    exact ⟨x, q, .cons (.literal rfl) h⟩
  | operator e p outer => exact Reads.closers e p outer

theorem Stage.completion_plain (s : Stage) :
    ∀ t ∈ s.completion, t.isLeft = false ∧ t.isOperator = false := by
  have hclose : ∀ n, ∀ t ∈ Token.closers n, t.isLeft = false ∧ t.isOperator = false := by
    intro n t ht
    rw [List.eq_of_mem_replicate ht]
    exact ⟨rfl, rfl⟩
  cases s with
  | operand p outer =>
    intro t ht
    rcases List.mem_cons.mp ht with rfl | ht
    · exact ⟨rfl, rfl⟩
    · exact hclose _ t ht
  | operator e p outer => exact hclose _

section Viability

variable {limits : Limits} {us vs : List Token} {s : Stage} {t : Token}

theorem accepts_iff {ts : List Token} : limits.Accepts ts ↔
    ∃ x p, Reads .start ts (.operator x p []) ∧ limits.AdmitsAll {} ts := by
  simp only [Limits.Accepts, parseTokens_eq_ok]
  constructor
  · rintro ⟨e, x, p, hr, -, ha⟩
    exact ⟨x, p, hr, ha⟩
  · rintro ⟨x, p, hr, ha⟩
    exact ⟨_, x, p, hr, rfl, ha⟩

theorem Reads.accepts_completion (h : Reads .start us s) (ha : limits.AdmitsAll {} us) :
    limits.Accepts (us ++ s.completion) := by
  obtain ⟨x, q, hs⟩ := Reads.completion s
  exact accepts_iff.mpr ⟨x, q, h.append hs, Limits.admitsAll_append.mpr
    ⟨ha, Limits.admitsAll_of_plain s.completion_plain⟩⟩

/-- The beginnings of accepted lists are what can be read within the limits. -/
theorem viable_iff : limits.Viable us ↔ ∃ s, Reads .start us s ∧ limits.AdmitsAll {} us := by
  constructor
  · rintro ⟨vs, h⟩
    obtain ⟨x, p, hr, ha⟩ := accepts_iff.mp h
    obtain ⟨s, hs, -⟩ := hr.split
    exact ⟨s, hs, (Limits.admitsAll_append.mp ha).1⟩
  · rintro ⟨s, hr, ha⟩
    exact ⟨s.completion, hr.accepts_completion ha⟩

/-- A run that stops at a token could not have gone on with it. -/
theorem Stops.stuckAt {c : Cursor} {r : Except GrammarError Expr} (hr : Reads .start us s)
    (ha : limits.AdmitsAll {} us) (h : Stops limits (Cursor.passAll {} us) s (t :: vs) r c) :
    limits.StuckAt (us ++ t :: vs) us.length := by
  have hnext : (us ++ t :: vs).take (us.length + 1) = us ++ [t] := List.take_length_add_append 1
  rw [Limits.StuckAt, List.take_left, hnext]
  refine ⟨viable_iff.mpr ⟨s, hr, ha⟩, fun hv => ?_⟩
  obtain ⟨s', hr', ha'⟩ := viable_iff.mp hv
  obtain ⟨s'', hs, htail⟩ := hr'.split
  cases hr.unique hs
  cases htail with
  | cons ht _ => exact h.not_admits ht (Limits.admitsAll_append.mp ha').2.1

/-- Where an operand is due, closing parentheses do not help. -/
theorem Reads.not_accepts_closers {p : Pending} {outer : List Pending}
    (h : Reads .start us (.operand p outer)) (hv : ∀ t ∈ vs, t.isRight) :
    ¬ limits.Accepts (us ++ vs) := by
  intro hacc
  obtain ⟨x, q, hr, -⟩ := accepts_iff.mp hacc
  obtain ⟨s', hs, htail⟩ := hr.split
  cases h.unique hs
  cases htail with
  | @cons _ _ _ t _ ht _ =>
    have hk := Token.isRight_iff.mp (hv t (by simp))
    cases ht with
    | opening hk' => simp [hk] at hk'
    | literal hl => simp [Literal.kind_of_ofToken? hl] at hk

end Viability

/-! ### The errors -/

/-- What an error of a fresh parser at position `p` says about the tokens. -/
def GrammarError.FirstImpossible (limits : Limits) (ts : List Token) (p : Nat) :
    GrammarError → Prop
  | unexpectedToken kind offset =>
    limits.StuckAt ts p ∧ kind.beginsOperand = false ∧
      ∃ t, ts[p]? = some t ∧ t.kind = kind ∧ t.offset = offset
  | invalidNumber text offset =>
    limits.StuckAt ts p ∧
      ∃ t, ts[p]? = some t ∧ t.kind = .literal .number ∧ t.text = text ∧ t.offset = offset
  | tooManyOperators limit offset =>
    limits.StuckAt ts p ∧ limit = limits.operators ∧
      ∃ t, ts[p]? = some t ∧ t.isOperator ∧ t.offset = offset
  | trailingToken kind offset =>
    limits.StuckAt ts p ∧ limits.Accepts (ts.take p) ∧ kind.operator? = none ∧
      ∃ t, ts[p]? = some t ∧ t.kind = kind ∧ t.offset = offset
  | missingRightParen (some (kind, offset)) =>
    limits.StuckAt ts p ∧ kind ≠ .rightParen ∧ kind.operator? = none ∧
      ∃ t, ts[p]? = some t ∧ t.kind = kind ∧ t.offset = offset
  | nestedTooDeep limit =>
    limit = limits.depth ∧ ∃ i t, p = i + 1 ∧ limits.StuckAt ts i ∧ ts[i]? = some t ∧
      t.kind = .leftParen
  | unexpectedEnd =>
    p = ts.length ∧ (∃ us, us ≠ [] ∧ limits.Accepts (ts ++ us)) ∧
      ∀ us : List Token, (∀ t ∈ us, t.isRight) → ¬ limits.Accepts (ts ++ us)
  | missingRightParen none =>
    p = ts.length ∧ ∃ us, us ≠ [] ∧ (∀ t ∈ us, t.isRight) ∧ limits.Accepts (ts ++ us)

/-- A literal's token that stands for no literal is a number's. -/
theorem Literal.number_of_ofToken?_eq_none {t : Token} {k : LiteralKind} (hk : t.kind = .literal k)
    (h : Literal.ofToken? t = none) : t.kind = .literal .number := by
  rw [Literal.ofToken?, hk] at h
  cases k <;> simp at h
  exact hk

/-- An error of a fresh parser stands at the first token with which no accepted list goes on, or at
the end of a list that needs one. -/
theorem readAll_error_firstImpossible (ts : List Token) (hne : ts ≠ []) (limits : Limits)
    (e : Rejection) (q : Parser) (h : Parser.readAll { tokens := ts, limits } = (.error e, q)) :
    ∃ g, e = .grammar g ∧ g.FirstImpossible limits ts q.cursor.position := by
  obtain ⟨us, vs, s, r, c, rfl, hr, ha, hs⟩ := Stage.exists_stops limits {} .start ts
  rw [Parser.readAll_fresh hne hr ha hs] at h
  have hlen : (Cursor.passAll {} us).position = us.length := by
    rw [Cursor.passAll_position]
    exact Nat.zero_add _
  have hget : ∀ t ws, vs = t :: ws → (us ++ vs)[us.length]? = some t := by
    rintro t ws rfl
    simp
  have hcomplete := hr.accepts_completion ha
  have hstuck : ∀ t ws, vs = t :: ws → limits.StuckAt (us ++ vs) us.length := by
    rintro t ws rfl
    exact hs.stuckAt hr ha
  cases hs with
  | unexpectedEnd =>
    cases h
    rw [← List.append_nil us] at hcomplete hr
    refine ⟨_, rfl, by simp [hlen], ⟨_, List.cons_ne_nil _ _, hcomplete⟩, ?_⟩
    intro ws hws
    exact hr.not_accepts_closers hws
  | complete => simp [Parser.conclude] at h
  | @unclosed _ _ _ outer =>
    cases h
    rw [← List.append_nil us] at hcomplete
    have hclose := Token.closers_isRight (outer.length + 1)
    exact ⟨_, rfl, by simp [hlen, Cursor.leave], _, List.cons_ne_nil _ _, hclose, hcomplete⟩
  | nested hk _ =>
    cases h
    exact ⟨_, rfl, rfl, us.length, _, by simp [Cursor.advance, hlen], hstuck _ _ rfl,
      hget _ _ rfl, hk⟩
  | invalidNumber hk hl =>
    cases h
    rw [hlen]
    exact ⟨_, rfl, hstuck _ _ rfl, _, hget _ _ rfl, Literal.number_of_ofToken?_eq_none hk hl, rfl, rfl⟩
  | unexpected hk =>
    cases h
    rw [hlen]
    exact ⟨_, rfl, hstuck _ _ rfl, hk, _, hget _ _ rfl, rfl, rfl⟩
  | tooMany hk _ =>
    cases h
    rw [hlen]
    exact ⟨_, rfl, hstuck _ _ rfl, rfl, _, hget _ _ rfl, hk, rfl⟩
  | trailing hk =>
    cases h
    rw [hlen]
    refine ⟨_, rfl, hstuck _ _ rfl, ?_, by simpa [Token.isOperator] using hk, _, hget _ _ rfl, rfl, rfl⟩
    rw [List.take_left]
    simpa [Stage.completion, Token.closers] using hcomplete
  | missing hk hright =>
    cases h
    rw [Cursor.leave, hlen]
    exact ⟨_, rfl, hstuck _ _ rfl, by simpa [Token.isRight] using hright,
      by simpa [Token.isOperator] using hk, _, hget _ _ rfl, rfl, rfl⟩

/-- In `( true true` the second operand is the first impossible token. -/
theorem readAll_error_secondOperand :
    let left : Token := ⟨.leftParen, "(", 0⟩
    let ts := [left, ⟨.literal .boolean, "true", 2⟩, ⟨.literal .boolean, "true", 7⟩]
    let q : Parser := { tokens := ts, cursor := ⟨2, 0, 0⟩ }
    let g := GrammarError.missingRightParen (some (.literal .boolean, 7))
    ts ≠ [] ∧ Parser.readAll { tokens := ts } = (.error (.grammar g), q) ∧
      g.FirstImpossible {} ts 2 := by
  intro left ts q g
  have hrun : Parser.readAll { tokens := ts } = (.error (.grammar g), q) := rfl
  have hne : ts ≠ [] := by simp [ts]
  obtain ⟨g', hg, himp⟩ := readAll_error_firstImpossible ts hne {} _ q hrun
  cases hg
  exact ⟨hne, hrun, himp⟩

end FilterLang
