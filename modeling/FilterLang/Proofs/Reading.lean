import FilterLang.Parser

/-! The parser's machine taken apart. Which stage a token leads to does not depend on the limits or
on the cursor (`Takes`), what it does to the cursor does not depend on the stage (`Cursor.pass`), and
the limits only decide whether it is let through (`Admits`). A run reads a first part of the tokens
in this way and then stops for one of nine causes (`Stops`). -/
namespace FilterLang

/-! ### Kinds of tokens -/

namespace Token

def isLeft (t : Token) : Bool := t.kind == .leftParen

def isRight (t : Token) : Bool := t.kind == .rightParen

def isOperator (t : Token) : Bool := t.kind.operator?.isSome

theorem isLeft_iff {t : Token} : t.isLeft = true ↔ t.kind = .leftParen := by simp [isLeft]

theorem isRight_iff {t : Token} : t.isRight = true ↔ t.kind = .rightParen := by simp [isRight]

theorem isOperator_iff {t : Token} : t.isOperator = true ↔ ∃ op, t.kind = .operator op := by
  unfold isOperator Kind.operator?
  split
  next op hk => simp [hk]
  next hk => simpa using hk

end Token

/-- The kind of a literal's token. -/
theorem Literal.kind_of_ofToken? {t : Token} {l : Literal} (h : Literal.ofToken? t = some l) :
    t.kind = .literal l.kind := by
  unfold Literal.ofToken? at h
  split at h
  · obtain ⟨x, -, rfl⟩ := Option.map_eq_some_iff.mp h
    assumption
  all_goals first | contradiction | (cases h; assumption)

/-! ### Stages -/

namespace Stage

/-- Before the first token. -/
def start : Stage := .operand {} []

/-- The number of open groups. -/
def opened : Stage → Nat
  | operand _ outer => outer.length
  | operator _ _ outer => outer.length

@[simp] theorem opened_operand (p : Pending) (outer : List Pending) :
    (operand p outer).opened = outer.length := rfl

@[simp] theorem opened_operator (e : Expr) (p : Pending) (outer : List Pending) :
    (operator e p outer).opened = outer.length := rfl

@[simp] theorem opened_afterOperand (p : Pending) (e : Expr) (outer : List Pending) :
    (afterOperand p e outer).opened = outer.length := rfl

end Stage

/-- The token leads from the first stage to the second, limits apart. -/
inductive Takes : Stage → Token → Stage → Prop where
  | opening {p : Pending} {outer : List Pending} {t : Token} (ht : t.kind = .leftParen) :
      Takes (.operand p outer) t (.operand {} (p :: outer))
  | literal {p : Pending} {outer : List Pending} {t : Token} {l : Literal}
      (ht : Literal.ofToken? t = some l) :
      Takes (.operand p outer) t (.afterOperand p (.literal l) outer)
  | operator {e : Expr} {p : Pending} {outer : List Pending} {t : Token} {op : Operator}
      (ht : t.kind = .operator op) :
      Takes (.operator e p outer) t (.operand (p.shift op e) outer)
  | closing {e : Expr} {p q : Pending} {outer : List Pending} {t : Token}
      (ht : t.kind = .rightParen) :
      Takes (.operator e p (q :: outer)) t (.afterOperand q (p.whole e) outer)

theorem Takes.unique {s s₁ s₂ : Stage} {t : Token} (h₁ : Takes s t s₁) (h₂ : Takes s t s₂) :
    s₁ = s₂ := by
  cases h₁ with
  | opening ht =>
    cases h₂ with
    | opening => rfl
    | literal hl => simp [Literal.kind_of_ofToken? hl] at ht
  | literal hl =>
    cases h₂ with
    | opening ht => simp [Literal.kind_of_ofToken? hl] at ht
    | literal hl' =>
      rw [hl] at hl'
      cases hl'
      rfl
  | operator ht =>
    cases h₂ with
    | operator ht' =>
      rw [ht] at ht'
      cases ht'
      rfl
    | closing ht' => simp [ht] at ht'
  | closing ht =>
    cases h₂ with
    | operator ht' => simp [ht] at ht'
    | closing => rfl

/-- The tokens lead from the first stage to the second one after another. -/
inductive Reads : Stage → List Token → Stage → Prop where
  | nil {s : Stage} : Reads s [] s
  | cons {s s' s'' : Stage} {t : Token} {ts : List Token} (h : Takes s t s') (hr : Reads s' ts s'') :
      Reads s (t :: ts) s''

namespace Reads

variable {s s' s'' s₁ s₂ : Stage} {t : Token} {us vs : List Token}

theorem single (h : Takes s t s') : Reads s [t] s' := .cons h .nil

theorem append (h₁ : Reads s us s') (h₂ : Reads s' vs s'') : Reads s (us ++ vs) s'' := by
  induction h₁ with
  | nil => exact h₂
  | cons h _ ih => exact .cons h (ih h₂)

theorem split (h : Reads s (us ++ vs) s'') : ∃ s', Reads s us s' ∧ Reads s' vs s'' := by
  induction us generalizing s with
  | nil => exact ⟨s, .nil, h⟩
  | cons t us ih =>
    cases h with
    | cons ht hr =>
      obtain ⟨s', h₁, h₂⟩ := ih hr
      exact ⟨s', .cons ht h₁, h₂⟩

theorem unique (h₁ : Reads s us s₁) (h₂ : Reads s us s₂) : s₁ = s₂ := by
  induction h₁ with
  | nil => cases h₂; rfl
  | cons ht _ ih =>
    cases h₂ with
    | cons ht' hr' =>
      cases ht.unique ht'
      exact ih hr'

end Reads

/-! ### Cursors -/

/-- The cursor behind a token that has been read. -/
def Cursor.pass (c : Cursor) (t : Token) : Cursor :=
  match t.kind with
  | .leftParen => c.enter
  | .rightParen => c.leave.advance
  | .operator _ => c.countOperator
  | _ => c.advance

/-- The cursor behind a list of tokens. -/
abbrev Cursor.passAll (c : Cursor) (ts : List Token) : Cursor := ts.foldl Cursor.pass c

namespace Cursor

variable (c : Cursor) (t : Token) (ts : List Token)

@[simp] theorem pass_position : (c.pass t).position = c.position + 1 := by
  unfold pass
  split <;> rfl

@[simp] theorem pass_operators : (c.pass t).operators = c.operators + [t].countP Token.isOperator := by
  unfold pass
  split
  next hk => simp [Token.isOperator, Kind.operator?, hk]; rfl
  next hk => simp [Token.isOperator, Kind.operator?, hk]; rfl
  next hk => simp [Token.isOperator, Kind.operator?, hk]; rfl
  next _ _ hk =>
    have ht : ¬ t.isOperator = true := by simpa [Token.isOperator_iff] using hk
    simp [ht]
    rfl

theorem passAll_position : (c.passAll ts).position = c.position + ts.length := by
  induction ts generalizing c with
  | nil => rfl
  | cons t ts ih =>
    simp only [List.foldl_cons, List.length_cons, ih, pass_position]
    omega

theorem passAll_operators :
    (c.passAll ts).operators = c.operators + ts.countP Token.isOperator := by
  induction ts generalizing c with
  | nil => rfl
  | cons t ts ih =>
    simp only [List.foldl_cons, ih, pass_operators, List.countP_cons, List.countP_nil]
    omega

end Cursor

/-- A token raises the number of open groups by one, lowers it by one or leaves it. -/
theorem Takes.opened {s s' : Stage} {t : Token} (h : Takes s t s') :
    s.opened + [t].countP Token.isLeft = s'.opened + [t].countP Token.isRight := by
  cases h with
  | opening ht => simp [Token.isLeft, Token.isRight, ht]
  | literal ht => simp [Token.isLeft, Token.isRight, Literal.kind_of_ofToken? ht]
  | operator ht => simp [Token.isLeft, Token.isRight, ht]
  | closing ht => simp [Token.isLeft, Token.isRight, ht]

theorem Takes.pass_depth {s s' : Stage} {t : Token} (h : Takes s t s') {c : Cursor} {base : Nat}
    (hc : c.depth = base + s.opened) : (c.pass t).depth = base + s'.opened := by
  cases h with
  | opening ht =>
    simp only [Stage.opened_operand, List.length_cons] at hc ⊢
    simp only [Cursor.pass, ht, Cursor.enter]
    omega
  | literal ht => simpa [Cursor.pass, Literal.kind_of_ofToken? ht, Cursor.advance] using hc
  | operator ht => simpa [Cursor.pass, ht, Cursor.countOperator, Cursor.advance] using hc
  | closing ht =>
    simp only [Stage.opened_operator, Stage.opened_afterOperand, List.length_cons] at hc ⊢
    simp only [Cursor.pass, ht, Cursor.leave, Cursor.advance]
    omega

/-- Opening parentheses less closing ones are the groups opened on the way. -/
theorem Reads.opened {s s' : Stage} {ts : List Token} (h : Reads s ts s') :
    s.opened + ts.countP Token.isLeft = s'.opened + ts.countP Token.isRight := by
  induction h with
  | nil => rfl
  | cons ht _ ih =>
    have h₁ := ht.opened
    simp only [List.countP_cons, List.countP_nil] at h₁ ⊢
    omega

/-- The depth of the cursor follows the open groups. -/
theorem Reads.passAll_depth {s s' : Stage} {ts : List Token} (h : Reads s ts s') {c : Cursor}
    {base : Nat} (hc : c.depth = base + s.opened) : (c.passAll ts).depth = base + s'.opened := by
  induction h generalizing c with
  | nil => exact hc
  | cons ht _ ih => exact ih (ht.pass_depth hc)

/-! ### Limits -/

/-- The limits let the token through when it is read at the cursor. -/
def Limits.Admits (limits : Limits) (c : Cursor) (t : Token) : Prop :=
  (t.isLeft → c.depth < limits.depth) ∧ (t.isOperator → c.operators < limits.operators)

/-- The limits let all tokens through when they are read from the cursor on. -/
def Limits.AdmitsAll (limits : Limits) : Cursor → List Token → Prop
  | _, [] => True
  | c, t :: ts => limits.Admits c t ∧ limits.AdmitsAll (c.pass t) ts

namespace Limits

variable {limits : Limits} {c : Cursor} {us vs : List Token}

theorem admitsAll_append :
    limits.AdmitsAll c (us ++ vs) ↔ limits.AdmitsAll c us ∧ limits.AdmitsAll (c.passAll us) vs := by
  induction us generalizing c with
  | nil => simp [AdmitsAll]
  | cons t us ih => simp [AdmitsAll, ih, and_assoc]

/-- Tokens that are neither opening parentheses nor operators are always let through. -/
theorem admitsAll_of_plain (h : ∀ t ∈ us, t.isLeft = false ∧ t.isOperator = false) :
    limits.AdmitsAll c us := by
  induction us generalizing c with
  | nil => trivial
  | cons t us ih =>
    obtain ⟨hl, ho⟩ := h t (by simp)
    exact ⟨by simp [Admits, hl, ho], ih fun u hu => h u (by simp [hu])⟩

end Limits

/-- In a fresh parser the counts of the cursor are those of the tokens that it has read. -/
theorem Reads.admits_iff {limits : Limits} {us : List Token} {s : Stage} (h : Reads .start us s)
    {t : Token} : limits.Admits (Cursor.passAll {} us) t ↔
      (t.isLeft → us.countP Token.isLeft < us.countP Token.isRight + limits.depth) ∧
      (t.isOperator → us.countP Token.isOperator < limits.operators) := by
  have hdepth : (Cursor.passAll {} us).depth = 0 + s.opened := h.passAll_depth rfl
  have hcount := h.opened
  have hzero : Stage.start.opened = 0 := rfl
  rw [Limits.Admits, Cursor.passAll_operators]
  constructor
  · rintro ⟨hl, ho⟩
    exact ⟨fun ht => by have := hl ht; omega, fun ht => by simpa using ho ht⟩
  · rintro ⟨hl, ho⟩
    exact ⟨fun ht => by have := hl ht; omega, fun ht => by simpa using ho ht⟩

/-! ### Runs -/

/-- At the cursor and the stage the run stops before these tokens, with this result. -/
inductive Stops (limits : Limits) (c : Cursor) :
    Stage → List Token → Except GrammarError Expr → Cursor → Prop where
  | unexpectedEnd {p : Pending} {outer : List Pending} :
      Stops limits c (.operand p outer) [] (.error .unexpectedEnd) c
  | complete {e : Expr} {p : Pending} : Stops limits c (.operator e p []) [] (.ok (p.whole e)) c
  | unclosed {e : Expr} {p q : Pending} {outer : List Pending} :
      Stops limits c (.operator e p (q :: outer)) [] (.error (.missingRightParen none)) c.leave
  | nested {p : Pending} {outer : List Pending} {t : Token} {ts : List Token}
      (ht : t.kind = .leftParen) (hd : limits.depth ≤ c.depth) :
      Stops limits c (.operand p outer) (t :: ts) (.error (.nestedTooDeep limits.depth)) c.advance
  | invalidNumber {p : Pending} {outer : List Pending} {t : Token} {ts : List Token}
      {k : LiteralKind} (ht : t.kind = .literal k) (hl : Literal.ofToken? t = none) :
      Stops limits c (.operand p outer) (t :: ts) (.error (.invalidNumber t.text t.offset)) c
  | unexpected {p : Pending} {outer : List Pending} {t : Token} {ts : List Token}
      (ht : t.kind.beginsOperand = false) :
      Stops limits c (.operand p outer) (t :: ts) (.error (.unexpectedToken t.kind t.offset)) c
  | tooMany {e : Expr} {p : Pending} {outer : List Pending} {t : Token} {ts : List Token}
      (ht : t.isOperator) (ho : limits.operators ≤ c.operators) :
      Stops limits c (.operator e p outer) (t :: ts)
        (.error (.tooManyOperators limits.operators t.offset)) c
  | trailing {e : Expr} {p : Pending} {t : Token} {ts : List Token} (ht : t.isOperator = false) :
      Stops limits c (.operator e p []) (t :: ts) (.ok (p.whole e)) c
  | missing {e : Expr} {p q : Pending} {outer : List Pending} {t : Token} {ts : List Token}
      (ht : t.isOperator = false) (hr : t.isRight = false) :
      Stops limits c (.operator e p (q :: outer)) (t :: ts)
        (.error (.missingRightParen (some (t.kind, t.offset)))) c.leave

/-- A token is read unless the run stops at it. -/
theorem Stage.takes_or_stops (limits : Limits) (c : Cursor) (s : Stage) (t : Token)
    (ts : List Token) :
    (∃ s', Takes s t s' ∧ limits.Admits c t) ∨ ∃ r c', Stops limits c s (t :: ts) r c' := by
  cases s with
  | operand p outer =>
    match hk : t.kind with
    | .leftParen =>
      by_cases hd : c.depth < limits.depth
      · refine .inl ⟨_, .opening hk, ?_⟩
        simp [Limits.Admits, Token.isLeft, Token.isOperator, Kind.operator?, hk, hd]
      · exact .inr ⟨_, _, .nested hk (by omega)⟩
    | .literal k =>
      cases hl : Literal.ofToken? t with
      | none => exact .inr ⟨_, _, .invalidNumber hk hl⟩
      | some l =>
        refine .inl ⟨_, .literal hl, ?_⟩
        simp [Limits.Admits, Token.isLeft, Token.isOperator, Kind.operator?, hk]
    | .blank | .operator _ | .rightParen =>
      exact .inr ⟨_, _, .unexpected (by rw [hk]; rfl)⟩
  | operator e p outer =>
    by_cases ht : t.isOperator
    · by_cases ho : c.operators < limits.operators
      · obtain ⟨op, hk⟩ := Token.isOperator_iff.mp ht
        refine .inl ⟨_, .operator hk, ?_⟩
        simp [Limits.Admits, Token.isLeft, hk, ho]
      · exact .inr ⟨_, _, .tooMany ht (by omega)⟩
    · rw [Bool.not_eq_true] at ht
      cases outer with
      | nil => exact .inr ⟨_, _, .trailing ht⟩
      | cons q outer =>
        by_cases hr : t.isRight
        · have hk := Token.isRight_iff.mp hr
          refine .inl ⟨_, .closing hk, ?_⟩
          simp [Limits.Admits, Token.isLeft, hk, ht]
        · exact .inr ⟨_, _, .missing ht (by simpa using hr)⟩

theorem Takes.step_eq {s s' : Stage} {t : Token} (h : Takes s t s') {limits : Limits} {c : Cursor}
    (ha : limits.Admits c t) : s.step limits c t = .go (c.pass t) s' := by
  cases h with
  | opening ht => simp [Stage.step, Cursor.pass, ht, ha.1 (Token.isLeft_iff.mpr ht)]
  | literal ht => simp [Stage.step, Cursor.pass, Literal.kind_of_ofToken? ht, ht]
  | operator ht =>
    simp [Stage.step, Cursor.pass, ht, ha.2 (Token.isOperator_iff.mpr ⟨_, ht⟩)]
  | closing ht => simp [Stage.step, Cursor.pass, ht]

theorem Reads.run_append {s s' : Stage} {us : List Token} (h : Reads s us s') {limits : Limits}
    {c : Cursor} (ha : limits.AdmitsAll c us) (vs : List Token) :
    s.run limits c (us ++ vs) = s'.run limits (c.passAll us) vs := by
  induction h generalizing c with
  | nil => rfl
  | cons ht _ ih =>
    rw [List.cons_append, Stage.run, ht.step_eq ha.1]
    exact ih ha.2

theorem Stops.run_eq {limits : Limits} {c c' : Cursor} {s : Stage} {ts : List Token}
    {r : Except GrammarError Expr} (h : Stops limits c s ts r c') : s.run limits c ts = (r, c') := by
  cases h with
  | unexpectedEnd => rfl
  | complete => rfl
  | unclosed => rfl
  | nested ht hd => simp [Stage.run, Stage.step, ht, Nat.not_lt.mpr hd]
  | invalidNumber ht hl => simp [Stage.run, Stage.step, ht, hl]
  | @unexpected _ _ t _ ht =>
    match hk : t.kind with
    | .leftParen | .literal _ => simp [hk, Kind.beginsOperand] at ht
    | .blank | .operator _ | .rightParen => simp [Stage.run, Stage.step, hk]
  | tooMany ht ho =>
    obtain ⟨op, hk⟩ := Token.isOperator_iff.mp ht
    simp [Stage.run, Stage.step, hk, Nat.not_lt.mpr ho]
  | @trailing _ _ t _ ht =>
    match hk : t.kind with
    | .operator _ => simp [Token.isOperator, Kind.operator?, hk] at ht
    | .blank | .leftParen | .literal _ | .rightParen => simp [Stage.run, Stage.step, hk]
  | @missing _ _ _ _ t _ ht hr =>
    match hk : t.kind with
    | .operator _ => simp [Token.isOperator, Kind.operator?, hk] at ht
    | .rightParen => simp [Token.isRight, hk] at hr
    | .blank | .leftParen | .literal _ => simp [Stage.run, Stage.step, hk]

/-- Every run reads a first part of the tokens and stops behind it. -/
theorem Stage.exists_stops (limits : Limits) (c : Cursor) (s : Stage) (ts : List Token) :
    ∃ us vs s' r c', ts = us ++ vs ∧ Reads s us s' ∧ limits.AdmitsAll c us ∧
      Stops limits (c.passAll us) s' vs r c' := by
  induction ts generalizing c s with
  | nil =>
    match s with
    | .operand _ _ => exact ⟨[], [], _, _, _, rfl, .nil, trivial, .unexpectedEnd⟩
    | .operator _ _ [] => exact ⟨[], [], _, _, _, rfl, .nil, trivial, .complete⟩
    | .operator _ _ (_ :: _) => exact ⟨[], [], _, _, _, rfl, .nil, trivial, .unclosed⟩
  | cons t ts ih =>
    rcases s.takes_or_stops limits c t ts with ⟨s', ht, ha⟩ | ⟨r, c', hs⟩
    · obtain ⟨us, vs, s'', r, c', rfl, hr, hu, hs⟩ := ih (c.pass t) s'
      exact ⟨t :: us, vs, s'', r, c', rfl, .cons ht hr, ⟨ha, hu⟩, hs⟩
    · exact ⟨[], t :: ts, s, r, c', rfl, .nil, trivial, hs⟩

/-- A token at which the run stops is either misplaced or not let through. -/
theorem Stops.not_admits {limits : Limits} {c c' : Cursor} {s s' : Stage} {t : Token}
    {ts : List Token} {r : Except GrammarError Expr} (h : Stops limits c s (t :: ts) r c')
    (ht : Takes s t s') : ¬ limits.Admits c t := by
  intro ha
  cases h with
  | nested hk hd => exact absurd (ha.1 (Token.isLeft_iff.mpr hk)) (by omega)
  | invalidNumber hk hl =>
    cases ht with
    | opening hk' => simp [hk] at hk'
    | literal hl' => simp [hl] at hl'
  | unexpected hk =>
    cases ht with
    | opening hk' => simp [hk', Kind.beginsOperand] at hk
    | literal hl => simp [Literal.kind_of_ofToken? hl, Kind.beginsOperand] at hk
  | tooMany hk ho => exact absurd (ha.2 hk) (by omega)
  | trailing hk =>
    cases ht with
    | operator hk' => simp [Token.isOperator, Kind.operator?, hk'] at hk
  | missing hk hr =>
    cases ht with
    | operator hk' => simp [Token.isOperator, Kind.operator?, hk'] at hk
    | closing hk' => simp [Token.isRight, hk'] at hr

theorem Stops.cursor_of_ok {limits : Limits} {c c' : Cursor} {s : Stage} {ts : List Token} {e : Expr}
    (h : Stops limits c s ts (.ok e) c') : c' = c := by
  cases h <;> rfl

/-! ### Whole lists -/

/-- The result of reading a whole list of tokens in which a run has stopped before `vs`. -/
def Parser.conclude (r : Except GrammarError Expr) (vs : List Token) : Except Rejection Expr :=
  match r, vs with
  | .error g, _ => .error (.grammar g)
  | .ok e, [] => .ok e
  | .ok _, t :: _ => .error (.grammar (.trailingToken t.kind t.offset))

/-- Reading an expression is a run from where the cursor is. -/
theorem Parser.readExpression_of_stops {p : Parser} {us vs : List Token} {s : Stage}
    {r : Except GrammarError Expr} {c : Cursor} (hrest : p.rest = us ++ vs) (hr : Reads .start us s)
    (ha : p.limits.AdmitsAll p.cursor us) (hs : Stops p.limits (p.cursor.passAll us) s vs r c) :
    p.readExpression = (r, { p with cursor := c }) := by
  have hrun : Stage.run p.limits p.cursor .start p.rest = (r, c) := by
    rw [hrest, hr.run_append ha, hs.run_eq]
  unfold Stage.start at hrun
  rw [readExpression, hrun]

/-- What a fresh parser makes of a list in which its run reads `us` and stops before `vs`. -/
theorem Parser.readAll_fresh {limits : Limits} {us vs : List Token} {s : Stage}
    {r : Except GrammarError Expr} {c : Cursor} (hne : us ++ vs ≠ []) (hr : Reads .start us s)
    (ha : limits.AdmitsAll {} us) (hs : Stops limits (Cursor.passAll {} us) s vs r c) :
    Parser.readAll { tokens := us ++ vs, limits } =
      (Parser.conclude r vs, { tokens := us ++ vs, limits, cursor := c }) := by
  have hread : Parser.readExpression { tokens := us ++ vs, limits } =
      (r, { tokens := us ++ vs, limits, cursor := c }) :=
    Parser.readExpression_of_stops rfl hr ha hs
  rw [Parser.readAll, if_neg (by simpa using hne), hread]
  cases r with
  | error g => rfl
  | ok e =>
    have hp : c.position = us.length := by
      rw [hs.cursor_of_ok, Cursor.passAll_position]
      exact Nat.zero_add _
    simp only [Parser.rest, hp, List.drop_left]
    cases vs <;> rfl

/-- Reading a whole list is reading an expression and looking at what is left. -/
theorem Parser.readAll_eq_conclude {p : Parser} (hne : p.tokens ≠ []) : p.readAll =
    (conclude p.readExpression.1 p.readExpression.2.rest, p.readExpression.2) := by
  rw [readAll, if_neg (by simpa using hne)]
  rcases p.readExpression with ⟨g | e, q⟩
  · rfl
  · cases hrest : q.rest <;> simp [hrest, conclude]

theorem Parser.readAll_nil (limits : Limits) :
    Parser.readAll { tokens := [], limits } = (.error .emptyInput, { tokens := [], limits }) := rfl

/-- A fresh parser accepts what it can read to the end outside of all groups. -/
theorem parseTokens_eq_ok {ts : List Token} {limits : Limits} {e : Expr} :
    parseTokens ts limits = .ok e ↔ ∃ x p, Reads .start ts (.operator x p []) ∧ p.whole x = e ∧
      limits.AdmitsAll {} ts := by
  constructor
  · intro h
    have hne : ts ≠ [] := by
      rintro rfl
      simp [parseTokens, Parser.readAll_nil] at h
    obtain ⟨us, vs, s, r, c, rfl, hr, ha, hs⟩ := Stage.exists_stops limits {} .start ts
    rw [parseTokens, Parser.readAll_fresh hne hr ha hs] at h
    cases hs with
    | complete =>
      cases h
      exact ⟨_, _, by simpa using hr, rfl, by simpa using ha⟩
    | _ => contradiction
  · rintro ⟨x, p, hr, rfl, ha⟩
    have hne : ts ++ [] ≠ [] := by
      rw [List.append_nil]
      rintro rfl
      cases hr
    have h := Parser.readAll_fresh hne hr ha .complete
    rw [List.append_nil] at h
    rw [parseTokens, h]
    rfl

end FilterLang
