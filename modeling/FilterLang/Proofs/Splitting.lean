import FilterLang.Proofs.Derivation

/-! One expression after another. Outside of all groups a reading stops before the first token that is
no operator, and no expression begins with an operator, so a reading ends where its expression does,
whatever follows. The readings of a parser thus split the tokens of several expressions, written one
after another, into these expressions; no list splits in two ways. And what a reading takes is an
expression by itself, even if the parser has failed before. -/
namespace FilterLang

/-- The parser behind `n` readings of an expression, whatever came of them. -/
def Parser.afterReadings (p : Parser) : Nat → Parser
  | 0 => p
  | n + 1 => (p.afterReadings n).readExpression.2

/-- The tokens of some expressions, one after another. -/
def concatenated (parts : List (List Token × Expr)) : List Token := parts.flatMap Prod.fst

@[simp] theorem concatenated_nil : concatenated [] = [] := rfl

@[simp] theorem concatenated_cons (x : List Token × Expr) (xs : List (List Token × Expr)) :
    concatenated (x :: xs) = x.1 ++ concatenated xs := rfl

@[simp] theorem concatenated_append (xs ys : List (List Token × Expr)) :
    concatenated (xs ++ ys) = concatenated xs ++ concatenated ys := List.flatMap_append

variable {limits limits' : Limits} {c c' : Cursor} {ts us vs us' vs' : List Token} {t : Token}
  {e x y : Expr} {s : Stage} {q : Pending} {p : Parser} {xs ys : List (List Token × Expr)} {n : Nat}

/-! ### Where an expression begins and ends -/

/-- No operator can come next. -/
def NoOperatorNext (ts : List Token) : Prop := ∀ t ∈ ts.head?, t.isOperator = false

theorem Takes.not_isOperator {outer : List Pending} (h : Takes (.operand q outer) t s) :
    t.isOperator = false := by
  cases h with
  | opening ht => simp [Token.isOperator, Kind.operator?, ht]
  | literal hl => simp [Token.isOperator, Kind.operator?, Literal.kind_of_ofToken? hl]

/-- Outside of all groups only an operator goes on an expression. -/
theorem Takes.isOperator (h : Takes (.operator e q []) t s) : t.isOperator := by
  cases h with
  | operator ht => exact Token.isOperator_iff.mpr ⟨_, ht⟩

/-- An expression has a first token, and that is no operator. -/
theorem Derives.exists_cons (h : Derives .conjunction ts e) :
    ∃ t us, ts = t :: us ∧ t.isOperator = false := by
  obtain ⟨x, q, hr, -⟩ := derives_iff_reads.mp h
  cases hr with
  | cons ht _ => exact ⟨_, _, rfl, ht.not_isOperator⟩

theorem noOperatorNext_concatenated (h : ∀ x ∈ xs, Derives .conjunction x.1 x.2) :
    NoOperatorNext (concatenated xs) := by
  cases xs with
  | nil => simp [NoOperatorNext]
  | cons x xs =>
    obtain ⟨t, us, hx, ht⟩ := (h x (by simp)).exists_cons
    simpa [NoOperatorNext, hx] using ht

/-- An expression is not the beginning of a longer one that goes on without an operator. -/
theorem Derives.eq_of_append_eq (hx : Derives .conjunction us x) (hy : Derives .conjunction vs y)
    (hu : NoOperatorNext us') (hv : NoOperatorNext vs') (h : us ++ us' = vs ++ vs') : us = vs := by
  have hend : ∀ {us vs us' : List Token} {x y : Expr}, Derives .conjunction us x →
      Derives .conjunction (us ++ vs) y → NoOperatorNext us' → vs <+: us' → vs = [] := by
    intro us vs us' x y hx hy hu hp
    obtain ⟨_, _, hrx, -⟩ := derives_iff_reads.mp hx
    obtain ⟨_, _, hry, -⟩ := derives_iff_reads.mp hy
    obtain ⟨s, hrs, htail⟩ := hry.split
    cases hrx.unique hrs
    cases htail with
    | nil => rfl
    | cons ht _ =>
      obtain ⟨ws, rfl⟩ := hp
      have hnot := hu _ rfl
      rw [ht.isOperator] at hnot
      contradiction
  rcases List.append_eq_append_iff.mp h with ⟨ws, rfl, rfl⟩ | ⟨ws, rfl, rfl⟩
  · rw [hend hx hy hu (List.prefix_append ws vs'), List.append_nil]
  · rw [hend hy hx hv (List.prefix_append ws us'), List.append_nil]

/-- Two lists of expressions with the same tokens are the same list. -/
theorem eq_of_concatenated_eq (hxs : ∀ x ∈ xs, Derives .conjunction x.1 x.2)
    (hys : ∀ y ∈ ys, Derives .conjunction y.1 y.2) (h : concatenated xs = concatenated ys) :
    xs = ys := by
  induction xs generalizing ys with
  | nil =>
    cases ys with
    | nil => rfl
    | cons y ys =>
      obtain ⟨t, us, hy, -⟩ := (hys y (by simp)).exists_cons
      simp [hy] at h
  | cons x xs ih =>
    obtain ⟨hx, hxs⟩ := List.forall_mem_cons.mp hxs
    cases ys with
    | nil =>
      obtain ⟨t, us, hcons, -⟩ := hx.exists_cons
      simp [hcons] at h
    | cons y ys =>
      obtain ⟨hy, hys⟩ := List.forall_mem_cons.mp hys
      have hfirst : x.1 = y.1 := hx.eq_of_append_eq hy (noOperatorNext_concatenated hxs)
        (noOperatorNext_concatenated hys) h
      have htree : x.2 = y.2 := by
        rw [← hfirst] at hy
        exact hx.unique hy
      have hrest : concatenated xs = concatenated ys := by
        rw [concatenated_cons, concatenated_cons, hfirst] at h
        exact List.append_cancel_left h
      rw [Prod.ext hfirst htree, ih hxs hys hrest]

/-! ### Limits at other cursors -/

/-- With as many more operators counted and allowed, the limits let the same tokens through. -/
theorem Limits.AdmitsAll.later (h : limits.AdmitsAll c ts) (hd : c'.depth = c.depth)
    (ho : c'.operators = c.operators + n) :
    Limits.AdmitsAll ⟨limits.depth, limits.operators + n⟩ c' ts := by
  induction ts generalizing c c' with
  | nil => trivial
  | cons t ts ih =>
    obtain ⟨⟨hl, hop⟩, hrest⟩ := h
    refine ⟨⟨fun ht => ?_, fun ht => ?_⟩, ih hrest ?_ ?_⟩
    · have := hl ht
      dsimp only
      omega
    · have := hop ht
      dsimp only
      omega
    · unfold Cursor.pass
      split <;> simp [Cursor.enter, Cursor.leave, Cursor.advance, Cursor.countOperator, hd]
    · rw [Cursor.pass_operators, Cursor.pass_operators, ho]
      omega

/-- What is let through where much has been counted is let through where less has been. -/
theorem Limits.AdmitsAll.of_le (h : limits.AdmitsAll c ts) (hd : c'.depth ≤ c.depth)
    (ho : c'.operators ≤ c.operators) : limits.AdmitsAll c' ts := by
  induction ts generalizing c c' with
  | nil => trivial
  | cons t ts ih =>
    obtain ⟨⟨hl, hop⟩, hrest⟩ := h
    refine ⟨⟨fun ht => hd.trans_lt (hl ht), fun ht => ho.trans_lt (hop ht)⟩, ih hrest ?_ ?_⟩
    · unfold Cursor.pass
      split <;> simp only [Cursor.enter, Cursor.leave, Cursor.advance, Cursor.countOperator] <;> omega
    · rw [Cursor.pass_operators, Cursor.pass_operators]
      omega

/-! ### Readings -/

namespace Parser

/-- A reading that succeeds has read an expression up to something that is no operator. -/
theorem readExpression_eq_ok (h : p.readExpression.1 = .ok e) : ∃ us vs x q,
    p.rest = us ++ vs ∧ Reads .start us (.operator x q []) ∧ q.whole x = e ∧
      p.limits.AdmitsAll p.cursor us ∧ NoOperatorNext vs ∧
      p.readExpression.2 = { p with cursor := p.cursor.passAll us } := by
  obtain ⟨us, vs, s, r, c, hrest, hr, ha, hs⟩ := Stage.exists_stops p.limits p.cursor .start p.rest
  rw [readExpression_of_stops hrest hr ha hs] at h ⊢
  cases h
  cases hs with
  | complete => exact ⟨us, [], _, _, hrest, hr, rfl, ha, by simp [NoOperatorNext], rfl⟩
  | trailing ht => exact ⟨us, _, _, _, hrest, hr, rfl, ha, by simpa [NoOperatorNext] using ht, rfl⟩

/-- What a reading takes off the front is accepted by itself, and no operator follows it. -/
theorem readExpression_accepted (h : p.readExpression.1 = .ok e) :
    let position := p.readExpression.2.cursor.position
    parseTokens (p.rest.take (position - p.cursor.position)) p.limits = .ok e ∧
      ∀ t, p.tokens[position]? = some t → t.isOperator = false := by
  intro position
  obtain ⟨us, vs, x, q, hrest, hr, hx, ha, hnext, hparser⟩ := readExpression_eq_ok h
  have hposition : position = p.cursor.position + us.length := by
    simp only [position, hparser, Cursor.passAll_position]
  rw [hposition, Nat.add_sub_cancel_left, hrest, List.take_left]
  have hfresh : p.limits.AdmitsAll {} us := ha.of_le (Nat.zero_le _) (Nat.zero_le _)
  refine ⟨parseTokens_eq_ok.mpr ⟨x, q, hr, hx, hfresh⟩, fun t ht => ?_⟩
  rw [← List.getElem?_drop] at ht
  change p.rest[us.length]? = some t at ht
  rw [hrest, List.getElem?_append_right (Nat.le_refl _), Nat.sub_self] at ht
  exact hnext t (by rwa [List.head?_eq_getElem?])

/-- The parser is outside of all groups, before these expressions, and its limits hold them. -/
structure Awaits (p : Parser) (xs : List (List Token × Expr)) : Prop where
  rest : p.rest = concatenated xs
  depth : p.cursor.depth = 0
  derives : ∀ x ∈ xs, Derives .conjunction x.1 x.2
  nests : ∀ x ∈ xs, NestsWithin p.limits.depth x.1
  operators :
    p.cursor.operators + (concatenated xs).countP Token.isOperator ≤ p.limits.operators

theorem Awaits.admitsAll {z : List Token × Expr} (h : p.Awaits (z :: xs))
    (hr : Reads .start z.1 s) : p.limits.AdmitsAll p.cursor z.1 := by
  have hoperators := h.operators
  rw [concatenated_cons, List.countP_append] at hoperators
  have hfresh : Limits.AdmitsAll ⟨p.limits.depth, p.limits.operators - p.cursor.operators⟩ {} z.1 := by
    rw [hr.admitsAll_iff]
    exact ⟨h.nests z (by simp), by dsimp only; omega⟩
  have hlater : Limits.AdmitsAll ⟨p.limits.depth, p.limits.operators - p.cursor.operators +
      p.cursor.operators⟩ p.cursor z.1 := hfresh.later h.depth (by simp)
  rwa [Nat.sub_add_cancel (by omega)] at hlater

/-- The next reading gives the first of the expressions and leaves the others. -/
theorem Awaits.readExpression {z : List Token × Expr} (h : p.Awaits (z :: xs)) :
    p.readExpression.1 = .ok z.2 ∧ p.readExpression.2.Awaits xs ∧
      p.readExpression.2.cursor.position = p.cursor.position + z.1.length := by
  obtain ⟨hz, hxs⟩ := List.forall_mem_cons.mp h.derives
  obtain ⟨x, q, hr, hx⟩ := derives_iff_reads.mp hz
  have hs : Stops p.limits (p.cursor.passAll z.1) (.operator x q []) (concatenated xs) (.ok z.2)
      (p.cursor.passAll z.1) := by
    have hnext := noOperatorNext_concatenated hxs
    rw [← hx]
    cases hcons : concatenated xs with
    | nil => exact .complete
    | cons t ts => exact .trailing (hnext t (by simp [hcons]))
  have hread := readExpression_of_stops h.rest hr (h.admitsAll hr) hs
  have hposition := Cursor.passAll_position p.cursor z.1
  have hoperators := h.operators
  rw [concatenated_cons, List.countP_append] at hoperators
  rw [hread]
  refine ⟨rfl, ⟨?_, ?_, hxs, fun x hx => h.nests x (by simp [hx]), ?_⟩, hposition⟩
  · rw [Parser.rest]
    dsimp only
    rw [hposition, ← List.drop_drop]
    change List.drop _ p.rest = _
    rw [h.rest, concatenated_cons, List.drop_left]
  · have hdepth : (p.cursor.passAll z.1).depth = 0 + _ := hr.passAll_depth h.depth
    simpa using hdepth
  · dsimp only
    rw [Cursor.passAll_operators]
    omega

/-- Behind the last expression a reading finds the end of the tokens. -/
theorem Awaits.readExpression_nil (h : p.Awaits []) :
    p.readExpression = (.error .unexpectedEnd, p) := by
  rw [Parser.readExpression, h.rest]
  rfl

/-- So many readings leave the expressions behind the first ones. -/
theorem Awaits.afterReadings (h : p.Awaits xs) (n : Nat) : (p.afterReadings n).Awaits (xs.drop n) ∧
    (p.afterReadings n).cursor.position = p.cursor.position + (concatenated (xs.take n)).length := by
  induction n with
  | zero => exact ⟨h, rfl⟩
  | succ n ih =>
    obtain ⟨hawaits, hposition⟩ := ih
    rw [Parser.afterReadings]
    by_cases hn : n < xs.length
    · rw [List.drop_eq_getElem_cons hn] at hawaits
      obtain ⟨-, hrest, hnext⟩ := hawaits.readExpression
      refine ⟨hrest, ?_⟩
      rw [hnext, hposition, List.take_succ_eq_append_getElem hn, concatenated_append,
        List.length_append, ← Nat.add_assoc]
      simp only [concatenated_cons, concatenated_nil, List.append_nil]
    · rw [List.drop_eq_nil_of_le (by omega)] at hawaits ⊢
      rw [hawaits.readExpression_nil]
      refine ⟨hawaits, ?_⟩
      rw [hposition, List.take_of_length_le (by omega), List.take_of_length_le (by omega)]

/-- Expressions that are accepted each by itself, written one after another, are read one after
another if the limits hold their groups and all their operators; then come only failures that leave
the parser as it is. No other expressions have the same tokens. And whatever parser reads an
expression, the tokens that it takes are accepted as this expression by a fresh one with its limits,
and no operator follows them. -/
theorem readings_split (limits : Limits) (parts : List (List Token × Expr))
    (haccepted : ∀ x ∈ parts, ∃ l, parseTokens x.1 l = .ok x.2)
    (hnests : ∀ x ∈ parts, NestsWithin limits.depth x.1)
    (hoperators : (concatenated parts).countP Token.isOperator ≤ limits.operators) :
    let p : Parser := { tokens := concatenated parts, limits }
    (∀ i x, parts[i]? = some x → (p.afterReadings i).readExpression.1 = .ok x.2 ∧
      (p.afterReadings (i + 1)).cursor.position = (concatenated (parts.take (i + 1))).length) ∧
    (∀ i, parts.length ≤ i →
      (p.afterReadings i).readExpression = (.error .unexpectedEnd, p.afterReadings i)) ∧
    (∀ others : List (List Token × Expr), (∀ x ∈ others, ∃ l, parseTokens x.1 l = .ok x.2) →
      concatenated others = concatenated parts → others = parts) ∧
    ∀ (q : Parser) (e : Expr), q.readExpression.1 = .ok e →
      let position := q.readExpression.2.cursor.position
      parseTokens (q.rest.take (position - q.cursor.position)) q.limits = .ok e ∧
        ∀ t, q.tokens[position]? = some t → t.isOperator = false := by
  intro p
  have hderives : ∀ {parts : List (List Token × Expr)},
      (∀ x ∈ parts, ∃ l, parseTokens x.1 l = .ok x.2) →
        ∀ x ∈ parts, Derives .conjunction x.1 x.2 := by
    intro parts h x hx
    obtain ⟨l, hl⟩ := h x hx
    exact (parseTokens_eq_ok_iff.mp hl).1
  have hawaits : p.Awaits parts :=
    ⟨rfl, rfl, hderives haccepted, hnests, by simpa [p] using hoperators⟩
  refine ⟨fun i x hx => ?_, fun i hi => ?_, fun others hothers h => ?_, fun q e he => ?_⟩
  · obtain ⟨hi, rfl⟩ := List.getElem?_eq_some_iff.mp hx
    have hread := (hawaits.afterReadings i).1
    rw [List.drop_eq_getElem_cons hi] at hread
    refine ⟨hread.readExpression.1, ?_⟩
    simpa [p] using (hawaits.afterReadings (i + 1)).2
  · have hread := (hawaits.afterReadings i).1
    rw [List.drop_eq_nil_of_le hi] at hread
    exact hread.readExpression_nil
  · exact eq_of_concatenated_eq (hderives hothers) (hderives haccepted) h
  · exact readExpression_accepted he

/-- `a < b` and `(true)` side by side, with room for one group and one operator. -/
theorem readings_split_side_by_side :
    let order : List Token :=
      [⟨.literal .var, "a", 0⟩, ⟨.operator .lt, "<", 2⟩, ⟨.literal .var, "b", 4⟩]
    let group : List Token :=
      [⟨.leftParen, "(", 6⟩, ⟨.literal .boolean, "true", 7⟩, ⟨.rightParen, ")", 11⟩]
    let p : Parser := { tokens := order ++ group, limits := ⟨1, 1⟩ }
    (p.afterReadings 1).readExpression.1 = .ok (.literal (.boolean true)) ∧
      (p.afterReadings 2).cursor.position = 6 ∧
      (p.afterReadings 2).readExpression = (.error .unexpectedEnd, p.afterReadings 2) := by
  intro order group p
  let limits : Limits := ⟨1, 1⟩
  let a : Expr := .literal (.var "a")
  let b : Expr := .literal (.var "b")
  have horder : parseTokens order limits = .ok (.binary .lt a b) := rfl
  have hgroup : parseTokens group limits = .ok (.literal (.boolean true)) := rfl
  obtain ⟨hread, hend, -⟩ := readings_split limits
    [(order, .binary .lt a b), (group, .literal (.boolean true))]
    (by simpa using ⟨⟨limits, horder⟩, limits, hgroup⟩)
    (by simpa using ⟨(parseTokens_eq_ok_iff.mp horder).2.1, (parseTokens_eq_ok_iff.mp hgroup).2.1⟩)
    (by decide)
  obtain ⟨hsecond, hposition⟩ := hread 1 _ rfl
  exact ⟨hsecond, hposition, hend 2 (Nat.le_refl _)⟩

end Parser

end FilterLang
