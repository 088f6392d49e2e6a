import FilterLang.Proofs.Derivation
import FilterLang.Proofs.Likeness

/-! Groups among other tokens. Where no limit is near, what becomes of a list depends on the stage
and on the tokens that follow, and on neither the limits nor the cursor (`Stage.Decides`). So two
groups with equal trees may stand for one another: what comes before them leads to one stage, which
either refuses their parentheses or goes on behind both from the same one. And a stage that reads
tokens in which parentheses belong together sees nothing below the top of its stack, so one more
pair around them goes unnoticed, whether or not the tokens form an expression. -/
namespace FilterLang

variable {limits : Limits} {s s' : Stage} {t left left' right right' : Token}
  {a b x y ts us vs : List Token} {r : Except GrammarError Expr} {q q' : Except Rejection Expr}
  {e : Expr}

/-! ### Away from limits -/

/-- The limits are at least the number of tokens. -/
structure Limits.Covers (limits : Limits) (ts : List Token) : Prop where
  depth : ts.length ≤ limits.depth
  operators : ts.length ≤ limits.operators

theorem Limits.Covers.mono (h : limits.Covers ts) (hle : us.length ≤ ts.length) :
    limits.Covers us :=
  ⟨hle.trans h.depth, hle.trans h.operators⟩

/-- A run that has come to no limit stops before these tokens. -/
def Stage.Halts (s : Stage) (ts : List Token) (r : Except GrammarError Expr) : Prop :=
  ∃ c, Stops ⟨1, 1⟩ {} s ts r c

/-- What becomes of a list of which these tokens are left, if no limit is near. -/
def Stage.Decides (s : Stage) (ts : List Token) (q : Except Rejection Expr) : Prop :=
  ∃ us vs s' r, ts = us ++ vs ∧ Reads s us s' ∧ s'.Halts vs r ∧ q = Parser.conclude r vs

/-- Only the next token matters to a run that stops away from the limits. -/
theorem Stage.Halts.exists_stops (h : s.Halts ts r) (hus : us.head? = ts.head?) (limits : Limits)
    (c : Cursor) : ∃ c', Stops limits c s us r c' := by
  obtain ⟨_, h⟩ := h
  cases ts with
  | nil =>
    obtain rfl := List.head?_eq_none_iff.mp hus
    cases h with
    | unexpectedEnd => exact ⟨_, .unexpectedEnd⟩
    | complete => exact ⟨_, .complete⟩
    | unclosed => exact ⟨_, .unclosed⟩
  | cons t ts =>
    obtain ⟨us, rfl⟩ := List.head?_eq_some_iff.mp hus
    cases h with
    | nested _ hd => exact absurd hd (by decide)
    | invalidNumber hk hl => exact ⟨_, .invalidNumber hk hl⟩
    | unexpected hk => exact ⟨_, .unexpected hk⟩
    | tooMany _ ho => exact absurd ho (by decide)
    | trailing hk => exact ⟨_, .trailing hk⟩
    | missing hk hr => exact ⟨_, .missing hk hr⟩

theorem Stage.Halts.decides (h : s.Halts (t :: ts) r) (us : List Token) :
    s.Decides (t :: us) (Parser.conclude r [t]) := by
  have hhead : (t :: us).head? = (t :: ts).head? := rfl
  have hus : s.Halts (t :: us) r := h.exists_stops hhead _ _
  exact ⟨[], t :: us, s, r, rfl, .nil, hus, by cases r <;> rfl⟩

theorem Reads.decides (h : Reads s us s') (hd : s'.Decides vs q) : s.Decides (us ++ vs) q := by
  obtain ⟨xs, ys, s'', r, rfl, hr, hs, hq⟩ := hd
  exact ⟨us ++ xs, ys, s'', r, (List.append_assoc _ _ _).symm, h.append hr, hs, hq⟩

/-- Tokens can be read, or they decide whatever follows them. -/
theorem Stage.reads_or_decides (s : Stage) (ts : List Token) :
    (∃ s', Reads s ts s') ∨ ∃ q, ∀ us, s.Decides (ts ++ us) q := by
  induction ts generalizing s with
  | nil => exact .inl ⟨s, .nil⟩
  | cons t ts ih =>
    rcases s.takes_or_stops ⟨1, 1⟩ {} t ts with ⟨s₁, ht, -⟩ | ⟨r, c, hs⟩
    · rcases ih s₁ with ⟨s', hr⟩ | ⟨q, hq⟩
      · exact .inl ⟨s', .cons ht hr⟩
      · exact .inr ⟨q, fun us => (Reads.single ht).decides (hq us)⟩
    · exact .inr ⟨_, fun us => Halts.decides ⟨c, hs⟩ (ts ++ us)⟩

theorem Stage.exists_decides (s : Stage) (ts : List Token) : ∃ q, s.Decides ts q := by
  rcases s.reads_or_decides ts with ⟨s', hr⟩ | ⟨q, hq⟩
  · obtain ⟨r, hs⟩ : ∃ r, s'.Halts [] r := by
      match s' with
      | operand _ _ => exact ⟨_, _, .unexpectedEnd⟩
      | operator _ _ [] => exact ⟨_, _, .complete⟩
      | operator _ _ (_ :: _) => exact ⟨_, _, .unclosed⟩
    exact ⟨_, ts, [], s', r, (List.append_nil ts).symm, hr, hs, rfl⟩
  · have hq := hq []
    rw [List.append_nil] at hq
    exact ⟨q, hq⟩

/-- What can be read is let through by limits that cover it. -/
theorem Reads.admitsAll_of_covers (h : Reads .start us s) (hl : limits.Covers (us ++ vs)) :
    limits.AdmitsAll {} us := by
  obtain ⟨hd, ho⟩ := hl
  rw [List.length_append] at hd ho
  rw [h.admitsAll_iff]
  constructor
  · intro xs hxs
    have hlefts : xs.countP Token.isLeft ≤ xs.length := List.countP_le_length
    have hle := hxs.length_le
    omega
  · have hops : us.countP Token.isOperator ≤ us.length := List.countP_le_length
    omega

/-- Under limits that cover it a list is parsed as it is decided. -/
theorem Stage.Decides.parseTokens_eq (h : Stage.start.Decides ts q) (hne : ts ≠ [])
    (hl : limits.Covers ts) : parseTokens ts limits = q := by
  obtain ⟨us, vs, s, r, rfl, hr, hs, rfl⟩ := h
  obtain ⟨c, hs⟩ := hs.exists_stops rfl limits (Cursor.passAll {} us)
  rw [parseTokens, Parser.readAll_fresh hne hr (hr.admitsAll_of_covers hl) hs]

/-! ### Groups with equal trees -/

/-- The same tree, or errors that differ in their offsets at most. -/
def Likewise (q q' : Except Rejection Expr) : Prop :=
  q.mapError Rejection.unplaced = q'.mapError Rejection.unplaced

/-- What is decided alike behind tokens, whatever stage they lead to, is decided alike with them. -/
theorem Stage.decides_behind {R : Except Rejection Expr → Except Rejection Expr → Prop}
    (hrefl : ∀ q, R q q) (h : ∀ s : Stage, ∃ q q', s.Decides us q ∧ s.Decides vs q' ∧ R q q')
    (s : Stage) (a : List Token) :
    ∃ q q', s.Decides (a ++ us) q ∧ s.Decides (a ++ vs) q' ∧ R q q' := by
  rcases s.reads_or_decides a with ⟨s', hr⟩ | ⟨q, hq⟩
  · obtain ⟨q, q', hu, hv, hR⟩ := h s'
    exact ⟨q, q', hr.decides hu, hr.decides hv, hR⟩
  · exact ⟨q, q, hq us, hq vs, hrefl q⟩

/-- An opening parenthesis behind an operand decides as another one does. -/
theorem Stage.decides_misplaced (e : Expr) (p : Pending) (outer : List Pending)
    (hl : left.kind = .leftParen) (hl' : left'.kind = .leftParen) (us vs : List Token) :
    ∃ q q', (operator e p outer).Decides (left :: us) q ∧
      (operator e p outer).Decides (left' :: vs) q' ∧ Likewise q q' ∧ (left' = left → q = q') := by
  have hop : left.isOperator = false := by simp [Token.isOperator, Kind.operator?, hl]
  have hop' : left'.isOperator = false := by simp [Token.isOperator, Kind.operator?, hl']
  have hright : left.isRight = false := by simp [Token.isRight, hl]
  have hright' : left'.isRight = false := by simp [Token.isRight, hl']
  cases outer with
  | nil =>
    have hhalts : (operator e p []).Halts (left :: us) _ := ⟨_, .trailing hop⟩
    have hhalts' : (operator e p []).Halts (left' :: vs) _ := ⟨_, .trailing hop'⟩
    refine ⟨_, _, hhalts.decides us, hhalts'.decides vs, ?_, ?_⟩
    · simp [Likewise, Parser.conclude, Except.mapError, Rejection.unplaced, GrammarError.unplaced,
        hl, hl']
    · rintro rfl
      rfl
  | cons p' outer =>
    have hhalts : (operator e p (p' :: outer)).Halts (left :: us) _ := ⟨_, .missing hop hright⟩
    have hhalts' : (operator e p (p' :: outer)).Halts (left' :: vs) _ :=
      ⟨_, .missing hop' hright'⟩
    refine ⟨_, _, hhalts.decides us, hhalts'.decides vs, ?_, ?_⟩
    · simp [Likewise, Parser.conclude, Except.mapError, Rejection.unplaced, GrammarError.unplaced,
        hl, hl']
    · rintro rfl
      rfl

/-- Where an operand is due, a group leads to the stage behind an operand with its tree. -/
theorem Derives.reads_group (h : Derives .conjunction x e) (hl : left.kind = .leftParen)
    (hr : right.kind = .rightParen) (p : Pending) (outer : List Pending) :
    Reads (.operand p outer) (left :: x ++ [right]) (.afterOperand p e outer) := by
  obtain ⟨_, hread, rfl⟩ := (Derives.group hl hr h).reads p outer trivial
  exact hread

theorem Stage.decides_groups (hx : Derives .conjunction x e) (hy : Derives .conjunction y e)
    (hl : left.kind = .leftParen) (hl' : left'.kind = .leftParen) (hr : right.kind = .rightParen)
    (hr' : right'.kind = .rightParen) (b : List Token) (s : Stage) :
    ∃ q q', s.Decides (left :: x ++ right :: b) q ∧ s.Decides (left' :: y ++ right' :: b) q' ∧
      Likewise q q' ∧ (left' = left → q = q') := by
  cases s with
  | operator z p outer => exact decides_misplaced z p outer hl hl' _ _
  | operand p outer =>
    obtain ⟨q, hq⟩ := exists_decides (afterOperand p e outer) b
    have hxq := (hx.reads_group hl hr p outer).decides hq
    have hyq := (hy.reads_group hl' hr' p outer).decides hq
    rw [List.append_assoc] at hxq hyq
    exact ⟨q, q, hxq, hyq, rfl, fun _ => rfl⟩

/-! ### One more pair of parentheses -/

/-- Parentheses among the tokens belong together. -/
structure Balanced (ts : List Token) : Prop where
  whole : ts.countP Token.isLeft = ts.countP Token.isRight
  front : ∀ us, us <+: ts → us.countP Token.isRight ≤ us.countP Token.isLeft

namespace Stage

/-- The stage with more open groups around those it has. -/
def under (below : List Pending) : Stage → Stage
  | operand p outer => operand p (outer ++ below)
  | operator e p outer => operator e p (outer ++ below)

end Stage

theorem Takes.under (h : Takes s t s') (below : List Pending) :
    Takes (s.under below) t (s'.under below) := by
  cases h with
  | opening hk => exact .opening hk
  | literal hl => exact .literal hl
  | operator hk => exact .operator hk
  | closing hk => exact .closing hk

theorem Reads.under (h : Reads s ts s') (below : List Pending) :
    Reads (s.under below) ts (s'.under below) := by
  induction h with
  | nil => exact .nil
  | cons ht _ ih => exact .cons (ht.under below) ih

/-- Tokens that close no group below the stage can be read, or they decide in the same way inside
any groups. -/
theorem Stage.reads_or_decides_under
    (h : ∀ us, us <+: ts → us.countP Token.isRight ≤ s.opened + us.countP Token.isLeft) :
    (∃ s', Reads s ts s') ∨
      ∃ q, ∀ p below us, (s.under (p :: below)).Decides (ts ++ us) q := by
  induction ts generalizing s with
  | nil => exact .inl ⟨s, .nil⟩
  | cons t ts ih =>
    rcases s.takes_or_stops ⟨1, 1⟩ {} t ts with ⟨s₁, ht, -⟩ | ⟨r, c, hs⟩
    · have hbound : ∀ us, us <+: ts →
          us.countP Token.isRight ≤ s₁.opened + us.countP Token.isLeft := by
        intro us hus
        have hcount := h (t :: us) ((List.prefix_cons_inj t).mpr hus)
        have hopened := ht.opened
        rw [List.countP_cons] at hcount
        rw [List.countP_cons (l := us)] at hcount
        simp only [List.countP_cons, List.countP_nil] at hopened
        omega
      rcases ih hbound with ⟨s', hr⟩ | ⟨q, hq⟩
      · exact .inl ⟨s', .cons ht hr⟩
      · exact .inr ⟨q, fun p below us => (Reads.single (ht.under _)).decides (hq p below us)⟩
    · have hinside : ∃ r, ∀ p below, (s.under (p :: below)).Halts (t :: ts) r := by
        cases hs with
        | nested _ hd => exact absurd hd (by decide)
        | tooMany _ ho => exact absurd ho (by decide)
        | invalidNumber hk hl => exact ⟨_, fun p below => ⟨_, .invalidNumber hk hl⟩⟩
        | unexpected hk => exact ⟨_, fun p below => ⟨_, .unexpected hk⟩⟩
        | missing hk hright => exact ⟨_, fun p below => ⟨_, .missing hk hright⟩⟩
        | trailing hk =>
          have hcount := h [t] ((List.prefix_cons_inj t).mpr List.nil_prefix)
          have hright : t.isRight = false := by
            by_contra hne
            have hkind := Token.isRight_iff.mp (Bool.not_eq_false _ ▸ hne)
            simp [Token.isLeft, Token.isRight, hkind] at hcount
          exact ⟨_, fun p below => ⟨_, .missing hk hright⟩⟩
      obtain ⟨r, hr⟩ := hinside
      exact .inr ⟨_, fun p below us => (hr p below).decides (ts ++ us)⟩

/-- Behind what has been read inside one pair of parentheses or two, closing them comes to the
same. -/
theorem Stage.decides_closing (hs : s.opened = 0) (hr : right.kind = .rightParen)
    (hr' : right'.kind = .rightParen) (p : Pending) (outer : List Pending) (b : List Token) :
    ∃ q q', (s.under (p :: outer)).Decides (right :: b) q ∧
      (s.under ({} :: p :: outer)).Decides (right' :: right :: b) q' ∧ Likewise q q' := by
  match s with
  | operand p' [] =>
    have hhalts : (operand p' (p :: outer)).Halts (right :: b) _ :=
      ⟨_, .unexpected (by rw [hr]; rfl)⟩
    have hhalts' : (operand p' ({} :: p :: outer)).Halts (right' :: right :: b) _ :=
      ⟨_, .unexpected (by rw [hr']; rfl)⟩
    refine ⟨_, _, hhalts.decides b, hhalts'.decides (right :: b), ?_⟩
    simp [Likewise, Parser.conclude, Except.mapError, Rejection.unplaced, GrammarError.unplaced, hr,
      hr']
  | operator e p' [] =>
    obtain ⟨q, hq⟩ := exists_decides (afterOperand p (p'.whole e) outer) b
    have hclosed : Reads (operator e p' (p :: outer)) [right] _ := .single (.closing hr)
    have hclosed' : Reads (operator e p' ({} :: p :: outer)) [right', right] _ :=
      .cons (.closing hr') (.single (.closing hr))
    exact ⟨q, q, hclosed.decides hq, hclosed'.decides hq, rfl⟩

/-- One more pair of parentheses around tokens in which they belong together. -/
theorem Stage.decides_doubled (hx : Balanced x) (hl : left.kind = .leftParen)
    (hr : right.kind = .rightParen) (hl' : left'.kind = .leftParen)
    (hr' : right'.kind = .rightParen) (b : List Token) (s : Stage) :
    ∃ q q', s.Decides (left :: x ++ right :: b) q ∧
      s.Decides (left :: (left' :: x ++ [right']) ++ right :: b) q' ∧ Likewise q q' := by
  have happend : left :: (left' :: x ++ [right']) ++ right :: b =
      [left, left'] ++ (x ++ right' :: right :: b) := by simp
  rw [happend]
  cases s with
  | operator z p outer =>
    obtain ⟨q, q', hq, hq', hlike, -⟩ := decides_misplaced z p outer hl hl (x ++ right :: b)
      (left' :: (x ++ right' :: right :: b))
    exact ⟨q, q', hq, hq', hlike⟩
  | operand p outer =>
    have hone : Reads (.operand p outer) [left] (.operand {} (p :: outer)) := .single (.opening hl)
    have htwo : Reads (.operand p outer) [left, left'] (.operand {} ({} :: p :: outer)) :=
      .cons (.opening hl) (.single (.opening hl'))
    have hbound : ∀ us, us <+: x →
        us.countP Token.isRight ≤ start.opened + us.countP Token.isLeft :=
      fun us hus => (hx.front us hus).trans (Nat.le_add_left _ _)
    rcases reads_or_decides_under hbound with ⟨s', hread⟩ | ⟨q, hq⟩
    · have hopened : s'.opened = 0 := by
        have hcount := hread.opened
        have hstart : start.opened = 0 := rfl
        have hwhole := hx.whole
        omega
      obtain ⟨q, q', hq, hq', hlike⟩ := decides_closing hopened hr hr' p outer b
      exact ⟨q, q', hone.decides ((hread.under _).decides hq),
        htwo.decides ((hread.under _).decides hq'), hlike⟩
    · exact ⟨q, q, hone.decides (hq p outer (right :: b)),
        htwo.decides (hq {} (p :: outer) (right' :: right :: b)), rfl⟩

/-! ### In a parse -/

/-- What is decided alike in front of the tokens `a` is parsed alike behind them. -/
theorem parseTokens_behind {R : Except Rejection Expr → Except Rejection Expr → Prop}
    (hrefl : ∀ q, R q q) (h : ∀ s : Stage, ∃ q q', s.Decides us q ∧ s.Decides vs q' ∧ R q q')
    (hus : us ≠ []) (hvs : vs ≠ []) (hlu : limits.Covers (a ++ us))
    (hlv : limits.Covers (a ++ vs)) :
    R (parseTokens (a ++ us) limits) (parseTokens (a ++ vs) limits) := by
  obtain ⟨q, q', hu, hv, hR⟩ := Stage.decides_behind hrefl h .start a
  rwa [hu.parseTokens_eq (List.append_ne_nil_of_right_ne_nil a hus) hlu,
    hv.parseTokens_eq (List.append_ne_nil_of_right_ne_nil a hvs) hlv]

/-- The tokens inside pairs of parentheses, the first pair outermost. -/
def wrapped (ts : List Token) : List (Token × Token) → List Token
  | [] => ts
  | (left, right) :: pairs => left :: wrapped ts pairs ++ [right]

theorem Balanced.enclose (h : Balanced x) (hl : left.kind = .leftParen)
    (hr : right.kind = .rightParen) : Balanced (left :: x ++ [right]) := by
  have hleft : left.isLeft = true ∧ left.isRight = false := by
    simp [Token.isLeft, Token.isRight, hl]
  have hright : right.isLeft = false ∧ right.isRight = true := by
    simp [Token.isLeft, Token.isRight, hr]
  constructor
  · simp [hleft, hright, h.whole]
  · intro us hus
    rcases us with _ | ⟨t, us⟩
    · simp
    rw [List.cons_append, List.cons_prefix_cons] at hus
    obtain ⟨rfl, hus⟩ := hus
    rcases List.prefix_concat_iff.mp hus with rfl | hus
    · simp [hleft, hright, h.whole]
    · have hcount := h.front us hus
      simp only [List.countP_cons, hleft, if_true, Bool.false_eq_true, if_false]
      omega

theorem Balanced.wrapped (h : Balanced x) (pairs : List (Token × Token))
    (hpairs : ∀ pair ∈ pairs, pair.1.kind = .leftParen ∧ pair.2.kind = .rightParen) :
    Balanced (wrapped x pairs) := by
  induction pairs with
  | nil => exact h
  | cons pair pairs ih =>
    obtain ⟨⟨hl, hr⟩, hpairs⟩ := List.forall_mem_cons.mp hpairs
    exact (ih hpairs).enclose hl hr

/-- In what a parser accepts parentheses belong together. -/
theorem balanced_of_parse (h : parseTokens x limits = .ok e) : Balanced x := by
  obtain ⟨_, _, hread, -, -⟩ := parseTokens_eq_ok.mp h
  have hstart : Stage.start.opened = 0 := rfl
  constructor
  · have hcount := hread.opened
    rwa [hstart, Stage.opened_operator, List.length_nil, Nat.zero_add, Nat.zero_add] at hcount
  · rintro us ⟨vs, rfl⟩
    obtain ⟨s, hus, -⟩ := hread.split
    have hcount := hus.opened
    omega

/-- Any number of pairs of parentheses around what one pair encloses changes no tree. -/
theorem parseTokens_wrapped (hx : Balanced x) (hl : left.kind = .leftParen)
    (hr : right.kind = .rightParen) (pairs : List (Token × Token))
    (hpairs : ∀ pair ∈ pairs, pair.1.kind = .leftParen ∧ pair.2.kind = .rightParen)
    (hlimits : limits.Covers (a ++ (left :: wrapped x pairs ++ right :: b))) :
    Likewise (parseTokens (a ++ (left :: x ++ right :: b)) limits)
      (parseTokens (a ++ (left :: wrapped x pairs ++ right :: b)) limits) := by
  induction pairs with
  | nil => rfl
  | cons pair pairs ih =>
    obtain ⟨⟨hl', hr'⟩, hpairs⟩ := List.forall_mem_cons.mp hpairs
    have hfewer : limits.Covers (a ++ (left :: wrapped x pairs ++ right :: b)) :=
      hlimits.mono (by simp [wrapped]; omega)
    have hone : Likewise (parseTokens (a ++ (left :: wrapped x pairs ++ right :: b)) limits) _ :=
      parseTokens_behind (fun _ => rfl)
        (Stage.decides_doubled (hx.wrapped pairs hpairs) hl hr hl' hr' b) (by simp) (by simp)
        hfewer hlimits
    exact (ih hpairs hfewer).trans hone

/-- Groups with equal trees may stand for one another among any tokens, and more parentheses around
what a pair encloses change nothing. -/
theorem parseTokens_regrouped (hl : left.kind = .leftParen) (hr : right.kind = .rightParen)
    (a b : List Token) (limits : Limits) :
    (∀ x y e left' right', left'.kind = .leftParen → right'.kind = .rightParen →
      parseTokens x limits = .ok e → parseTokens y limits = .ok e →
      limits.Covers (a ++ (left :: x ++ right :: b)) →
      limits.Covers (a ++ (left' :: y ++ right' :: b)) →
      Likewise (parseTokens (a ++ (left :: x ++ right :: b)) limits)
        (parseTokens (a ++ (left' :: y ++ right' :: b)) limits) ∧
      (left' = left → parseTokens (a ++ (left :: x ++ right :: b)) limits =
        parseTokens (a ++ (left' :: y ++ right' :: b)) limits)) ∧
    ∀ x pairs, Balanced x →
      (∀ pair ∈ pairs, pair.1.kind = .leftParen ∧ pair.2.kind = .rightParen) →
      limits.Covers (a ++ (left :: wrapped x pairs ++ right :: b)) →
      Likewise (parseTokens (a ++ (left :: x ++ right :: b)) limits)
        (parseTokens (a ++ (left :: wrapped x pairs ++ right :: b)) limits) := by
  constructor
  · intro x y e left' right' hl' hr' hx hy hlx hly
    have hdx : Derives .conjunction x e := (parseTokens_eq_ok_iff.mp hx).1
    have hdy : Derives .conjunction y e := (parseTokens_eq_ok_iff.mp hy).1
    exact parseTokens_behind (R := fun q q' => Likewise q q' ∧ (left' = left → q = q'))
      (fun _ => ⟨rfl, fun _ => rfl⟩) (Stage.decides_groups hdx hdy hl hl' hr hr' b) (by simp)
      (by simp) hlx hly
  · intro x pairs hx hpairs hlimits
    exact parseTokens_wrapped hx hl hr pairs hpairs hlimits

/-- `2 < (true) (` is refused at its last token, with any parentheses around `true`. -/
theorem parseTokens_regrouped_refused :
    let left : Token := ⟨.leftParen, "(", 4⟩
    let right : Token := ⟨.rightParen, ")", 9⟩
    let truth : Token := ⟨.literal .boolean, "true", 5⟩
    let a : List Token := [⟨.literal .number, "2", 0⟩, ⟨.operator .lt, "<", 2⟩]
    let b : List Token := [⟨.leftParen, "(", 11⟩]
    let limits : Limits := ⟨10, 10⟩
    parseTokens (a ++ (left :: [truth] ++ right :: b)) limits =
        .error (.grammar (.trailingToken .leftParen 11)) ∧
      parseTokens (a ++ (left :: [left, truth, right] ++ right :: b)) limits =
        .error (.grammar (.trailingToken .leftParen 11)) ∧
      Likewise (parseTokens (a ++ (left :: [truth] ++ right :: b)) limits)
        (parseTokens (a ++ (left :: wrapped [truth] [(left, right), (left, right)] ++ right :: b))
          limits) := by
  intro left right truth a b limits
  have hx : parseTokens [truth] limits = .ok (.literal (.boolean true)) := rfl
  have hy : parseTokens [left, truth, right] limits = .ok (.literal (.boolean true)) := rfl
  have hrefused : parseTokens (a ++ (left :: [truth] ++ right :: b)) limits =
      .error (.grammar (.trailingToken .leftParen 11)) := rfl
  have hl : left.kind = .leftParen := rfl
  have hr : right.kind = .rightParen := rfl
  obtain ⟨hequal, hwrapped⟩ := parseTokens_regrouped hl hr a b limits
  have hsame := (hequal [truth] [left, truth, right] _ left right rfl rfl hx hy
    ⟨by decide, by decide⟩ ⟨by decide, by decide⟩).2 rfl
  exact ⟨hrefused, hsame.symm.trans hrefused, hwrapped [truth] [(left, right), (left, right)]
    (balanced_of_parse hx) (by decide) ⟨by decide, by decide⟩⟩

end FilterLang
