import FilterLang.Proofs.Reading

/-! One parser used again and again. What a failure leaves behind stays for the next use: the cursor
is where it was, groups that it was in are still counted as open, and operators stay counted. The
account kept here holds through every exit of a run: the cursor has counted the operators of the
tokens that it has passed, and their parentheses balance but for the open groups and for one more for
every use that failed at the end of a group or was refused to open one. -/
namespace FilterLang

/-! ### Uses -/

/-- What can be done with a parser. -/
inductive Parser.Use where
  | readAll
  | readExpression
  | limitDepth (n : Nat)
  | limitOperators (n : Nat)
deriving DecidableEq

namespace Parser

/-- What came of a use: an expression if one was read, nothing if a limit was set. -/
abbrev Outcome := Except Rejection (Option Expr)

def use (p : Parser) : Use → Outcome × Parser
  | .readAll => (p.readAll.1.map some, p.readAll.2)
  | .readExpression => ((p.readExpression.1.mapError .grammar).map some, p.readExpression.2)
  | .limitDepth n => (.ok none, { p with limits := { p.limits with depth := n } })
  | .limitOperators n => (.ok none, { p with limits := { p.limits with operators := n } })

/-- The outcomes of uses one after another, and the parser behind them. -/
def useAll (p : Parser) : List Use → List Outcome × Parser
  | [] => ([], p)
  | u :: us => ((p.use u).1 :: ((p.use u).2.useAll us).1, ((p.use u).2.useAll us).2)

end Parser

/-- The larger of the limits known so far and the one that the use sets. -/
def Limits.raise (peak : Limits) : Parser.Use → Limits
  | .limitDepth n => { peak with depth := max peak.depth n }
  | .limitOperators n => { peak with operators := max peak.operators n }
  | _ => peak

/-- The largest limits that have been in force for a parser that began with the usual ones. -/
def Limits.peak (us : List Parser.Use) : Limits := us.foldl Limits.raise {}

/-- The failures that leave a parenthesis unmatched which is not counted as an open group. -/
def GrammarError.unmatched : GrammarError → Bool
  | nestedTooDeep _ | missingRightParen _ => true
  | _ => false

def Rejection.unmatched : Rejection → Bool
  | grammar e => e.unmatched
  | _ => false

def Parser.unmatched {α : Type} : Except Rejection α → Bool
  | .ok _ => false
  | .error r => r.unmatched

/-! ### Bounds on the counts -/

variable {limits peak : Limits} {c c' : Cursor} {t : Token} {ts us vs : List Token} {s s' : Stage}
  {r : Except GrammarError Expr} {p : Parser} {n : Nat}

structure Limits.Below (limits peak : Limits) : Prop where
  depth : limits.depth ≤ peak.depth
  operators : limits.operators ≤ peak.operators

/-- The smallest limits that the counts of the cursor are within. -/
def Cursor.counts (c : Cursor) : Limits := ⟨c.depth, c.operators⟩

theorem Limits.Below.trans {highest : Limits} (h : limits.Below peak) (h' : peak.Below highest) :
    limits.Below highest :=
  ⟨Nat.le_trans h.depth h'.depth, Nat.le_trans h.operators h'.operators⟩

/-- A token that is let through keeps the counts within the limits. -/
theorem Limits.Admits.pass_below (h : limits.Admits c t) (hl : limits.Below peak)
    (hc : c.counts.Below peak) : (c.pass t).counts.Below peak := by
  obtain ⟨hd, ho⟩ := hc
  obtain ⟨hld, hlo⟩ := hl
  unfold Cursor.pass
  split
  next hk =>
    have := h.1 (Token.isLeft_iff.mpr hk)
    exact ⟨by simp only [Cursor.counts, Cursor.enter]; omega, ho⟩
  next => exact ⟨Nat.le_trans (Nat.sub_le _ _) hd, ho⟩
  next hk =>
    have := h.2 (Token.isOperator_iff.mpr ⟨_, hk⟩)
    exact ⟨hd, by simp only [Cursor.counts, Cursor.countOperator]; omega⟩
  next => exact ⟨hd, ho⟩

theorem Limits.AdmitsAll.passAll_below (h : limits.AdmitsAll c ts) (hl : limits.Below peak)
    (hc : c.counts.Below peak) : (c.passAll ts).counts.Below peak := by
  induction ts generalizing c with
  | nil => exact hc
  | cons t ts ih => exact ih h.2 (h.1.pass_below hl hc)

/-- A run that stops raises no count. -/
theorem Stops.counts_below (h : Stops limits c s vs r c') : c'.counts.Below c.counts := by
  have hleave : c.leave.counts.Below c.counts := ⟨Nat.sub_le _ _, Nat.le_refl _⟩
  cases h with
  | unclosed => exact hleave
  | missing => exact hleave
  | _ => exact ⟨Nat.le_refl _, Nat.le_refl _⟩

/-! ### What a cursor has passed -/

/-- The second cursor is behind the tokens `xs`, their operators are counted, and their parentheses
balance but for the change of depth and `n` that are unmatched. -/
structure Cursor.Advances (c : Cursor) (xs : List Token) (n : Nat) (c' : Cursor) : Prop where
  position : c'.position = c.position + xs.length
  operators : c'.operators = c.operators + xs.countP Token.isOperator
  parens : c.depth + xs.countP Token.isLeft = c'.depth + xs.countP Token.isRight + n

namespace Cursor.Advances

theorem append {c'' : Cursor} {xs ys : List Token} {m : Nat} (h : c.Advances xs n c')
    (h' : c'.Advances ys m c'') : c.Advances (xs ++ ys) (n + m) c'' := by
  obtain ⟨hp, ho, hd⟩ := h
  obtain ⟨hp', ho', hd'⟩ := h'
  refine ⟨?_, ?_, ?_⟩
  · rw [List.length_append]
    omega
  · rw [List.countP_append]
    omega
  · rw [List.countP_append, List.countP_append]
    omega

end Cursor.Advances

theorem Reads.advances (h : Reads .start ts s) (c : Cursor) :
    c.Advances ts 0 (c.passAll ts) := by
  have hdepth : (c.passAll ts).depth = c.depth + s.opened := h.passAll_depth rfl
  have hopened := h.opened
  have hstart : Stage.start.opened = 0 := rfl
  exact ⟨c.passAll_position ts, c.passAll_operators ts, by omega⟩

/-- A run stops where it is, but for the parenthesis of a group that it is not let into. -/
theorem Stops.exists_advances (h : Stops limits c s vs r c') (hs : s.opened ≤ c.depth) :
    ∃ xs, xs <+: vs ∧ c.Advances xs (Parser.unmatched (r.mapError .grammar)).toNat c' := by
  have hleave : 0 < c.depth → c.Advances [] 1 c.leave := fun hdepth =>
    ⟨rfl, rfl, by simp only [Cursor.leave, List.countP_nil]; omega⟩
  cases h with
  | unclosed => exact ⟨[], List.nil_prefix, hleave (Nat.lt_of_lt_of_le (Nat.succ_pos _) hs)⟩
  | missing => exact ⟨[], List.nil_prefix, hleave (Nat.lt_of_lt_of_le (Nat.succ_pos _) hs)⟩
  | nested ht hd =>
    refine ⟨[_], ⟨_, rfl⟩, rfl, ?_, ?_⟩
    · simp [Token.isOperator, Kind.operator?, ht, Cursor.advance]
    · change c.depth + List.countP Token.isLeft [_] = c.depth + List.countP Token.isRight [_] + 1
      simp [Token.isLeft, Token.isRight, ht]
  | _ => exact ⟨[], List.nil_prefix, rfl, rfl, rfl⟩

/-! ### One use -/

namespace Parser

/-- Reading an expression takes a first part of what is left off the front, success leaves the depth
as it was, and reading a whole list differs only in the outcome. -/
theorem exists_readExpression (p : Parser) : ∃ xs c', xs <+: p.rest ∧
    p.readExpression.2 = { p with cursor := c' } ∧
    p.cursor.Advances xs (unmatched (p.readExpression.1.mapError .grammar)).toNat c' ∧
    (∀ peak, p.limits.Below peak → p.cursor.counts.Below peak → c'.counts.Below peak) ∧
    ∀ e, p.readExpression.1 = .ok e → c'.depth = p.cursor.depth := by
  obtain ⟨us, vs, s, r, c', hrest, hr, ha, hs⟩ :=
    Stage.exists_stops p.limits p.cursor .start p.rest
  have hdepth : (p.cursor.passAll us).depth = p.cursor.depth + s.opened := hr.passAll_depth rfl
  have hread := readExpression_of_stops hrest hr ha hs
  obtain ⟨xs, hxs, hadv⟩ := hs.exists_advances (by omega)
  rw [hread]
  refine ⟨us ++ xs, c', ?_, rfl, ?_,
    fun peak hl hc => hs.counts_below.trans (ha.passAll_below hl hc), ?_⟩
  · rw [hrest]
    exact (List.prefix_append_right_inj us).mpr hxs
  · have h := (hr.advances p.cursor).append hadv
    rwa [Nat.zero_add] at h
  · rintro e rfl
    rw [hs.cursor_of_ok, hdepth]
    cases hs <;> rfl

/-- Reading a whole list does to the parser what reading an expression does. -/
theorem readAll_eq_readExpression (p : Parser) : p.readAll.2 = p.readExpression.2 ∧
    unmatched p.readAll.1 = unmatched (p.readExpression.1.mapError .grammar) ∧
    ∀ e, p.readAll.1 = .ok e → p.readExpression.1 = .ok e := by
  by_cases hnil : p.tokens = []
  · have hrest : p.rest = [] := by rw [rest, hnil, List.drop_nil]
    have hread : p.readExpression = (.error .unexpectedEnd, p) := by
      rw [readExpression, hrest]
      rfl
    rw [readAll, hnil, hread]
    exact ⟨rfl, rfl, fun e h => by contradiction⟩
  · rw [readAll_eq_conclude hnil]
    refine ⟨rfl, ?_⟩
    rcases p.readExpression.1 with g | e
    · exact ⟨rfl, fun e h => by contradiction⟩
    · cases p.readExpression.2.rest with
      | nil =>
        refine ⟨rfl, fun e' h => ?_⟩
        cases h
        rfl
      | cons t ts => exact ⟨rfl, fun e h => by contradiction⟩

/-- The counts of a parser agree with the tokens that it has passed, up to `n` parentheses that
were left unmatched by failures, and are within the limits `peak`. -/
structure Accounted (p : Parser) (peak : Limits) (n : Nat) : Prop where
  position : p.cursor.position ≤ p.tokens.length
  limits : p.limits.Below peak
  counts : p.cursor.counts.Below peak
  advances : Cursor.Advances {} (p.tokens.take p.cursor.position) n p.cursor

/-- Higher limits change nothing in the account. -/
theorem Accounted.mono {peak' : Limits} (h : p.Accounted peak n) (hp : peak.Below peak') :
    p.Accounted peak' n :=
  ⟨h.position, h.limits.trans hp, h.counts.trans hp, h.advances⟩

theorem accounted_fresh (ts : List Token) : Accounted { tokens := ts } {} 0 :=
  ⟨Nat.zero_le _, ⟨Nat.le_refl _, Nat.le_refl _⟩, ⟨Nat.zero_le _, Nat.zero_le _⟩, rfl, rfl, rfl⟩

/-- Reading an expression keeps the account. -/
theorem Accounted.readExpression (h : p.Accounted peak n) : p.readExpression.2.Accounted peak
    (n + (unmatched (p.readExpression.1.mapError .grammar)).toNat) := by
  obtain ⟨xs, c', ⟨ys, hrest⟩, hread, hadv, hbelow, -⟩ := p.exists_readExpression
  have htokens : p.tokens.take p.cursor.position ++ xs ++ ys = p.tokens := by
    rw [List.append_assoc, hrest, rest, List.take_append_drop]
  have hlength : (p.tokens.take p.cursor.position ++ xs).length = c'.position := by
    rw [List.length_append, List.length_take_of_le h.position, hadv.position]
  have htake : p.tokens.take c'.position = p.tokens.take p.cursor.position ++ xs := by
    have hcut := congrArg (List.take c'.position) htokens
    rw [List.take_left' hlength] at hcut
    exact hcut.symm
  rw [hread]
  refine ⟨?_, h.limits, hbelow peak h.limits h.counts, ?_⟩
  · have hall := congrArg List.length htokens
    rw [List.length_append, hlength] at hall
    dsimp only
    omega
  · dsimp only
    rw [htake]
    exact h.advances.append hadv

@[simp] theorem unmatched_map {α β : Type} (f : α → β) (r : Except Rejection α) :
    unmatched (r.map f) = unmatched r := by
  cases r <;> rfl

/-- Every use keeps the account. -/
theorem Accounted.use (h : p.Accounted peak n) (u : Use) :
    (p.use u).2.Accounted (peak.raise u) (n + (unmatched (p.use u).1).toNat) := by
  cases u with
  | readAll =>
    obtain ⟨hparser, hunmatched, -⟩ := p.readAll_eq_readExpression
    rw [Parser.use, hparser, unmatched_map, hunmatched]
    exact h.readExpression
  | readExpression =>
    rw [Parser.use, unmatched_map]
    exact h.readExpression
  | limitDepth m =>
    have hraise : peak.Below (peak.raise (.limitDepth m)) := ⟨Nat.le_max_left _ _, Nat.le_refl _⟩
    have h' := h.mono hraise
    exact ⟨h'.position, ⟨Nat.le_max_right _ _, h'.limits.operators⟩, h'.counts, h'.advances⟩
  | limitOperators m =>
    have hraise : peak.Below (peak.raise (.limitOperators m)) :=
      ⟨Nat.le_refl _, Nat.le_max_left _ _⟩
    have h' := h.mono hraise
    exact ⟨h'.position, ⟨h'.limits.depth, Nat.le_max_right _ _⟩, h'.counts, h'.advances⟩

/-- All uses together keep the account. -/
theorem Accounted.useAll (h : p.Accounted peak n) (us : List Use) :
    (p.useAll us).2.Accounted (us.foldl Limits.raise peak)
      (n + (p.useAll us).1.countP unmatched) := by
  induction us generalizing p peak n with
  | nil => exact h
  | cons u us ih =>
    have hcount : n + (p.useAll (u :: us)).1.countP unmatched =
        n + (unmatched (p.use u).1).toNat + ((p.use u).2.useAll us).1.countP unmatched := by
      rw [Parser.useAll, List.countP_cons]
      cases unmatched (p.use u).1 with
      | false => simp
      | true =>
        simp only [Bool.toNat_true, if_true]
        omega
    rw [hcount]
    exact ih (h.use u)

/-- No use changes the tokens or goes back, and none that succeeds leaves another depth. -/
theorem use_cursor (p : Parser) (u : Use) : (p.use u).2.tokens = p.tokens ∧
    p.cursor.position ≤ (p.use u).2.cursor.position ∧
      ∀ e, (p.use u).1 = .ok e → (p.use u).2.cursor.depth = p.cursor.depth := by
  obtain ⟨xs, c', -, hread, hadv, -, hdepth⟩ := p.exists_readExpression
  have hposition : p.cursor.position ≤ p.readExpression.2.cursor.position := by
    rw [hread, hadv.position]
    exact Nat.le_add_right _ _
  have htokens : p.readExpression.2.tokens = p.tokens := by rw [hread]
  have hsuccess : ∀ e, p.readExpression.1 = .ok e →
      p.readExpression.2.cursor.depth = p.cursor.depth := by
    rw [hread]
    exact hdepth
  cases u with
  | readAll =>
    obtain ⟨hparser, -, hok⟩ := p.readAll_eq_readExpression
    rw [use, hparser]
    refine ⟨htokens, hposition, fun e he => ?_⟩
    cases hread : p.readAll.1 with
    | error r =>
      rw [hread] at he
      contradiction
    | ok e' => exact hsuccess e' (hok e' hread)
  | readExpression =>
    refine ⟨htokens, hposition, fun e he => ?_⟩
    cases hread : p.readExpression.1 with
    | error g =>
      rw [use, hread] at he
      contradiction
    | ok e' => exact hsuccess e' hread
  | limitDepth m => exact ⟨rfl, Nat.le_refl _, fun _ _ => rfl⟩
  | limitOperators m => exact ⟨rfl, Nat.le_refl _, fun _ _ => rfl⟩

theorem useAll_tokens (p : Parser) (us : List Use) : (p.useAll us).2.tokens = p.tokens := by
  induction us generalizing p with
  | nil => rfl
  | cons u us ih => rw [useAll, ih, (p.use_cursor u).1]

/-- After any uses of a parser over a list of tokens its counts agree with the tokens that it has
passed; they are within the largest limits that were in force; and the parentheses passed are those
of the open groups and one for each use that failed to open or to close a group. -/
theorem useAll_accounts (ts : List Token) (us : List Use) :
    let p := (useAll { tokens := ts } us).2
    let passed := ts.take p.cursor.position
    p.cursor.position ≤ ts.length ∧
      p.cursor.operators = passed.countP Token.isOperator ∧
      p.cursor.operators ≤ (Limits.peak us).operators ∧ p.cursor.depth ≤ (Limits.peak us).depth ∧
      passed.countP Token.isLeft = passed.countP Token.isRight + p.cursor.depth +
        (useAll { tokens := ts } us).1.countP unmatched ∧
      ∀ u, p.cursor.position ≤ (p.use u).2.cursor.position ∧
        ∀ e, (p.use u).1 = .ok e → (p.use u).2.cursor.depth = p.cursor.depth := by
  intro p passed
  have haccount := (accounted_fresh ts).useAll us
  have htokens : p.tokens = ts := useAll_tokens _ us
  obtain ⟨hposition, -, hcounts, hadvances⟩ := haccount
  rw [htokens] at hposition hadvances
  have hoperators := hadvances.operators
  have hparens := hadvances.parens
  rw [Nat.zero_add] at hoperators hparens
  refine ⟨hposition, hoperators, hcounts.operators, hcounts.depth, ?_, fun u => (p.use_cursor u).2⟩
  rw [hparens, Nat.zero_add, Nat.add_comm p.cursor.depth]

/-- The second use of a parser over `( true true` succeeds, and the parenthesis that the first one
left unmatched stays the only one. -/
theorem useAll_accounts_unclosed :
    let ts : List Token := [⟨.leftParen, "(", 0⟩, ⟨.literal .boolean, "true", 2⟩,
      ⟨.literal .boolean, "true", 7⟩]
    let p := (useAll { tokens := ts } [.readExpression]).2
    (p.use .readExpression).1 = .ok (some (.literal (.boolean true))) ∧
      (p.use .readExpression).2.cursor.depth = p.cursor.depth ∧
      (ts.take p.cursor.position).countP Token.isLeft =
        (ts.take p.cursor.position).countP Token.isRight + p.cursor.depth + 1 := by
  intro ts p
  obtain ⟨-, -, -, -, hparens, huse⟩ := useAll_accounts ts [.readExpression]
  have hread : (p.use .readExpression).1 = .ok (some (.literal (.boolean true))) := rfl
  exact ⟨hread, (huse .readExpression).2 _ hread, hparens⟩

end Parser

end FilterLang
