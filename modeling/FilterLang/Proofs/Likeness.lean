import FilterLang.Proofs.Reuse
import Mathlib.Data.List.Forall2

/-! What a parser sees of its tokens. It goes by their kinds and reads the text of literals only;
offsets and the texts of operators and parentheses are never looked at, an offset is only copied
into an error. So two lists of tokens that are alike lead two parsers through the same stages with the
same cursors, use after use, and to the same trees or to errors that differ in offsets alone, each
with the offset that its own list has at the same place. -/
namespace FilterLang

variable {limits : Limits} {c c' : Cursor} {s s' : Stage} {t u : Token}
  {ts us xs xs' ys ys' : List Token} {p : Parser} {i m n : Nat}

/-! ### Alike -/

/-- The tokens are of the same kind and have the same text if they are literals. -/
structure Token.Alike (t u : Token) : Prop where
  kind : u.kind = t.kind
  text : ∀ k, t.kind = .literal k → u.text = t.text

/-- The offsets are those of the tokens that the two lists have at the same place. -/
def SamePlace (ts us : List Token) (m n : Nat) : Prop :=
  ∃ i : Nat, (∃ t : Token, t ∈ ts[i]? ∧ t.offset = m) ∧ ∃ u : Token, u ∈ us[i]? ∧ u.offset = n

/-- The same error about the same place of the two lists. -/
inductive GrammarError.Alike (ts us : List Token) : GrammarError → GrammarError → Prop where
  | unexpectedToken {kind : Kind} {m n : Nat} (h : SamePlace ts us m n) :
      Alike ts us (.unexpectedToken kind m) (.unexpectedToken kind n)
  | unexpectedEnd : Alike ts us .unexpectedEnd .unexpectedEnd
  | missingAtEnd : Alike ts us (.missingRightParen none) (.missingRightParen none)
  | missingBefore {kind : Kind} {m n : Nat} (h : SamePlace ts us m n) :
      Alike ts us (.missingRightParen (some (kind, m))) (.missingRightParen (some (kind, n)))
  | trailingToken {kind : Kind} {m n : Nat} (h : SamePlace ts us m n) :
      Alike ts us (.trailingToken kind m) (.trailingToken kind n)
  | invalidNumber {text : String} {m n : Nat} (h : SamePlace ts us m n) :
      Alike ts us (.invalidNumber text m) (.invalidNumber text n)
  | nestedTooDeep {limit : Nat} : Alike ts us (.nestedTooDeep limit) (.nestedTooDeep limit)
  | tooManyOperators {limit m n : Nat} (h : SamePlace ts us m n) :
      Alike ts us (.tooManyOperators limit m) (.tooManyOperators limit n)

inductive Rejection.Alike (ts us : List Token) : Rejection → Rejection → Prop where
  | emptyInput : Alike ts us .emptyInput .emptyInput
  | grammar {e f : GrammarError} (h : e.Alike ts us f) : Alike ts us (.grammar e) (.grammar f)

/-- The same value, or errors that are related. -/
inductive AgreeUpTo {ε α : Type} (R : ε → ε → Prop) : Except ε α → Except ε α → Prop where
  | ok {x : α} : AgreeUpTo R (.ok x) (.ok x)
  | error {e f : ε} (h : R e f) : AgreeUpTo R (.error e) (.error f)

theorem AgreeUpTo.map {ε α β : Type} {R : ε → ε → Prop} {x y : Except ε α} (h : AgreeUpTo R x y)
    (f : α → β) : AgreeUpTo R (x.map f) (y.map f) := by
  cases h with
  | ok => exact .ok
  | error h => exact .error h

theorem AgreeUpTo.eq_mapError {ε α : Type} {R : ε → ε → Prop} {x y : Except ε α} {g : ε → ε}
    (h : AgreeUpTo R x y) (hg : ∀ e f, R e f → f = g e) : y = x.mapError g := by
  cases h with
  | ok => rfl
  | error h => rw [hg _ _ h]; rfl

theorem AgreeUpTo.grammar {x y : Except GrammarError Expr}
    (h : AgreeUpTo (GrammarError.Alike ts us) x y) :
    AgreeUpTo (Rejection.Alike ts us) (x.mapError .grammar) (y.mapError .grammar) := by
  cases h with
  | ok => exact .ok
  | error h => exact .error (.grammar h)

/-- The same number of tokens left means the same place. -/
theorem SamePlace.of_drop (ht : (ts.drop i).head? = some t) (hu : (us.drop i).head? = some u) :
    SamePlace ts us t.offset u.offset := by
  rw [List.head?_drop] at ht hu
  exact ⟨i, ⟨t, ht, rfl⟩, u, hu, rfl⟩

/-! ### Through the machine -/

namespace Token.Alike

variable (h : t.Alike u)
include h

theorem ofToken?_eq : Literal.ofToken? u = Literal.ofToken? t := by
  have htext := h.text
  rw [Literal.ofToken?, Literal.ofToken?, h.kind]
  split
  next hk => rw [htext _ hk]
  next hk => rw [htext _ hk]
  next hk => rw [htext _ hk]
  next hk => rw [htext _ hk]
  next => rfl

theorem isOperator_eq : u.isOperator = t.isOperator := by
  rw [Token.isOperator, h.kind, ← Token.isOperator]

theorem isLeft_eq : u.isLeft = t.isLeft := by rw [Token.isLeft, h.kind, ← Token.isLeft]

theorem isRight_eq : u.isRight = t.isRight := by rw [Token.isRight, h.kind, ← Token.isRight]

theorem pass_eq : c.pass u = c.pass t := by
  rw [Cursor.pass, h.kind, ← Cursor.pass]

theorem admits (ha : limits.Admits c t) : limits.Admits c u := by
  rwa [Limits.Admits, h.isLeft_eq, h.isOperator_eq]

theorem takes (ht : Takes s t s') : Takes s u s' := by
  cases ht with
  | opening hk => exact .opening (h.kind.trans hk)
  | literal hl => exact .literal (h.ofToken?_eq.trans hl)
  | operator hk => exact .operator (h.kind.trans hk)
  | closing hk => exact .closing (h.kind.trans hk)

end Token.Alike

theorem Reads.alike (h : Reads s xs s') (hx : List.Forall₂ Token.Alike xs xs') :
    Reads s xs' s' := by
  induction h generalizing xs' with
  | nil =>
    cases hx
    exact .nil
  | cons ht _ ih =>
    cases hx with
    | cons h hx => exact .cons (h.takes ht) (ih hx)

theorem Limits.AdmitsAll.alike (h : limits.AdmitsAll c xs) (hx : List.Forall₂ Token.Alike xs xs') :
    limits.AdmitsAll c xs' := by
  induction hx generalizing c with
  | nil => trivial
  | cons ht _ ih =>
    refine ⟨ht.admits h.1, ih ?_⟩
    rw [ht.pass_eq]
    exact h.2

theorem Cursor.passAll_alike (c : Cursor) (hx : List.Forall₂ Token.Alike xs xs') :
    c.passAll xs' = c.passAll xs := by
  induction hx generalizing c with
  | nil => rfl
  | cons ht _ ih =>
    rw [Cursor.passAll, List.foldl_cons, ht.pass_eq]
    exact ih _

/-- A run stops before tokens that are alike for the same cause. -/
theorem Stops.alike {r : Except GrammarError Expr} (h : Stops limits c s ys r c')
    (hy : List.Forall₂ Token.Alike ys ys')
    (hplace : ∀ t ∈ ys.head?, ∀ u ∈ ys'.head?, SamePlace ts us t.offset u.offset) :
    ∃ r', Stops limits c s ys' r' c' ∧ AgreeUpTo (GrammarError.Alike ts us) r r' := by
  cases hy with
  | nil =>
    cases h with
    | unexpectedEnd => exact ⟨_, .unexpectedEnd, .error .unexpectedEnd⟩
    | complete => exact ⟨_, .complete, .ok⟩
    | unclosed => exact ⟨_, .unclosed, .error .missingAtEnd⟩
  | @cons t u _ _ ha =>
    have hplace := hplace t rfl u rfl
    cases h with
    | nested hk hd => exact ⟨_, .nested (ha.kind.trans hk) hd, .error .nestedTooDeep⟩
    | invalidNumber hk hl =>
      refine ⟨_, .invalidNumber (ha.kind.trans hk) (ha.ofToken?_eq.trans hl), ?_⟩
      rw [ha.text _ hk]
      exact .error (.invalidNumber hplace)
    | unexpected hk =>
      refine ⟨_, .unexpected (by rwa [ha.kind]), ?_⟩
      rw [ha.kind]
      exact .error (.unexpectedToken hplace)
    | tooMany hk ho =>
      exact ⟨_, .tooMany (by rwa [ha.isOperator_eq]) ho, .error (.tooManyOperators hplace)⟩
    | trailing hk => exact ⟨_, .trailing (by rwa [ha.isOperator_eq]), .ok⟩
    | missing hk hr =>
      refine ⟨_, .missing (by rwa [ha.isOperator_eq]) (by rwa [ha.isRight_eq]), ?_⟩
      rw [ha.kind]
      exact .error (.missingBefore hplace)

/-- What a whole list makes of the first expression that was read from it. -/
theorem Parser.conclude_alike {r r' : Except GrammarError Expr}
    (h : AgreeUpTo (GrammarError.Alike ts us) r r') (hy : List.Forall₂ Token.Alike ys ys')
    (hplace : ∀ t ∈ ys.head?, ∀ u ∈ ys'.head?, SamePlace ts us t.offset u.offset) :
    AgreeUpTo (Rejection.Alike ts us) (conclude r ys) (conclude r' ys') := by
  cases h with
  | error he => exact .error (.grammar he)
  | ok =>
    cases hy with
    | nil => exact .ok
    | cons ha _ =>
      rw [conclude, conclude, ha.kind]
      exact .error (.grammar (.trailingToken (hplace _ rfl _ rfl)))

/-! ### Through the uses of a parser -/

namespace Parser

/-- The parser over other tokens. -/
def withTokens (p : Parser) (us : List Token) : Parser := { p with tokens := us }

variable (h : List.Forall₂ Token.Alike p.tokens us)
include h

theorem readExpression_alike :
    AgreeUpTo (GrammarError.Alike p.tokens us) p.readExpression.1
        (p.withTokens us).readExpression.1 ∧
      (p.withTokens us).readExpression.2 = p.readExpression.2.withTokens us := by
  obtain ⟨xs, ys, s, r, c, hrest, hr, ha, hs⟩ := Stage.exists_stops p.limits p.cursor .start p.rest
  have hsplit : List.Forall₂ Token.Alike (xs ++ ys) (p.withTokens us).rest := by
    rw [← hrest]
    exact List.forall₂_drop _ h
  have hxs := List.forall₂_take xs.length hsplit
  have hys := List.forall₂_drop xs.length hsplit
  rw [List.take_left] at hxs
  rw [List.drop_left] at hys
  have hplace : ∀ t ∈ ys.head?, ∀ u ∈ ((p.withTokens us).rest.drop xs.length).head?,
      SamePlace p.tokens us t.offset u.offset := by
    intro t ht u hu
    have hdrop : ys = p.tokens.drop (p.cursor.position + xs.length) := by
      rw [← List.drop_drop, ← Parser.rest, hrest, List.drop_left]
    rw [rest, List.drop_drop] at hu
    exact .of_drop (hdrop ▸ ht) hu
  obtain ⟨r', hs', hagree⟩ := hs.alike hys hplace
  rw [← Cursor.passAll_alike _ hxs] at hs'
  rw [readExpression_of_stops hrest hr ha hs,
    readExpression_of_stops (p := p.withTokens us) (List.take_append_drop _ _).symm (hr.alike hxs)
      (ha.alike hxs) hs']
  exact ⟨hagree, rfl⟩

theorem readAll_alike :
    AgreeUpTo (Rejection.Alike p.tokens us) p.readAll.1 (p.withTokens us).readAll.1 ∧
      (p.withTokens us).readAll.2 = p.readAll.2.withTokens us := by
  by_cases hne : p.tokens = []
  · obtain rfl : us = [] := by simpa [hne] using h
    have hreads : p.readAll = (.error .emptyInput, p) := by rw [readAll, hne]; rfl
    rw [hreads]
    exact ⟨.error .emptyInput, rfl⟩
  have hne' : (p.withTokens us).tokens ≠ [] := by
    rintro rfl
    simp [hne] at h
  obtain ⟨hagree, hparser⟩ := readExpression_alike h
  have htokens : p.readExpression.2.tokens = p.tokens := (p.use_cursor .readExpression).1
  rw [readAll_eq_conclude hne, readAll_eq_conclude hne', hparser]
  refine ⟨conclude_alike hagree (List.forall₂_drop _ (htokens ▸ h)) fun t ht u hu => ?_, rfl⟩
  rw [rest, htokens] at ht
  exact .of_drop ht hu

theorem use_alike (use : Use) :
    AgreeUpTo (Rejection.Alike p.tokens us) (p.use use).1 ((p.withTokens us).use use).1 ∧
      ((p.withTokens us).use use).2 = (p.use use).2.withTokens us := by
  cases use with
  | readAll => exact (readAll_alike h).imp_left (·.map some)
  | readExpression => exact (readExpression_alike h).imp_left (·.grammar.map some)
  | limitDepth m => exact ⟨.ok, rfl⟩
  | limitOperators m => exact ⟨.ok, rfl⟩

theorem useAll_withTokens (uses : List Use) :
    List.Forall₂ (AgreeUpTo (Rejection.Alike p.tokens us)) (p.useAll uses).1
        ((p.withTokens us).useAll uses).1 ∧
      ((p.withTokens us).useAll uses).2 = (p.useAll uses).2.withTokens us := by
  induction uses generalizing p with
  | nil => exact ⟨.nil, rfl⟩
  | cons use uses ih =>
    obtain ⟨hagree, hparser⟩ := use_alike h use
    have htokens := (p.use_cursor use).1
    obtain ⟨hrest, hlast⟩ := ih (p := (p.use use).2) (by rwa [htokens])
    rw [htokens] at hrest
    rw [useAll, useAll, hparser]
    exact ⟨.cons hagree hrest, hlast⟩

end Parser

/-! ### Without offsets -/

/-- The token at the start of a text. -/
def Token.unplaced (t : Token) : Token := { t with offset := 0 }

def GrammarError.unplaced : GrammarError → GrammarError
  | unexpectedToken kind _ => unexpectedToken kind 0
  | unexpectedEnd => unexpectedEnd
  | missingRightParen found => missingRightParen (found.map fun (kind, _) => (kind, 0))
  | trailingToken kind _ => trailingToken kind 0
  | invalidNumber text _ => invalidNumber text 0
  | nestedTooDeep limit => nestedTooDeep limit
  | tooManyOperators limit _ => tooManyOperators limit 0

/-- The rejection without the offset that it repeats. -/
def Rejection.unplaced : Rejection → Rejection
  | grammar e => grammar e.unplaced
  | r => r

theorem Token.alike_unplaced (t : Token) : t.Alike t.unplaced := ⟨rfl, fun _ _ => rfl⟩

/-- In front of tokens without their offsets an error repeats none. -/
theorem Rejection.Alike.eq_unplaced {e f : Rejection}
    (h : Rejection.Alike ts (ts.map Token.unplaced) e f) : f = e.unplaced := by
  have hplace : ∀ {m n}, SamePlace ts (ts.map Token.unplaced) m n → n = 0 := by
    rintro m n ⟨i, -, u, hu, rfl⟩
    obtain ⟨t, -, rfl⟩ := List.mem_map.mp (List.mem_of_getElem? hu)
    rfl
  cases h with
  | emptyInput => rfl
  | grammar h =>
    cases h with
    | unexpectedToken h => rw [hplace h]; rfl
    | unexpectedEnd => rfl
    | missingAtEnd => rfl
    | missingBefore h => rw [hplace h]; rfl
    | trailingToken h => rw [hplace h]; rfl
    | invalidNumber h => rw [hplace h]; rfl
    | nestedTooDeep => rfl
    | tooManyOperators h => rw [hplace h]; rfl

theorem parseTokens_unplaced (ts : List Token) (limits : Limits) :
    parseTokens (ts.map Token.unplaced) limits =
      (parseTokens ts limits).mapError Rejection.unplaced := by
  have halike : List.Forall₂ Token.Alike ts (ts.map Token.unplaced) :=
    List.forall₂_map_right_iff.mpr (List.forall₂_same.mpr fun t _ => t.alike_unplaced)
  exact (Parser.readAll_alike (p := { tokens := ts, limits }) halike).1.eq_mapError
    fun _ _ h => h.eq_unplaced

/-! ### Two lists -/

/-- Two parsers over tokens that are alike give the same trees, or errors that differ in offsets
alone, and come to the same cursor, use after use. -/
theorem Parser.useAll_alike (h : List.Forall₂ Token.Alike ts us) (limits : Limits) :
    AgreeUpTo (Rejection.Alike ts us) (parseTokens ts limits) (parseTokens us limits) ∧
    ∀ uses : List Use,
      let before := useAll { tokens := ts, limits } uses
      let after := useAll { tokens := us, limits } uses
      List.Forall₂ (AgreeUpTo (Rejection.Alike ts us)) before.1 after.1 ∧
        after.2.cursor = before.2.cursor := by
  let p : Parser := { tokens := ts, limits }
  refine ⟨(readAll_alike (p := p) h).1, fun uses => ?_⟩
  obtain ⟨hagree, hparser⟩ := useAll_withTokens (p := p) h uses
  refine ⟨hagree, ?_⟩
  change ((p.withTokens us).useAll uses).2.cursor = (p.useAll uses).2.cursor
  rw [hparser]
  rfl

/-- An order test that lacks its right operand, with true and with made-up offsets and texts. -/
theorem Parser.useAll_alike_renumbered :
    let ts : List Token :=
      [⟨.literal .number, "1", 0⟩, ⟨.operator .lt, "<", 2⟩, ⟨.rightParen, ")", 4⟩]
    let us : List Token :=
      [⟨.literal .number, "1", 9⟩, ⟨.operator .lt, "", 9⟩, ⟨.rightParen, "(", 7⟩]
    List.Forall₂ Token.Alike ts us ∧
      parseTokens ts {} = .error (.grammar (.unexpectedToken .rightParen 4)) ∧
      parseTokens us {} = .error (.grammar (.unexpectedToken .rightParen 7)) ∧
      AgreeUpTo (Rejection.Alike ts us) (parseTokens ts {}) (parseTokens us {}) := by
  intro ts us
  have halike : List.Forall₂ Token.Alike ts us :=
    .cons ⟨rfl, fun _ _ => rfl⟩ (.cons ⟨rfl, nofun⟩ (.cons ⟨rfl, nofun⟩ .nil))
  exact ⟨halike, rfl, rfl, (useAll_alike halike {}).1⟩

end FilterLang
