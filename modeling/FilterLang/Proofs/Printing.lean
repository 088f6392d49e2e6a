import FilterLang.Proofs.Derivation
import FilterLang.Proofs.Spelling

/-! The printed form of a tree: each literal as one token, each operation in parentheses around the
two operands and the operator. The tokens derive the tree, nest one group less deep than the tree
has levels, and hold one operator token for each operation. A printed tree is pulled as these
tokens, unless one of its literals cannot be printed, before which the stream fails. -/
namespace FilterLang

namespace Expr

/-! ### Measures of a tree -/

/-- The literals from left to right. -/
def literals : Expr → List Literal
  | literal l => [l]
  | binary _ l r => l.literals ++ r.literals

def operations : Expr → Nat
  | literal _ => 0
  | binary _ l r => l.operations + r.operations + 1

theorem height_pos (e : Expr) : 0 < e.height := by cases e <;> simp [height]

theorem deepestOf_eq_foldl (deepest : Nat) (work : List (Expr × Nat)) :
    deepestOf deepest work = work.foldl (fun d w => max d (w.1.height + w.2 - 1)) deepest := by
  induction deepest, work using deepestOf.induct with
  | case1 deepest => simp [deepestOf]
  | case2 deepest l level rest ih => simp [deepestOf, ih, height]
  | case3 deepest op l r level rest ih =>
    have hmax : max (max (max deepest level) (r.height + (level + 1) - 1))
        (l.height + (level + 1) - 1) =
        max deepest (max l.height r.height + 1 + level - 1) := by omega
    rw [deepestOf, ih]
    simp only [List.foldl_cons, height, hmax]

/-- The walk finds the height. -/
theorem depth_eq_height (e : Expr) : e.depth = e.height := by
  simp [depth, deepestOf_eq_foldl]

/-! ### Text of a tree -/

/-- The characters of the printed form. -/
def chars : Expr → List Char
  | literal l => l.display.toList
  | binary op l r =>
    '(' :: (l.chars ++ ' ' :: (op.symbol.toList ++ ' ' :: (r.chars ++ [')'])))

theorem toList_displayAfter (done : String) (e : Expr) :
    (displayAfter done e).toList = done.toList ++ e.chars := by
  induction e generalizing done with
  | literal l => simp [displayAfter, chars]
  | binary op l r ihl ihr => simp [displayAfter, chars, ihl, ihr]

theorem toList_display (e : Expr) : e.display.toList = e.chars := by
  simp [display, toList_displayAfter]

theorem tight_binary {op : Operator} {l r : Expr} : Text.Tight (binary op l r).chars := by
  have hchars : (binary op l r).chars = '(' :: ((l.chars ++ ' ' :: (op.symbol.toList ++
      ' ' :: r.chars)) ++ [')']) := by simp [chars]
  rw [hchars]
  exact .enclose rfl rfl

theorem tight_chars {e : Expr} (h : ∀ l ∈ e.literals, l.Lexical) : Text.Tight e.chars := by
  cases e with
  | literal l => exact Literal.tight_display (h l (by simp [literals]))
  | binary op l r => exact tight_binary

end Expr

/-! ### Tokens of a derivation -/

theorem Literal.ofToken?_eq_none {t : Token} (h : ∀ k, t.kind ≠ .literal k) : ofToken? t = none := by
  cases hl : ofToken? t with
  | none => rfl
  | some l => exact absurd (kind_of_ofToken? hl) (h _)

/-- The literals of a derived tree are those of its tokens, in order. -/
theorem Derives.literals {l : Level} {ts : List Token} {e : Expr} (h : Derives l ts e) :
    ts.filterMap Literal.ofToken? = e.literals := by
  induction h with
  | literal ht => simp [ht, Expr.literals]
  | @group left right _ _ hl hr _ ih =>
    have hleft : Literal.ofToken? left = none := Literal.ofToken?_eq_none (by simp [hl])
    have hright : Literal.ofToken? right = none := Literal.ofToken?_eq_none (by simp [hr])
    simp [hleft, hright, ih]
  | tighter _ _ ih => exact ih
  | @chain _ _ _ t _ _ _ ht _ ihx ihy =>
    have hop : Literal.ofToken? t = none := Literal.ofToken?_eq_none (by simp [ht])
    simp [hop, ihx, ihy, Expr.literals]

/-- Every operation has its operator token. -/
theorem Derives.countP_isOperator {l : Level} {ts : List Token} {e : Expr} (h : Derives l ts e) :
    ts.countP Token.isOperator = e.operations := by
  induction h with
  | literal ht =>
    simp [Token.isOperator, Literal.kind_of_ofToken? ht, Kind.operator?, Expr.operations]
  | group hl hr _ ih => simpa [Token.isOperator, hl, hr, Kind.operator?] using ih
  | tighter _ _ ih => exact ih
  | chain _ ht _ ihx ihy =>
    rw [Expr.operations, ← ihx, ← ihy]
    simp [Token.isOperator, ht, Kind.operator?]
    omega

/-! ### Nesting -/

variable {depth : Nat} {t : Token} {ts us : List Token}

theorem nestsWithin_singleton (h : t.isLeft = false) : NestsWithin depth [t] := by
  intro us hu
  have hcount : us.countP Token.isLeft = 0 := by
    rw [List.countP_eq_zero]
    intro u hmem
    simp [List.mem_singleton.mp (hu.mem hmem), h]
  omega

/-- In front of what follows there may stand anything balanced that nests within the bound. -/
theorem nestsWithin_append (h : ts.countP Token.isLeft = ts.countP Token.isRight) :
    NestsWithin depth (ts ++ us) ↔ NestsWithin depth ts ∧ NestsWithin depth us := by
  constructor
  · intro hn
    refine ⟨fun vs hv => hn vs (hv.trans (List.prefix_append _ _)), fun vs hv => ?_⟩
    have hvs := hn (ts ++ vs) ((List.prefix_append_right_inj ts).mpr hv)
    rw [List.countP_append, List.countP_append] at hvs
    omega
  · rintro ⟨ht, hu⟩ vs hv
    rcases List.prefix_or_prefix_of_prefix hv (List.prefix_append ts us) with hv | ⟨ws, rfl⟩
    · exact ht vs hv
    · have hws := hu ws ((List.prefix_append_right_inj ts).mp hv)
      rw [List.countP_append, List.countP_append]
      omega

theorem nestsWithin_left_cons (h : t.kind = .leftParen) :
    NestsWithin (depth + 1) (t :: ts) ↔ NestsWithin depth ts := by
  have hl : t.isLeft = true := by simp [Token.isLeft, h]
  have hr : t.isRight = false := by simp [Token.isRight, h]
  constructor
  · intro hn vs hv
    have hvs := hn (t :: vs) ((List.prefix_cons_inj t).mpr hv)
    rw [List.countP_cons_of_pos hl, List.countP_cons_of_neg (by simp [hr])] at hvs
    omega
  · intro hn vs hv
    rcases List.prefix_cons_iff.mp hv with rfl | ⟨ws, rfl, hw⟩
    · simp
    · have hws := hn ws hw
      rw [List.countP_cons_of_pos hl, List.countP_cons_of_neg (by simp [hr])]
      omega

theorem not_nestsWithin_zero (h : t.kind = .leftParen) : ¬ NestsWithin 0 (t :: ts) := by
  intro hn
  have hone := hn [t] ((List.prefix_cons_inj t).mpr List.nil_prefix)
  simp [Token.isLeft, Token.isRight, h] at hone

/-! ### Tokens of a tree -/

/-- The tokens are the printed form of the tree. -/
inductive Printed : Expr → List Token → Prop where
  | literal {t : Token} {l : Literal} (ht : Literal.ofToken? t = some l) :
      Printed (.literal l) [t]
  | binary {op : Operator} {x y : Expr} {left t right : Token} {xs ys : List Token}
      (hl : left.kind = .leftParen) (hx : Printed x xs) (ht : t.kind = .operator op)
      (hy : Printed y ys) (hr : right.kind = .rightParen) :
      Printed (.binary op x y) (left :: (xs ++ t :: ys) ++ [right])

/-- An operand is an expression of every level. -/
theorem Derives.of_operand {ts : List Token} {e : Expr} (h : Derives .operand ts e) (l : Level) :
    Derives l ts e := by
  have hr : Derives .relational ts e := .tighter (by decide) h
  have he : Derives .equality ts e := .tighter (by decide) hr
  cases l with
  | operand => exact h
  | relational => exact hr
  | equality => exact he
  | conjunction => exact .tighter (by decide) he

/-- What derives at some level derives at the loosest. -/
theorem Derives.to_conjunction {l : Level} {ts : List Token} {e : Expr} (h : Derives l ts e) :
    Derives .conjunction ts e := by
  cases l with
  | operand => exact h.of_operand _
  | relational => exact .tighter (by decide) (.tighter (by decide) h)
  | equality => exact .tighter (by decide) h
  | conjunction => exact h

namespace Printed

variable {e : Expr} {ts : List Token}

theorem derives (h : Printed e ts) : Derives .operand ts e := by
  induction h with
  | literal ht => exact .literal ht
  | binary hl _ ht _ hr ihx ihy =>
    have hchain := Derives.chain (ihx.of_operand _) ht (ihy.of_operand _)
    exact .group hl hr hchain.to_conjunction

/-- Every group that is opened is closed. -/
theorem balanced (h : Printed e ts) : ts.countP Token.isLeft = ts.countP Token.isRight := by
  induction h with
  | literal ht => simp [Token.isLeft, Token.isRight, Literal.kind_of_ofToken? ht]
  | binary hl _ ht _ hr ihx ihy =>
    simp only [List.cons_append, List.append_assoc, List.countP_cons, List.countP_append,
      List.countP_nil, ihx, ihy]
    simp [Token.isLeft, Token.isRight, hl, ht, hr]
    omega

/-- The groups nest one level less deep than the tree. -/
theorem nestsWithin_iff (h : Printed e ts) (depth : Nat) :
    NestsWithin depth ts ↔ e.height ≤ depth + 1 := by
  induction h generalizing depth with
  | @literal t l ht =>
    have hleft : t.isLeft = false := by simp [Token.isLeft, Literal.kind_of_ofToken? ht]
    simp [nestsWithin_singleton hleft, Expr.height]
  | @binary op x y left t right xs ys hl hx ht hy hr ihx ihy =>
    have hbalanced := (Printed.binary hl hx ht hy hr).balanced
    have htl : t.isLeft = false := by simp [Token.isLeft, ht]
    have htr : t.isRight = false := by simp [Token.isRight, ht]
    rw [nestsWithin_append_singleton, and_iff_left (by omega)]
    cases depth with
    | zero =>
      have hxpos := x.height_pos
      simp only [not_nestsWithin_zero hl, false_iff, Expr.height]
      omega
    | succ depth =>
      rw [nestsWithin_left_cons hl, nestsWithin_append hx.balanced,
        ← List.singleton_append, nestsWithin_append (by simp [htl, htr]), ihx, ihy,
        iff_true_intro (nestsWithin_singleton htl), true_and, Expr.height]
      omega

end Printed

/-! ### Pulling a printed tree -/

open TokenStream

/-- A literal is pulled as its token, or the stream fails because the literal cannot be printed. -/
theorem Literal.exists_pulled {l : Literal} (h : l.Lexical) {s : TokenStream} {rest : List Char}
    (hp : s.pattern = .default) (hs : s.rest.dropWhile Text.isBlank = l.display.toList ++ rest)
    (hr : Closed rest) :
    (l.Printable ∧ ∃ t s', s.next = (.ok (some t), s') ∧ ofToken? t = some l ∧ s'.rest = rest) ∨
      ¬ l.Printable ∧ s.Fails := by
  by_cases hl : l.Printable
  · have hc := classify_display hl hr
    rw [← hp] at hc
    obtain ⟨offset, s', hn, hrest, -⟩ := next_of_lexeme hs hc
    exact .inl ⟨hl, _, s', hn, ofToken?_display hl offset, hrest⟩
  · refine .inr ⟨hl, ?_⟩
    cases l with
    | number x =>
      have hne : s.skipBlanks.rest ≠ [] := by
        rw [skipBlanks_rest, hs]
        exact List.append_ne_nil_of_left_ne_nil (tight_display h).ne_nil rest
      have hc : classify s.pattern s.skipBlanks.rest = none := by
        rw [skipBlanks_rest, hs, hp]
        exact classify_display_eq_none hl
      exact ⟨[], s, _, .nil, congrArg Prod.fst (next_of_none hne hc)⟩
    | _ => exact absurd h hl

/-- A printed tree is pulled as its tokens up to its end, unless one of its literals cannot be
printed: then the stream fails. -/
theorem Expr.exists_pulled {e : Expr} (h : ∀ l ∈ e.literals, l.Lexical) {s : TokenStream}
    {rest : List Char} (hp : s.pattern = .default)
    (hs : s.rest.dropWhile Text.isBlank = e.chars ++ rest) (hr : Closed rest) :
    ((∀ l ∈ e.literals, l.Printable) ∧ ∃ ts s', s.Yields ts s' ∧ Printed e ts ∧ s'.rest = rest) ∨
      (∃ l ∈ e.literals, ¬ l.Printable) ∧ s.Fails := by
  induction e generalizing s rest with
  | literal l =>
    rcases Literal.exists_pulled (h l (by simp [literals])) hp hs hr with
      ⟨hl, t, s', hn, ht, hrest⟩ | ⟨hl, hfails⟩
    · exact .inl ⟨by simpa [literals] using hl, _, s', .single hn, .literal ht, hrest⟩
    · exact .inr ⟨⟨l, by simp [literals], hl⟩, hfails⟩
  | binary op x y ihx ihy =>
    have hx : ∀ l ∈ x.literals, l.Lexical := fun l hl => h l (by simp [literals, hl])
    have hy : ∀ l ∈ y.literals, l.Lexical := fun l hl => h l (by simp [literals, hl])
    have hsplit : (binary op x y).chars ++ rest = ['('] ++ (x.chars ++
        ' ' :: (op.symbol.toList ++ ' ' :: (y.chars ++ ([')'] ++ rest)))) := by simp [chars]
    rw [hsplit] at hs
    -- The parenthesis and the left operand.
    obtain ⟨o₁, s₁, hn₁, hs₁, hp₁⟩ := next_of_lexeme hs (by rw [hp]; exact classify_leftParen)
    rw [hp] at hp₁
    have htx := congrArg (List.dropWhile Text.isBlank) hs₁
    rw [(tight_chars hx).dropWhile_append] at htx
    rcases ihx hx hp₁ htx (by rintro c ⟨⟩; exact .inl rfl) with
      ⟨hlx, xs, s₂, hyx, hprx, hs₂⟩ | ⟨⟨l, hl, hnot⟩, hfails⟩
    swap
    · exact .inr ⟨⟨l, by simp [literals, hl], hnot⟩, (Yields.single hn₁).fails hfails⟩
    have hp₂ : s₂.pattern = .default := hyx.pattern_eq.trans hp₁
    -- The operator and the right operand.
    have hop := congrArg (List.dropWhile Text.isBlank) hs₂
    rw [op.tight_symbol.dropWhile_space_append] at hop
    obtain ⟨o₃, s₃, hn₃, hs₃, hp₃⟩ := next_of_lexeme hop (classify_operator op)
    rw [hp₂] at hp₃
    have hyield := ((Yields.single hn₁).append hyx).append (.single hn₃)
    have hty := congrArg (List.dropWhile Text.isBlank) hs₃
    rw [(tight_chars hy).dropWhile_space_append] at hty
    rcases ihy hy hp₃ hty (by rintro c ⟨⟩; exact .inr rfl) with
      ⟨hly, ys, s₄, hyy, hpry, hs₄⟩ | ⟨⟨l, hl, hnot⟩, hfails⟩
    swap
    · exact .inr ⟨⟨l, by simp [literals, hl], hnot⟩, hyield.fails hfails⟩
    have hp₄ : s₄.pattern = .default := hyy.pattern_eq.trans hp₃
    -- The closing parenthesis.
    have hright : s₄.rest.dropWhile Text.isBlank = [')'] ++ rest := by rw [hs₄]; rfl
    obtain ⟨o₅, s₅, hn₅, hs₅, -⟩ := next_of_lexeme hright (by rw [hp₄]; exact classify_rightParen)
    let left := Token.ofLexeme .leftParen ['('] o₁
    let t := Token.ofLexeme (.operator op) op.symbol.toList o₃
    let right := Token.ofLexeme .rightParen [')'] o₅
    have hprinted : Printed (.binary op x y) (left :: (xs ++ t :: ys) ++ [right]) :=
      .binary rfl hprx rfl hpry rfl
    have hall := (hyield.append hyy).append (.single hn₅)
    rw [List.append_assoc ([left] ++ xs), List.append_assoc [left]] at hall
    exact .inl ⟨fun l hl => (List.mem_append.mp hl).elim (hlx l) (hly l), _, s₅, hall, hprinted, hs₅⟩

end FilterLang
