import FilterLang.Proofs.Relexing
import FilterLang.Proofs.RoundTrip
import Mathlib.Data.List.Forall2

/-! A tree from left to right. A walk finds in its list of subtrees what recursion finds in each of
them, in the order of the list. Read with every operator between its operands, a parsed tree is its
tokens without the parentheses, so nothing of the text is lost, doubled or moved; and as every level
above the lowest needs an operation of its own, the operators of the text bound the height. -/
namespace FilterLang

variable {l : Level} {t : Token} {ts : List Token} {e : Expr}

namespace Expr

/-! ### Walks -/

theorem namesOf_eq (found : List String) (work : List Expr) :
    namesOf found work = found.reverse ++ work.flatMap leafNames := by
  induction found, work using namesOf.induct with
  | case1 found => simp [namesOf]
  | case2 found name rest ih => simp [namesOf, ih, leafNames]
  | case3 found l rest hvar ih =>
    cases l with
    | var name => exact absurd rfl (hvar name)
    | _ => simp [namesOf, ih, leafNames]
  | case4 found op l r rest ih => simp [namesOf, ih, leafNames]

theorem variables_eq_leafNames (e : Expr) : e.variables = e.leafNames := by
  simp [Expr.variables, namesOf_eq]

/-- The walks find the height of the tree and the names at its leaves from left to right. -/
theorem walks_eq_recursions (e : Expr) : e.depth = e.height ∧ e.variables = e.leafNames :=
  ⟨e.depth_eq_height, e.variables_eq_leafNames⟩

/-! ### Measures -/

theorem length_literals (e : Expr) : e.literals.length = e.operations + 1 := by
  induction e with
  | literal l => rfl
  | binary op l r ihl ihr =>
    rw [literals, List.length_append, ihl, ihr, operations]
    omega

/-- Every level but one takes an operation. -/
theorem height_le_operations (e : Expr) : e.height ≤ e.operations + 1 := by
  induction e with
  | literal l => exact le_rfl
  | binary op l r ihl ihr =>
    rw [height, operations]
    omega

end Expr

/-! ### Symbols -/

/-- What a condition consists of, parentheses apart. -/
inductive Symbol where
  | operand (l : Literal)
  | operator (op : Operator)

/-- Operands and operators as they are read, each operator between its operands. -/
def Expr.inOrder : Expr → List Symbol
  | literal l => [.operand l]
  | binary op l r => l.inOrder ++ .operator op :: r.inOrder

/-- The token has the kind of the literal and its text; for a number, a text that denotes it. -/
def Literal.IsOf (t : Token) (l : Literal) : Prop :=
  t.kind = .literal l.kind ∧
    match l with
    | number x => Binary64.ofString? t.text = some x
    | boolean b => t.text = if b then "true" else "false"
    | string s | var s => t.text = s

def Symbol.IsOf (t : Token) : Symbol → Prop
  | operand l => l.IsOf t
  | operator op => t.kind = .operator op

def Token.isParenthesis (t : Token) : Bool := t.isLeft || t.isRight

/-- A Boolean that is not `true` is `false`. -/
def Token.WellWorded (t : Token) : Prop :=
  t.kind = .literal .boolean → t.text = "true" ∨ t.text = "false"

theorem Literal.isOf_of_ofToken? {k : Literal} (h : Literal.ofToken? t = some k)
    (ht : t.WellWorded) : k.IsOf t := by
  have hkind := kind_of_ofToken? h
  refine ⟨hkind, ?_⟩
  rw [ofToken?, hkind] at h
  cases k with
  | number x => simpa [kind] using h
  | string s => simpa [kind] using h
  | boolean b =>
    have hb : (t.text == "true") = b := by simpa [kind] using h
    rcases ht hkind with htext | htext
    all_goals
      rw [htext] at hb
      subst hb
      exact htext
  | var name => simpa [kind] using h

/-! ### The tokens of a derivation -/

/-- A derived tree is read as its tokens without the parentheses. -/
theorem Derives.inOrder (h : Derives l ts e) (hts : ∀ t ∈ ts, t.WellWorded) :
    List.Forall₂ Symbol.IsOf (ts.filter (!·.isParenthesis)) e.inOrder := by
  induction h with
  | @literal t k ht =>
    have hplain : t.isParenthesis = false := by
      simp [Token.isParenthesis, Token.isLeft, Token.isRight, Literal.kind_of_ofToken? ht]
    rw [List.filter_cons_of_pos (by simp [hplain])]
    exact .cons (Literal.isOf_of_ofToken? ht (hts t (by simp))) .nil
  | @group left right us _ hl hr _ ih =>
    have hus := ih fun t ht => hts t (by simp [ht])
    have hleft : left.isParenthesis = true := by simp [Token.isParenthesis, Token.isLeft, hl]
    have hright : right.isParenthesis = true := by simp [Token.isParenthesis, Token.isRight, hr]
    simpa [hleft, hright] using hus
  | tighter _ _ ih => exact ih hts
  | @chain op xs ys t _ _ _ ht _ ihx ihy =>
    have hx := ihx fun u hu => hts u (by simp [hu])
    have hy := ihy fun u hu => hts u (by simp [hu])
    have hplain : t.isParenthesis = false := by
      simp [Token.isParenthesis, Token.isLeft, Token.isRight, ht]
    rw [List.filter_append, List.filter_cons_of_pos (by simp [hplain])]
    exact List.rel_append hx (.cons ht hy)

/-- The names at the leaves of a derived tree are the texts of its variable tokens. -/
theorem Derives.leafNames (h : Derives l ts e) :
    e.leafNames = (ts.filter (·.kind == .literal .var)).map Token.text := by
  induction h with
  | @literal t k ht =>
    have hkind := Literal.kind_of_ofToken? ht
    cases k with
    | var name =>
      have htext : t.text = name := by simpa [Literal.ofToken?, hkind, Literal.kind] using ht
      simp [hkind, Literal.kind, htext, Expr.leafNames]
    | _ => simp [hkind, Literal.kind, Expr.leafNames]
  | group hl hr _ ih => simp [hl, hr, ih]
  | tighter _ _ ih => exact ih
  | chain _ ht _ ihx ihy => simp [ht, ihx, ihy, Expr.leafNames]

/-! ### The tokens of a text -/

/-- A stream takes no other words for Booleans. -/
theorem TokenStream.Yields.wellWorded {s s' : TokenStream} (h : s.Yields ts s') :
    ∀ t ∈ ts, t.WellWorded := by
  intro t ht hkind
  obtain ⟨r, hcuts⟩ := h.cuts rfl t ht
  have hword := hcuts.lexeme
  rw [hkind, Token.lexeme_of_ne (by simp [hkind])] at hword
  exact hword.imp String.toList_inj.mp String.toList_inj.mp

/-- The tree of a text is read as the tokens of the text without the parentheses. So its variables
are those of the text, it has one leaf more than it has operations, and it is at most one level
higher than the text has operators, of which there are no more than the limit. -/
theorem Settings.parse_inOrder {s : Settings} {text : String} (h : s.parse text = .ok e) :
    ∃ ts, s.tokenize text = .ok ts ∧
      List.Forall₂ Symbol.IsOf (ts.filter (!·.isParenthesis)) e.inOrder ∧
      e.variables = (ts.filter (·.kind == .literal .var)).map Token.text ∧
      e.literals.length = e.operations + 1 ∧
      e.depth ≤ 1 + ts.countP Token.isOperator ∧
      ts.countP Token.isOperator ≤ s.limits.operators := by
  obtain ⟨ts, hts, hparse⟩ := parse_eq_ok.mp h
  obtain ⟨hd, -, hoperators⟩ := parseTokens_eq_ok_iff.mp hparse
  obtain ⟨s', hy, -⟩ := TokenStream.tokens_eq_ok.mp hts
  have hdepth : e.depth ≤ 1 + ts.countP Token.isOperator := by
    rw [e.depth_eq_height, hd.countP_isOperator, Nat.add_comm]
    exact e.height_le_operations
  exact ⟨ts, hts, hd.inOrder hy.wellWorded, e.variables_eq_leafNames.trans hd.leafNames,
    e.length_literals, hdepth, hoperators⟩

/-- A name twice, on both sides of a group that holds one of the two operators. -/
theorem Settings.parse_inOrder_grouped :
    let name := Expr.literal (.var "string_value")
    let e := Expr.binary .ne name (.binary .lt (.literal (.boolean false)) name)
    Settings.parse {} " string_value != ((false)<string_value)" = .ok e ∧
      ∃ ts, Settings.tokenize {} " string_value != ((false)<string_value)" = .ok ts ∧
        List.Forall₂ Symbol.IsOf (ts.filter (!·.isParenthesis)) e.inOrder ∧
        e.variables = (ts.filter (·.kind == .literal .var)).map Token.text ∧
        e.literals.length = e.operations + 1 ∧
        e.depth ≤ 1 + ts.countP Token.isOperator ∧ ts.countP Token.isOperator ≤ 1024 := by
  intro name e
  have hparse : Settings.parse {} " string_value != ((false)<string_value)" = .ok e := by
    decide +kernel
  exact ⟨hparse, parse_inOrder hparse⟩

end FilterLang
