import FilterLang.Proofs.Reading
import Mathlib.Data.List.Induction
import Mathlib.Data.Set.Subsingleton

/-! The machine against the grammar. What waits in a stage spans the tokens that have been read
(`Stage.Spans`), so a list that is read to the end has a derivation; and a derivation tells the
machine where it gets to (`Level.Lands`), so every derivable list is read to the end. Hence a fresh
parser accepts just the derivable lists within its limits, and a list has one tree at most. -/
namespace FilterLang

/-! ### The grammar in rounds -/

/-- One more round of a level: an operator and the operand behind it. -/
structure Round where
  token : Token
  op : Operator
  operand : List Token
  tree : Expr

def Round.Fits (l : Level) (r : Round) : Prop :=
  r.token.kind = .operator r.op ∧ Level.ofOperator r.op = l ∧ Derives l.tighter r.operand r.tree

theorem Level.ofOperator_ne_operand (op : Operator) : Level.ofOperator op ≠ .operand := by
  cases op <;> simp [Level.ofOperator]

/-- The tokens are an operand of the level and any number of rounds, and the tree is folded over
them to the left. -/
def Level.Repeats (l : Level) (ts : List Token) (e : Expr) : Prop :=
  ∃ (xs : List Token) (x : Expr) (rounds : List Round), Derives l.tighter xs x ∧
    (∀ r ∈ rounds, r.Fits l) ∧ ts = xs ++ rounds.flatMap (fun r => r.token :: r.operand) ∧
    e = rounds.foldl (fun left r => .binary r.op left r.tree) x

/-- Every level but the last repeats the next one. -/
theorem derives_iff_repeats {l : Level} (hl : l ≠ .operand) {ts : List Token} {e : Expr} :
    Derives l ts e ↔ l.Repeats ts e := by
  constructor
  · intro h
    induction h with
    | literal _ | group _ _ _ => contradiction
    | @tighter l ts e _ h _ => exact ⟨ts, e, [], h, by simp, by simp, rfl⟩
    | @chain op xs ys t x y hx ht hy ihx _ =>
      obtain ⟨zs, z, rounds, hz, hr, rfl, rfl⟩ := ihx hl
      refine ⟨zs, z, rounds ++ [⟨t, op, ys, y⟩], hz, ?_, by simp, by simp⟩
      intro r hmem
      rcases List.mem_append.mp hmem with hmem | hmem
      · exact hr r hmem
      · rw [List.mem_singleton] at hmem
        subst hmem
        exact ⟨ht, rfl, hy⟩
  · rintro ⟨xs, x, rounds, hx, hr, rfl, rfl⟩
    have hfirst : Derives l xs x := .tighter hl hx
    clear hx
    induction rounds generalizing xs x with
    | nil => simpa using hfirst
    | cons r rounds ih =>
      obtain ⟨hk, rfl, hy⟩ := hr r (by simp)
      have h := ih (xs ++ r.token :: r.operand) (.binary r.op x r.tree)
        (fun r' hr' => hr r' (by simp [hr'])) (.chain hfirst hk hy)
      simpa using h

/-! ### What a stage has read -/

/-- The left operand joined with what it waits for. -/
def join (waiting : Option (Expr × Operator)) (e : Expr) : Expr :=
  match waiting with
  | some (left, op) => .binary op left e
  | none => e

/-- The tokens of a left operand that waits on the level, and of its operator. -/
inductive Level.Waits (l : Level) : Option (Expr × Operator) → List Token → Prop where
  | nothing : Waits l none []
  | something {e : Expr} {op : Operator} {ts : List Token} {t : Token} (h : Derives l ts e)
      (ht : t.kind = .operator op) (hop : Level.ofOperator op = l) :
      Waits l (some (e, op)) (ts ++ [t])

theorem Level.Waits.derives {l : Level} (hl : l ≠ .operand) {waiting : Option (Expr × Operator)}
    {ts us : List Token} {e : Expr} (h : l.Waits waiting ts) (he : Derives l.tighter us e) :
    Derives l (ts ++ us) (join waiting e) := by
  cases h with
  | nothing => exact .tighter hl he
  | something hd ht hop =>
    subst hop
    rw [List.append_assoc]
    exact .chain hd ht he

namespace Pending

def conjunctionWaiting (p : Pending) : Option (Expr × Operator) := p.conjunction.map (·, .and)

theorem relational_eq (p : Pending) (e : Expr) : p.relational e = join p.relation e := by
  unfold relational join
  split <;> simp_all

theorem equal_eq (p : Pending) (e : Expr) : p.equal e = join p.equality e := by
  unfold equal join
  split <;> simp_all

theorem whole_eq (p : Pending) (e : Expr) :
    p.whole e = join p.conjunctionWaiting (join p.equality e) := by
  unfold whole conjunctionWaiting
  rw [equal_eq]
  cases p.conjunction <;> rfl

/-- The tokens of one group that a pending has in it, loosest level first. -/
def Spans (p : Pending) (ts : List Token) : Prop :=
  ∃ xs ys zs, ts = xs ++ ys ++ zs ∧ Level.conjunction.Waits p.conjunctionWaiting xs ∧
    Level.equality.Waits p.equality ys ∧ Level.relational.Waits p.relation zs

theorem spans_empty : Spans {} [] := ⟨[], [], [], rfl, .nothing, .nothing, .nothing⟩

end Pending

/-- The tokens of the groups that are open around the present one. -/
inductive Encloses : List Pending → List Token → Prop where
  | nil : Encloses [] []
  | cons {p : Pending} {outer : List Pending} {xs ys : List Token} {t : Token}
      (h : Encloses outer xs) (hp : p.Spans ys) (ht : t.kind = .leftParen) :
      Encloses (p :: outer) (xs ++ ys ++ [t])

/-- The tokens that have been read before the stage. -/
def Stage.Spans : Stage → List Token → Prop
  | operand p outer, ts => ∃ xs ys, ts = xs ++ ys ∧ Encloses outer xs ∧ p.Spans ys
  | operator e p outer, ts => ∃ xs ys zs, ts = xs ++ (ys ++ zs) ∧ Encloses outer xs ∧ p.Spans ys ∧
      p.relation = none ∧ Derives .relational zs e

/-- The relational expression of a stage together with what waits for it in its group. -/
theorem Pending.Spans.derives_equal {p : Pending} {ys zs : List Token} {e : Expr}
    (h : p.Spans ys) (hr : p.relation = none) (he : Derives .relational zs e) :
    ∃ us vs, ys ++ zs = us ++ vs ∧ Level.conjunction.Waits p.conjunctionWaiting us ∧
      Derives .equality vs (p.equal e) := by
  obtain ⟨xs, ys, ws, rfl, hc, hq, hw⟩ := h
  rw [hr] at hw
  cases hw
  refine ⟨xs, ys ++ zs, by simp, hc, ?_⟩
  rw [Pending.equal_eq]
  exact hq.derives (by simp) he

theorem Pending.Spans.derives_whole {p : Pending} {ys zs : List Token} {e : Expr}
    (h : p.Spans ys) (hr : p.relation = none) (he : Derives .relational zs e) :
    Derives .conjunction (ys ++ zs) (p.whole e) := by
  obtain ⟨us, vs, huv, hc, hv⟩ := h.derives_equal hr he
  rw [huv, Pending.whole_eq, ← Pending.equal_eq]
  exact hc.derives (by simp) hv

theorem Stage.spans_afterOperand {p : Pending} {outer : List Pending} {xs ys zs : List Token}
    {e : Expr} (ho : Encloses outer xs) (hp : p.Spans ys) (he : Derives .operand zs e) :
    (afterOperand p e outer).Spans (xs ++ ys ++ zs) := by
  obtain ⟨us, vs, ws, rfl, hc, hq, hw⟩ := hp
  refine ⟨xs, us ++ vs, ws ++ zs, by simp, ho, ⟨us, vs, [], by simp, hc, hq, .nothing⟩, rfl, ?_⟩
  rw [Pending.relational_eq]
  exact hw.derives (by simp) he

/-- What follows an operator waits for less on tighter levels and for `e` on its own. -/
theorem Pending.Spans.shift {p : Pending} {ys zs : List Token} {e : Expr} {op : Operator}
    {t : Token} (h : p.Spans ys) (hr : p.relation = none) (he : Derives .relational zs e)
    (ht : t.kind = .operator op) : (p.shift op e).Spans (ys ++ zs ++ [t]) := by
  unfold Pending.shift
  split
  next hop =>
    have hand : op = .and := by cases op <;> simp [Level.ofOperator] at hop ⊢
    subst hand
    have hd := h.derives_whole hr he
    exact ⟨ys ++ zs ++ [t], [], [], by simp, .something hd ht hop, .nothing, .nothing⟩
  next hop =>
    obtain ⟨us, vs, huv, hc, hv⟩ := h.derives_equal hr he
    exact ⟨us, vs ++ [t], [], by simp [huv], hc, .something hv ht hop, .nothing⟩
  next h₁ h₂ =>
    have hop : Level.ofOperator op = .relational := by
      cases op <;> simp [Level.ofOperator] at h₁ h₂ ⊢
    obtain ⟨us, vs, ws, rfl, hc, hq, hw⟩ := h
    rw [hr] at hw
    cases hw
    exact ⟨us, vs, zs ++ [t], by simp, hc, hq, .something he ht hop⟩

/-- A token extends what the stage has read. -/
theorem Takes.spans {s s' : Stage} {t : Token} {ts : List Token} (h : Takes s t s')
    (hs : s.Spans ts) : s'.Spans (ts ++ [t]) := by
  cases h with
  | opening ht =>
    obtain ⟨xs, ys, rfl, ho, hp⟩ := hs
    exact ⟨xs ++ ys ++ [t], [], by simp, .cons ho hp ht, Pending.spans_empty⟩
  | literal hl =>
    obtain ⟨xs, ys, rfl, ho, hp⟩ := hs
    exact Stage.spans_afterOperand ho hp (.literal hl)
  | operator ht =>
    obtain ⟨xs, ys, zs, rfl, ho, hp, hr, he⟩ := hs
    exact ⟨xs, ys ++ zs ++ [t], by simp, ho, hp.shift hr he ht⟩
  | closing ht =>
    obtain ⟨_, ys, zs, rfl, ho, hp, hr, he⟩ := hs
    cases ho with
    | @cons _ _ us vs left ho hq hl =>
      have hg := Derives.group hl ht (hp.derives_whole hr he)
      simpa using Stage.spans_afterOperand ho hq hg

theorem Reads.spans {s s' : Stage} {ts us : List Token} (h : Reads s us s') (hs : s.Spans ts) :
    s'.Spans (ts ++ us) := by
  induction h generalizing ts with
  | nil => simpa using hs
  | @cons _ _ _ t _ ht _ ih => simpa using ih (ht.spans hs)

/-- What is read to the end outside of all groups has a derivation. -/
theorem Reads.derives {ts : List Token} {e : Expr} {p : Pending}
    (h : Reads .start ts (.operator e p [])) : Derives .conjunction ts (p.whole e) := by
  have hs : Stage.start.Spans [] := ⟨[], [], rfl, .nil, Pending.spans_empty⟩
  obtain ⟨xs, ys, zs, hts, ho, hp, hr, he⟩ := h.spans hs
  cases ho
  rw [List.nil_append] at hts
  rw [hts]
  exact hp.derives_whole hr he

/-! ### Where a derivation leads -/

/-- Nothing waits on the level or on a tighter one. -/
def Pending.Free (p : Pending) : Level → Prop
  | .operand => True
  | .relational => p.relation = none
  | .equality => p.equality = none ∧ p.relation = none
  | .conjunction => p.conjunction = none ∧ p.equality = none ∧ p.relation = none

/-- Where the machine is behind an expression of the level with tree `e` that it began to read in
front of an operand with `p` waiting. -/
def Level.Lands (l : Level) (p : Pending) (outer : List Pending) (e : Expr) (s : Stage) : Prop :=
  match l with
  | .operand => s = .afterOperand p e outer
  | .relational => s = .operator e p outer
  | .equality => ∃ x q, s = .operator x q outer ∧ q.conjunction = p.conjunction ∧ q.equal x = e
  | .conjunction => ∃ x q, s = .operator x q outer ∧ q.whole x = e

section Landing

variable {p : Pending} {outer : List Pending} {e x y : Expr} {s s' : Stage} {op : Operator}
  {t : Token} {l : Level}

theorem Level.lands_of_tighter (hl : l ≠ .operand) (hp : p.Free l) (h : l.tighter.Lands p outer e s) :
    l.Lands p outer e s := by
  cases l with
  | operand => contradiction
  | relational =>
    subst h
    obtain ⟨c, q, r⟩ := p
    cases hp
    rfl
  | equality =>
    refine ⟨e, p, h, rfl, ?_⟩
    rw [Pending.equal_eq, hp.1]
    rfl
  | conjunction =>
    obtain ⟨x, q, rfl, hc, hx⟩ := h
    refine ⟨x, q, rfl, ?_⟩
    rw [← hx, Pending.whole, hc, hp.1]

theorem Pending.free_tighter (h : p.Free l) : p.Free l.tighter := by
  cases l with
  | operand => trivial
  | relational => trivial
  | equality => exact h.2
  | conjunction => exact h.2

/-- Behind a left operand comes its operator, and then the right operand lands where both do. -/
theorem Level.Lands.operator (h : (Level.ofOperator op).Lands p outer x s)
    (hp : p.Free (.ofOperator op)) (ht : t.kind = .operator op) :
    ∃ q, Takes s t (.operand q outer) ∧ q.Free (Level.ofOperator op).tighter ∧
      ∀ y s', (Level.ofOperator op).tighter.Lands q outer y s' →
        (Level.ofOperator op).Lands p outer (.binary op x y) s' := by
  match hop : Level.ofOperator op with
  | .operand => exact absurd hop (Level.ofOperator_ne_operand op)
  | .relational =>
    rw [hop] at h hp
    subst h
    refine ⟨p.shift op x, .operator ht, trivial, ?_⟩
    rintro y s' rfl
    obtain ⟨c, q, r⟩ := p
    cases hp
    simp [Level.Lands, Stage.afterOperand, Pending.shift, Pending.relational, hop]
  | .equality =>
    rw [hop] at h
    obtain ⟨z, q, rfl, hc, rfl⟩ := h
    refine ⟨q.shift op z, .operator ht, by simp [Pending.shift, Pending.Free, Level.tighter, hop], ?_⟩
    rintro y s' rfl
    exact ⟨y, q.shift op z, rfl, by simp [Pending.shift, hop, hc],
      by simp [Pending.shift, Pending.equal, hop]⟩
  | .conjunction =>
    have hand : op = .and := by cases op <;> simp [Level.ofOperator] at hop ⊢
    subst hand
    rw [hop] at h
    obtain ⟨z, q, rfl, rfl⟩ := h
    refine ⟨q.shift .and z, .operator ht, by simp [Pending.shift, Pending.Free, Level.tighter, hop], ?_⟩
    rintro y s' ⟨w, r, rfl, hc, rfl⟩
    refine ⟨w, r, rfl, ?_⟩
    rw [Pending.whole, hc]
    simp [Pending.shift, hop]

end Landing

/-- The machine reads what is derivable, wherever an operand is due and nothing waits on the level
of the derivation. -/
theorem Derives.reads {l : Level} {ts : List Token} {e : Expr} (h : Derives l ts e) (p : Pending)
    (outer : List Pending) (hp : p.Free l) :
    ∃ s, Reads (.operand p outer) ts s ∧ l.Lands p outer e s := by
  induction h generalizing p outer with
  | literal ht => exact ⟨_, .single (.literal ht), rfl⟩
  | @group left right ts e hl hr _ ih =>
    obtain ⟨_, hs, x, q, rfl, rfl⟩ := ih {} (p :: outer) ⟨rfl, rfl, rfl⟩
    exact ⟨_, .append (.cons (.opening hl) hs) (.single (.closing hr)), rfl⟩
  | tighter hl _ ih =>
    obtain ⟨s, hs, hland⟩ := ih p outer (Pending.free_tighter hp)
    exact ⟨s, hs, Level.lands_of_tighter hl hp hland⟩
  | chain _ ht _ ihx ihy =>
    obtain ⟨s, hs, hland⟩ := ihx p outer hp
    obtain ⟨q, htake, hq, hjoin⟩ := hland.operator hp ht
    obtain ⟨s', hs', hland'⟩ := ihy q outer hq
    exact ⟨s', .append hs (.cons htake hs'), hjoin _ _ hland'⟩

/-- The lists that are read to the end outside of all groups are the derivable ones. -/
theorem derives_iff_reads {ts : List Token} {e : Expr} :
    Derives .conjunction ts e ↔ ∃ x p, Reads .start ts (.operator x p []) ∧ p.whole x = e := by
  constructor
  · intro h
    obtain ⟨_, hs, x, q, rfl, hq⟩ := h.reads {} [] ⟨rfl, rfl, rfl⟩
    exact ⟨x, q, hs, hq⟩
  · rintro ⟨x, p, h, rfl⟩
    exact h.derives

/-! ### Derivations within limits -/

/-- In no place more than `depth` groups are open. -/
def NestsWithin (depth : Nat) (ts : List Token) : Prop :=
  ∀ us, us <+: ts → us.countP Token.isLeft ≤ us.countP Token.isRight + depth

theorem nestsWithin_append_singleton {depth : Nat} {ts : List Token} {t : Token} :
    NestsWithin depth (ts ++ [t]) ↔ NestsWithin depth ts ∧
      (ts ++ [t]).countP Token.isLeft ≤ (ts ++ [t]).countP Token.isRight + depth := by
  constructor
  · intro h
    exact ⟨fun us hu => h us (hu.trans (List.prefix_append _ _)), h _ (List.prefix_refl _)⟩
  · rintro ⟨h, hlast⟩ us hu
    rcases List.prefix_concat_iff.mp hu with rfl | hu
    · exact hlast
    · exact h us hu

/-- On tokens that can be read the limits bound nesting and number of operators. -/
theorem Reads.admitsAll_iff {ts : List Token} {s : Stage} {limits : Limits}
    (h : Reads .start ts s) : limits.AdmitsAll {} ts ↔
      NestsWithin limits.depth ts ∧ ts.countP Token.isOperator ≤ limits.operators := by
  induction ts using List.reverseRecOn generalizing s with
  | nil => simp [Limits.AdmitsAll, NestsWithin]
  | append_singleton ts t ih =>
    obtain ⟨s', hr, hs⟩ := h.split
    rw [Limits.admitsAll_append, nestsWithin_append_singleton, ih hr]
    simp only [Limits.AdmitsAll, and_true, hr.admits_iff, List.countP_append, List.countP_cons,
      List.countP_nil]
    have hlr : t.isLeft → ¬ t.isRight := by
      rw [Token.isLeft_iff, Token.isRight_iff]
      rintro hk hk'
      simp [hk] at hk'
    constructor
    · rintro ⟨⟨hn, ho⟩, hleft, hop⟩
      have hlast := hn ts (List.prefix_refl _)
      refine ⟨⟨hn, ?_⟩, ?_⟩
      · by_cases hl : t.isLeft
        · have hlt := hleft hl
          rw [if_pos hl]
          omega
        · rw [if_neg hl]
          omega
      · by_cases h : t.isOperator
        · have hlt := hop h
          rw [if_pos h]
          omega
        · rw [if_neg h]
          omega
    · rintro ⟨⟨hn, hlast⟩, ho⟩
      refine ⟨⟨hn, by omega⟩, fun hl => ?_, fun h => ?_⟩
      · rw [if_pos hl, if_neg (hlr hl)] at hlast
        omega
      · rw [if_pos h] at ho
        omega

theorem parseTokens_eq_ok_iff {ts : List Token} {limits : Limits} {e : Expr} :
    parseTokens ts limits = .ok e ↔ Derives .conjunction ts e ∧ NestsWithin limits.depth ts ∧
      ts.countP Token.isOperator ≤ limits.operators := by
  rw [parseTokens_eq_ok, derives_iff_reads]
  constructor
  · rintro ⟨x, p, hr, hx, ha⟩
    exact ⟨⟨x, p, hr, hx⟩, hr.admitsAll_iff.mp ha⟩
  · rintro ⟨⟨x, p, hr, hx⟩, hl⟩
    exact ⟨x, p, hr, hx, hr.admitsAll_iff.mpr hl⟩

theorem Derives.unique {ts : List Token} {x y : Expr} (hx : Derives .conjunction ts x)
    (hy : Derives .conjunction ts y) : x = y := by
  obtain ⟨x', p, hrx, rfl⟩ := derives_iff_reads.mp hx
  obtain ⟨y', q, hry, rfl⟩ := derives_iff_reads.mp hy
  cases hrx.unique hry
  rfl

/-- A fresh parser accepts the derivable lists within its limits, with the tree of the derivation,
and no list derives two trees. Every level of a derivation but the last repeats the next one and
folds the tree to the left. -/
theorem parseTokens_eq_ok_iff_derives (ts : List Token) (limits : Limits) (e : Expr) :
    (parseTokens ts limits = .ok e ↔ Derives .conjunction ts e ∧ NestsWithin limits.depth ts ∧
      ts.countP Token.isOperator ≤ limits.operators) ∧
    {x | Derives .conjunction ts x}.Subsingleton ∧
    ∀ us x, (Derives .conjunction us x ↔ Level.conjunction.Repeats us x) ∧
      (Derives .equality us x ↔ Level.equality.Repeats us x) ∧
      (Derives .relational us x ↔ Level.relational.Repeats us x) :=
  ⟨parseTokens_eq_ok_iff, fun _ hx _ hy => hx.unique hy, fun _ _ =>
    ⟨derives_iff_repeats (by decide), derives_iff_repeats (by decide),
      derives_iff_repeats (by decide)⟩⟩

end FilterLang
