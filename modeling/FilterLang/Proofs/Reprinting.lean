import FilterLang.Proofs.Verdicts

/-! Reading a printed tree again, under any pattern. A tree that comes from a text has no more
operations than were accepted, so its printed form can only be refused for the depth of its groups or
because it is not cut into the tokens of the tree. Other tokens never derive the tree: its literals
stand between parentheses and operators, and a name that has taken a parenthesis leaves one over.
Under the default pattern the form is cut as it should be unless a number is infinite. -/
namespace FilterLang

/-! ### Text that repeats itself -/

/-- A word that stands in a text again behind `w` is made of the characters of `w`. -/
theorem forall_mem_of_shifted {q : Char → Prop} {w x r t : List Char} (hne : w ≠ [])
    (hw : ∀ c ∈ w, q c) (h : x ++ r = w ++ (x ++ t)) : ∀ c ∈ x, q c := by
  induction hn : x.length using Nat.strongRecOn generalizing x r with
  | ind n ih =>
    subst hn
    rcases List.append_eq_append_iff.mp h with ⟨a, rfl, -⟩ | ⟨b, rfl, hb⟩
    · exact fun c hc => hw c (by simp [hc])
    · have hlt : b.length < (w ++ b).length := by
        have := List.length_pos_iff.mpr hne
        rw [List.length_append]
        omega
      have hb' := ih _ hlt (hb.symm.trans (List.append_assoc w b t)) rfl
      intro c hc
      rcases List.mem_append.mp hc with hc | hc
      · exact hw c hc
      · exact hb' c hc

/-- What a group may begin with: opening parentheses and blanks. -/
def Text.opens (c : Char) : Bool := c == '(' || isBlank c

theorem Text.not_opens_of_isDigit {c : Char} (h : c.isDigit) : opens c = false := by
  rw [opens, not_isBlank_of_isDigit h, Bool.or_false]
  refine beq_eq_false_iff_ne.mpr ?_
  rintro rfl
  contradiction

/-- What stands behind an operand in a printed tree. -/
inductive Trails : List Char → Prop where
  | nothing : Trails []
  | closing (rest : List Char) : Trails (')' :: rest)
  | operator (op : Operator) (rest : List Char) :
      Trails (' ' :: (op.symbol.toList ++ ' ' :: rest))

namespace Trails

variable {rest : List Char}

theorem closed (h : Trails rest) : Closed rest := by
  cases h with
  | nothing => rintro c ⟨⟩
  | closing => rintro c ⟨⟩; exact .inr rfl
  | operator => rintro c ⟨⟩; exact .inl rfl

/-- Behind an operand nothing opens a group, and at most one blank comes first. -/
theorem takeWhile_opens (h : Trails rest) :
    rest.takeWhile Text.opens = [] ∨ rest.takeWhile Text.opens = [' '] := by
  cases h with
  | nothing => exact .inl rfl
  | closing => exact .inl rfl
  | operator op => cases op <;> exact .inr rfl

end Trails

/-- The word does not stand again behind what may open a group: behind the first one only a blank
could, and the word is not blank. -/
theorem eq_nil_of_opens {a x rest tail : List Char}
    (hx : ∃ c ∈ x.head?, Text.isBlank c = false) (ha : ∀ c ∈ a, Text.opens c)
    (hrest : Trails rest) (h : x ++ rest = a ++ (x ++ tail)) : a = [] := by
  by_contra hne
  have hall := forall_mem_of_shifted hne ha h
  have htake := congrArg (List.takeWhile Text.opens) h
  rw [List.takeWhile_append_of_pos hall, List.takeWhile_append_of_pos ha,
    List.takeWhile_append_of_pos hall] at htake
  have hlength := congrArg List.length htake
  have hpos := List.length_pos_iff.mpr hne
  rw [List.length_append, List.length_append, List.length_append] at hlength
  rcases hrest.takeWhile_opens with hnone | hblank
  · rw [hnone, List.length_nil] at hlength
    omega
  · -- One character moves the word along, so the word is that character over and over.
    rw [hblank, List.length_singleton] at hlength
    obtain ⟨c, rfl⟩ := List.length_eq_one_iff.mp (show a.length = 1 by omega)
    have hnil : tail.takeWhile Text.opens = [] := List.eq_nil_of_length_eq_zero (by
      rw [List.length_singleton] at hlength
      omega)
    rw [hblank, hnil] at htake
    have hsame := forall_mem_of_shifted (q := (· = c)) hne (by simp) htake
    have hspace : ' ' = c := by
      have hmem : ' ' ∈ x ++ [' '] := by simp
      rw [htake] at hmem
      rcases List.mem_cons.mp hmem with heq | hmem
      · exact heq
      · exact hsame _ (by simpa using hmem)
    obtain ⟨d, hd, hnot⟩ := hx
    rw [hsame d (List.mem_of_mem_head? hd), ← hspace] at hnot
    contradiction

/-- Parentheses in front of a word that begins with them as well are left over behind it. -/
theorem eq_nil_of_parens {b x rest tail : List Char} (hb : ∀ c ∈ b, c = '(')
    (htail : (tail.dropWhile Text.isBlank).head? ≠ some '(') (h : x ++ tail = b ++ (x ++ rest)) :
    b = [] := by
  by_contra hne
  have hall := forall_mem_of_shifted hne hb h
  have hcomm : b ++ x = x ++ b := by
    rw [List.eq_replicate_of_mem hb, List.eq_replicate_of_mem hall,
      List.replicate_append_replicate, List.replicate_append_replicate, Nat.add_comm]
  rw [← List.append_assoc, hcomm, List.append_assoc] at h
  obtain rfl := List.append_cancel_left h
  obtain ⟨c, b, rfl⟩ := List.exists_cons_of_ne_nil hne
  obtain rfl := hb c (by simp)
  exact htail rfl

/-- Where the same word stands behind parentheses and, in another reading of the text, behind
parentheses and blanks, both readings are the same. In the other reading no parenthesis is left
over. -/
theorem eq_replicate_of_append_eq {m : Nat} {w x rest tail : List Char}
    (hx : ∃ c ∈ x.head?, Text.isBlank c = false) (hw : ∀ c ∈ w, Text.opens c)
    (hrest : Trails rest) (htail : (tail.dropWhile Text.isBlank).head? ≠ some '(')
    (h : List.replicate m '(' ++ (x ++ rest) = w ++ (x ++ tail)) : w = List.replicate m '(' := by
  rcases List.append_eq_append_iff.mp h with ⟨a, rfl, ha⟩ | ⟨b, hb, hb'⟩
  · rw [eq_nil_of_opens hx (fun c hc => hw c (by simp [hc])) hrest ha, List.append_nil]
  · have hparens : ∀ c ∈ b, c = '(' := by
      intro c hc
      apply List.eq_of_mem_replicate (n := m)
      rw [hb]
      exact List.mem_append_right w hc
    rw [hb, eq_nil_of_parens hparens htail hb', List.append_nil]

/-- A text is split in one way only before its first character that does not open a group. -/
theorem eq_of_opens_append_eq {w w' x x' : List Char} (hw : ∀ c ∈ w, Text.opens c)
    (hw' : ∀ c ∈ w', Text.opens c) (hx : ∃ c ∈ x.head?, Text.opens c = false)
    (hx' : ∃ c ∈ x'.head?, Text.opens c = false) (h : w ++ x = w' ++ x') : w = w' ∧ x = x' := by
  have hfront : ∀ {x : List Char}, (∃ c ∈ x.head?, Text.opens c = false) →
      x.takeWhile Text.opens = [] := by
    rintro x ⟨c, hc, hopen⟩
    obtain ⟨cs, rfl⟩ := List.head?_eq_some_iff.mp hc
    simp [hopen]
  have htake := congrArg (List.takeWhile Text.opens) h
  rw [List.takeWhile_append_of_pos hw, List.takeWhile_append_of_pos hw', hfront hx, hfront hx',
    List.append_nil, List.append_nil] at htake
  subst htake
  exact ⟨rfl, List.append_cancel_left h⟩

/-! ### Literals of a text -/

/-- What a text denotes under any pattern: numbers without a sign, strings without a quote, names
that do not begin with a blank. -/
def Literal.Written : Literal → Prop
  | number x => ∃ m, x = .signed false m
  | string s => '"' ∉ s.toList
  | boolean _ => True
  | var name => ∃ c ∈ name.toList.head?, Text.isBlank c = false

namespace Literal

variable {k l : Literal}

theorem Written.equals_iff (hk : k.Written) (hl : l.Written) : k.equals l ↔ k = l := by
  cases k with
  | number x =>
    cases l with
    | number y =>
      obtain ⟨m, rfl⟩ := hk
      obtain ⟨n, rfl⟩ := hl
      simp [equals, Binary64.equals, Fin.ext_iff]
    | _ => simp [equals]
  | _ => cases l <;> simp [equals]

/-- The text of a literal has no blanks at its ends, unless it is a name. -/
theorem Written.tight (h : l.Written) (hname : ∀ name, l ≠ .var name) :
    Text.Tight l.display.toList := by
  apply tight_display
  cases l with
  | var name => exact absurd rfl (hname name)
  | string text => exact h
  | number | boolean => trivial

/-- The text of a literal does not begin with a blank. -/
theorem Written.head (h : l.Written) : ∃ c ∈ l.display.toList.head?, Text.isBlank c = false := by
  cases l with
  | var name => exact h
  | _ => exact (h.tight (by simp)).first

/-- The literal is printed behind parentheses where a token of the literal stands behind what may open
a group. Then both stand at the same place, with the same text behind them. -/
theorem Written.eq_of_lexeme {m : Nat} {w lexeme rest tail : List Char} (h : l.Written)
    (hfinite : ∀ x, l = .number x → x.isFinite) (hw : ∀ c ∈ w, Text.opens c) (hrest : Trails rest)
    (htail : (tail.dropWhile Text.isBlank).head? ≠ some '(')
    (hlexeme : lexeme = l.display.toList ∨
      ∃ x, l = .number x ∧ Lexeme.LongestNumeral (lexeme ++ tail) lexeme)
    (heq : List.replicate m '(' ++ (l.display.toList ++ rest) = w ++ (lexeme ++ tail)) :
    w = List.replicate m '(' ∧ tail = rest := by
  rcases hlexeme with rfl | ⟨y, rfl, hnumeral⟩
  · have hparens := eq_replicate_of_append_eq h.head hw hrest htail heq
    rw [hparens] at heq
    exact ⟨hparens, (List.append_cancel_left (List.append_cancel_left heq)).symm⟩
  · -- Numerals begin with a digit and go on as long as they can, so both are the same.
    obtain ⟨n, rfl⟩ := h
    obtain ⟨whole, fraction, hplain, -⟩ := Binary64.displayChars_plain (hfinite _ rfl)
    have hdigit : ∀ {u tail : List Char}, Lexeme.IsNumeral u →
        ∃ c ∈ (u ++ tail).head?, Text.opens c = false := by
      rintro u tail ⟨_, _, hu⟩
      obtain ⟨c, cs, rfl, hc⟩ := hu.head_isDigit
      exact ⟨c, rfl, Text.not_opens_of_isDigit hc⟩
    rw [display, Binary64.display, String.toList_ofList] at heq
    obtain ⟨hparens, hsplit⟩ := eq_of_opens_append_eq (by simp [Text.opens]) hw
      (hdigit ⟨_, _, hplain⟩) (hdigit hnumeral.numeral) heq
    have hlength := Lexeme.number_eq_some hnumeral
    rw [← hsplit, hplain.number_append hrest.closed] at hlength
    exact ⟨hparens.symm, (List.append_inj_right hsplit (Option.some.inj hlength)).symm⟩

end Literal

theorem Expr.equals_iff_of_written {e e' : Expr} (h : ∀ l ∈ e.literals, l.Written)
    (h' : ∀ l ∈ e'.literals, l.Written) : e'.equals e ↔ e' = e := by
  induction e generalizing e' with
  | literal l =>
    cases e' with
    | literal k =>
      simp only [equals, literal.injEq]
      exact (h' k (by simp [literals])).equals_iff (h l (by simp [literals]))
    | binary => simp [equals]
  | binary op x y ihx ihy =>
    cases e' with
    | literal k => simp [equals]
    | binary op' x' y' =>
      have hx : x'.equals x ↔ x' = x := ihx (fun l hl => h l (by simp [literals, hl]))
        (fun l hl => h' l (by simp [literals, hl]))
      have hy : y'.equals y ↔ y' = y := ihy (fun l hl => h l (by simp [literals, hl]))
        (fun l hl => h' l (by simp [literals, hl]))
      simp [equals, hx, hy, and_assoc]

namespace TokenStream

variable {s s' : TokenStream} {t : Token} {ts : List Token} {l : Literal}

/-- A pulled token that stands for a literal has the text of the literal as its lexeme, or is the
longest numeral of a number. -/
theorem lexeme_of_next (h : s.next = (.ok (some t), s')) (hl : Literal.ofToken? t = some l) :
    l.Written ∧ (t.lexeme.toList = l.display.toList ∨
      ∃ x, l = .number x ∧ Lexeme.LongestNumeral s.skipBlanks.rest t.lexeme.toList) := by
  obtain ⟨-, hfront, hext, -⟩ := applies_of_next h
  obtain ⟨blanks, hfinds⟩ := exists_finds h
  have hkind := Literal.kind_of_ofToken? hl
  cases l with
  | number x =>
    rw [hkind] at hext
    obtain ⟨l', hl', hsign⟩ := (Yields.single h).literal t (by simp) _ hkind
    cases hl.symm.trans hl'
    exact ⟨hsign x rfl, .inr ⟨x, rfl, hext⟩⟩
  | string text =>
    rw [hkind] at hext
    obtain ⟨u, hu, hquote⟩ := hext
    have htext : t.text = text := by
      rw [Literal.ofToken?, hkind] at hl
      cases hl
      rfl
    have hlexeme : t.lexeme.toList = (Literal.string text).display.toList := by
      rw [Token.lexeme, hkind, htext]
      rfl
    rw [hlexeme, Literal.toList_display_string] at hu
    obtain rfl : text.toList = u := List.append_cancel_right (List.cons.inj hu).2
    exact ⟨hquote, .inl hlexeme⟩
  | boolean b =>
    rw [hkind] at hext
    have hlexeme := Token.lexeme_of_ne (t := t) (by simp [hkind, Literal.kind])
    rw [Literal.ofToken?, hkind] at hl
    refine ⟨trivial, .inl ?_⟩
    rw [hlexeme] at hext ⊢
    rcases hext with htrue | hfalse
    · obtain htext : t.text = "true" := String.toList_inj.mp htrue
      rw [htext] at hl ⊢
      cases hl
      rfl
    · obtain htext : t.text = "false" := String.toList_inj.mp hfalse
      rw [htext] at hl ⊢
      cases hl
      rfl
  | var name =>
    have hlexeme := Token.lexeme_of_ne (t := t) (by simp [hkind, Literal.kind])
    rw [Literal.ofToken?, hkind] at hl
    obtain rfl : t.text = name := by
      cases hl
      rfl
    have hne := hfinds.lexeme
    rw [hlexeme] at hfront hne ⊢
    obtain ⟨c, cs, hname⟩ := List.exists_cons_of_ne_nil hne
    obtain ⟨rest, hrest⟩ := hfront
    refine ⟨⟨c, by rw [hname]; rfl, s.skipBlanks_head c ?_⟩, .inl rfl⟩
    rw [← hrest, hname]
    rfl

theorem Yields.written (h : s.Yields ts s') :
    ∀ t ∈ ts, ∀ l, Literal.ofToken? t = some l → l.Written := by
  induction h with
  | nil => simp
  | cons hn _ ih =>
    refine List.forall_mem_cons.mpr ⟨fun l hl => ?_, ih⟩
    exact (lexeme_of_next hn hl).1

end TokenStream

/-- What a parsed text denotes can be written, whatever the pattern. -/
theorem Settings.written_of_parse {s : Settings} {text : String} {e : Expr}
    (h : s.parse text = .ok e) : ∀ l ∈ e.literals, l.Written := by
  obtain ⟨ts, s', hy, htokens⟩ := exists_yields_of_parse h
  intro l hl
  obtain ⟨t, ht, htl⟩ := htokens l hl
  exact hy.written t ht l htl

/-! ### Operands in a stream -/

/-- An operator does not begin with a parenthesis. -/
theorem Operator.head_of_standsAt {op : Operator} {r : List Char} (h : op.StandsAt r) :
    ∃ c ∈ r.head?, c ≠ '(' ∧ c ≠ ')' := by
  cases op with
  | and =>
    rcases h with ⟨rest, rfl, -⟩ | ⟨rest, rfl, -⟩
    all_goals exact ⟨_, rfl, by decide, by decide⟩
  | lt | gt =>
    obtain ⟨⟨rest, rfl⟩, -⟩ := h
    exact ⟨_, rfl, by decide, by decide⟩
  | _ =>
    obtain ⟨rest, rfl⟩ := h
    exact ⟨_, rfl, by decide, by decide⟩

/-- Where an operand is due, opening parentheses lead to the token of its first literal. -/
theorem Reads.exists_operand {ts : List Token} {p q : Pending} {outer : List Pending} {x : Expr}
    (h : Reads (.operand p outer) ts (.operator x q [])) :
    ∃ lefts t us l e p' outer', ts = lefts ++ t :: us ∧ (∀ u ∈ lefts, u.kind = .leftParen) ∧
      Literal.ofToken? t = some l ∧ Reads (.operator e p' outer') us (.operator x q []) := by
  induction ts generalizing p outer with
  | nil => cases h
  | cons t ts ih =>
    cases h with
    | cons ht hr =>
      cases ht with
      | opening hk =>
        obtain ⟨lefts, u, us, l, e, p', outer', rfl, hlefts, hl, hus⟩ := ih hr
        exact ⟨t :: lefts, u, us, l, e, p', outer', rfl, List.forall_mem_cons.mpr ⟨hk, hlefts⟩,
          hl, hus⟩
      | @literal _ _ _ l hl => exact ⟨[], t, ts, l, _, _, _, rfl, by simp, hl, hr⟩

namespace TokenStream

variable {s s' : TokenStream} {t : Token} {ts : List Token} {l : Literal} {p : Pending}
  {outer : List Pending} {fin : Stage}

theorem Yields.split {us : List Token} (h : s.Yields (ts ++ us) s') :
    ∃ s₁, s.Yields ts s₁ ∧ s₁.Yields us s' := by
  induction ts generalizing s with
  | nil => exact ⟨s, .nil, h⟩
  | cons t ts ih =>
    cases h with
    | cons hn h =>
      obtain ⟨s₁, h₁, h₂⟩ := ih h
      exact ⟨s₁, .cons hn h₁, h₂⟩

/-- A pulled token stands behind the blanks. -/
theorem skipBlanks_of_next (h : s.next = (.ok (some t), s')) :
    s.skipBlanks.rest = t.lexeme.toList ++ s'.rest := by
  obtain ⟨k, n, hc, -, rfl, rfl⟩ := exists_of_next h
  rw [Token.lexeme_ofLexeme (classify_fits hc)]
  exact (List.take_append_drop n _).symm

theorem skipBlanks_of_left (h : s.next = (.ok (some t), s')) (ht : t.kind = .leftParen) :
    s.skipBlanks.rest = '(' :: s'.rest := by
  obtain ⟨-, -, hext, -⟩ := applies_of_next h
  rw [ht] at hext
  rw [skipBlanks_of_next h, show t.lexeme.toList = ['('] from hext]
  rfl

/-- Tokens of opening parentheses stand for parentheses with blanks between them. -/
theorem Yields.opens (h : s.Yields ts s') (ht : ∀ t ∈ ts, t.kind = .leftParen) :
    ∃ w, s.skipBlanks.rest = w ++ s'.skipBlanks.rest ∧ (∀ c ∈ w, Text.opens c) ∧
      (ts = [] ↔ w = []) := by
  induction h with
  | nil => exact ⟨[], rfl, by simp, by simp⟩
  | @cons s s₁ _ t ts hn _ ih =>
    obtain ⟨hleft, hlefts⟩ := List.forall_mem_cons.mp ht
    obtain ⟨w, hw, hopens, -⟩ := ih hlefts
    refine ⟨'(' :: (s₁.rest.takeWhile Text.isBlank ++ w), ?_, ?_, by simp⟩
    · rw [skipBlanks_of_left hn hleft, List.cons_append, List.append_assoc, ← hw, skipBlanks_rest,
        List.takeWhile_append_dropWhile]
    · refine List.forall_mem_cons.mpr ⟨rfl, fun c hc => ?_⟩
      rcases List.mem_append.mp hc with hc | hc
      · simp [Text.opens, List.mem_takeWhile_imp hc]
      · exact hopens c hc

/-- The stream yields the tokens up to its end, and the machine goes through them from the stage to
the end of the expression. -/
structure Accepts (s : TokenStream) (st : Stage) (ts : List Token) : Prop where
  yields : ∃ s', s.Yields ts s' ∧ s'.next.1 = .ok none
  reads : ∃ x q, Reads st ts (.operator x q [])

namespace Accepts

variable {st : Stage} {e : Expr} {m : Nat} {rest : List Char} {ls : List Literal}

theorem tail (h : s.Accepts st (t :: ts)) :
    ∃ s₁ st₁, s.next = (.ok (some t), s₁) ∧ Takes st t st₁ ∧ s₁.Accepts st₁ ts := by
  obtain ⟨⟨s', hy, hend⟩, x, q, hr⟩ := h
  cases hy with
  | cons hn hy =>
    cases hr with
    | cons ht hr => exact ⟨_, _, hn, ht, ⟨_, hy, hend⟩, _, _, hr⟩

/-- Behind blanks there is a token. -/
theorem exists_cons (h : s.Accepts st ts) (hne : s.skipBlanks.rest ≠ []) :
    ∃ t us, ts = t :: us := by
  obtain ⟨⟨s', hy, hend⟩, -⟩ := h
  cases hy with
  | nil =>
    rw [skipBlanks_rest] at hne
    exact absurd (List.dropWhile_eq_nil_iff.mpr (isBlank_of_end hend)) hne
  | cons => exact ⟨_, _, rfl⟩

/-- Behind an operand the text does not go on with an opening parenthesis. -/
theorem not_opening (h : s.Accepts (.operator e p outer) ts) :
    s.skipBlanks.rest.head? ≠ some '(' := by
  intro hhead
  obtain ⟨rest, hrest⟩ := List.head?_eq_some_iff.mp hhead
  obtain ⟨t, us, rfl⟩ := h.exists_cons (by simp [hrest])
  obtain ⟨s₁, st₁, hn, ht, -⟩ := h.tail
  obtain ⟨hk, -⟩ := applies_of_next hn
  rw [hrest] at hk
  cases ht with
  | operator hop =>
    obtain ⟨c, hc, hopen, -⟩ := Operator.head_of_standsAt ((hk _).mp hop)
    cases hc
    exact hopen rfl
  | closing hright =>
    obtain ⟨-, _, hfront⟩ := (hk _).mp hright
    cases hfront

/-- Where the first literal of an operand stands behind `m` parentheses, there are tokens of
parentheses and then the token of the literal, with the same text behind it. -/
theorem exists_literal (h : s.Accepts (.operand p outer) ts)
    (hl : ts.filterMap Literal.ofToken? = l :: ls) (hfinite : ∀ x, l = .number x → x.isFinite)
    (hrest : Trails rest)
    (hs : s.skipBlanks.rest = List.replicate m '(' ++ (l.display.toList ++ rest)) :
    ∃ lefts t us s₁ s₂, ts = lefts ++ t :: us ∧ (∀ u ∈ lefts, u.kind = .leftParen) ∧
      (lefts = [] ↔ m = 0) ∧ Literal.ofToken? t = some l ∧ s.Yields lefts s₁ ∧
      s₁.next = (.ok (some t), s₂) ∧ s₂.rest = rest := by
  obtain ⟨⟨s', hy, hend⟩, x, q, hr⟩ := h
  obtain ⟨lefts, t, us, l', e, p', outer', rfl, hlefts, ht, hus⟩ := hr.exists_operand
  have hnone : lefts.filterMap Literal.ofToken? = [] := by
    refine List.filterMap_eq_nil_iff.mpr fun u hu => Literal.ofToken?_eq_none ?_
    simp [hlefts u hu]
  rw [List.filterMap_append, hnone, List.nil_append, List.filterMap_cons, ht] at hl
  cases hl
  obtain ⟨s₁, hy₁, hy₂⟩ := hy.split
  cases hy₂ with
  | @cons _ s₂ _ _ _ hn hy₂ =>
    obtain ⟨w, hw, hopens, hnil⟩ := hy₁.opens hlefts
    have hfront := skipBlanks_of_next hn
    have htail := not_opening ⟨⟨s', hy₂, hend⟩, x, q, hus⟩
    rw [hfront, hs] at hw
    rw [skipBlanks_rest] at htail
    obtain ⟨hwritten, hlexeme⟩ := lexeme_of_next hn ht
    rw [hfront] at hlexeme
    obtain ⟨hparens, hback⟩ := hwritten.eq_of_lexeme hfinite hopens hrest htail hlexeme hw
    refine ⟨lefts, t, us, s₁, s₂, rfl, hlefts, ?_, ht, hy₁, hn, hback⟩
    rw [hnil, hparens]
    simp

/-- A literal at the front is the first token. -/
theorem literal (h : s.Accepts (.operand p outer) ts)
    (hl : ts.filterMap Literal.ofToken? = l :: ls) (hfinite : ∀ x, l = .number x → x.isFinite)
    (hrest : Trails rest) (hs : s.skipBlanks.rest = l.display.toList ++ rest) :
    ∃ (t : Token) (us : List Token) (s₁ : TokenStream), ts = t :: us ∧ Literal.ofToken? t = some l ∧
      s₁.Accepts (.afterOperand p (.literal l) outer) us ∧ s₁.rest = rest := by
  obtain ⟨lefts, t, us, s₁, s₂, rfl, -, hnil, ht, hy, hn, hback⟩ :=
    h.exists_literal hl hfinite hrest (m := 0) hs
  obtain rfl := hnil.mpr rfl
  cases hy
  obtain ⟨s₃, st, hn', htake, hrest⟩ := h.tail
  cases hn.symm.trans hn'
  cases htake.unique (.literal ht)
  exact ⟨t, us, s₂, rfl, ht, hrest, hback⟩

/-- A parenthesis in front of the first literal is the first token. -/
theorem opening (h : s.Accepts (.operand p outer) ts)
    (hl : ts.filterMap Literal.ofToken? = l :: ls) (hfinite : ∀ x, l = .number x → x.isFinite)
    (hrest : Trails rest)
    (hs : s.skipBlanks.rest = '(' :: (List.replicate m '(' ++ (l.display.toList ++ rest))) :
    ∃ (t : Token) (us : List Token) (s₁ : TokenStream), ts = t :: us ∧ t.kind = .leftParen ∧
      s₁.Accepts (.operand {} (p :: outer)) us ∧
      s₁.rest = List.replicate m '(' ++ (l.display.toList ++ rest) := by
  obtain ⟨lefts, t, us, -, -, rfl, hlefts, hnil, -⟩ :=
    h.exists_literal hl hfinite hrest (m := m + 1) hs
  obtain ⟨left, lefts, rfl⟩ := List.exists_cons_of_ne_nil (mt hnil.mp (by simp))
  have hleft := hlefts left (by simp)
  obtain ⟨s₁, st, hn, htake, hback⟩ := h.tail
  cases htake.unique (.opening hleft)
  have hfront := skipBlanks_of_left hn hleft
  rw [hs] at hfront
  exact ⟨left, _, s₁, rfl, hleft, hback, (List.cons.inj hfront).2.symm⟩

/-- Behind an operand an operator with a space behind it is the next token. -/
theorem operator {op : Operator} (h : s.Accepts (.operator e p outer) ts)
    (hs : s.skipBlanks.rest = op.symbol.toList ++ ' ' :: rest) :
    ∃ (t : Token) (us : List Token) (s₁ : TokenStream), ts = t :: us ∧ t.kind = .operator op ∧
      s₁.Accepts (.operand (p.shift op e) outer) us ∧ s₁.rest = ' ' :: rest := by
  obtain ⟨t, us, rfl⟩ := h.exists_cons (by simp [hs])
  obtain ⟨s₁, st, hn, htake, hback⟩ := h.tail
  have hn' := next_of_front hs (classify_operator op)
  rw [hn'] at hn
  cases hn
  cases htake.unique (.operator rfl)
  exact ⟨_, us, _, rfl, rfl, hback, rfl⟩

/-- Behind an operand a closing parenthesis is the next token. -/
theorem closing (h : s.Accepts (.operator e p outer) ts) (hs : s.skipBlanks.rest = ')' :: rest) :
    ∃ (t : Token) (us : List Token) (s₁ : TokenStream) (e' : Expr) (p' : Pending)
      (outer' : List Pending), ts = t :: us ∧ t.kind = .rightParen ∧
      s₁.Accepts (.operator e' p' outer') us ∧ s₁.rest = rest := by
  obtain ⟨t, us, rfl⟩ := h.exists_cons (by simp [hs])
  obtain ⟨s₁, st, hn, htake, hback⟩ := h.tail
  obtain ⟨hk, -, hext, -⟩ := applies_of_next hn
  cases htake with
  | operator hop =>
    have hstands := (hk _).mp hop
    rw [hs] at hstands
    obtain ⟨c, hc, -, hclose⟩ := Operator.head_of_standsAt hstands
    cases hc
    contradiction
  | closing hright =>
    have hfront := skipBlanks_of_next hn
    rw [hright] at hext
    rw [show t.lexeme.toList = [')'] from hext, hs] at hfront
    exact ⟨t, us, s₁, _, _, _, rfl, hright, hback, (List.cons.inj hfront).2.symm⟩

end Accepts

end TokenStream

/-! ### A printed tree in a stream -/

namespace Expr

/-- A printed tree begins with parentheses and its first literal. -/
theorem exists_leading (e : Expr) {rest : List Char} (hrest : Trails rest) :
    ∃ m l ls back, e.literals = l :: ls ∧ Trails back ∧
      e.chars ++ rest = List.replicate m '(' ++ (l.display.toList ++ back) := by
  induction e generalizing rest with
  | literal l => exact ⟨0, l, [], rest, rfl, hrest, rfl⟩
  | binary op x y ihx _ =>
    obtain ⟨m, l, ls, back, hl, hback, hx⟩ := ihx (.operator op (y.chars ++ ')' :: rest))
    refine ⟨m + 1, l, ls ++ y.literals, back, by simp [literals, hl], hback, ?_⟩
    rw [List.replicate_succ, List.cons_append, ← hx]
    simp [chars]

theorem chars_head {e : Expr} (h : ∀ l ∈ e.literals, l.Written) (rest : List Char) :
    ∀ c ∈ (e.chars ++ rest).head?, Text.isBlank c = false := by
  cases e with
  | literal l =>
    obtain ⟨c, hc, hblank⟩ := (h l (by simp [literals])).head
    obtain ⟨cs, hcs⟩ := List.head?_eq_some_iff.mp hc
    simp [chars, hcs, hblank]
  | binary =>
    rintro c ⟨⟩
    rfl

end Expr

open TokenStream

/-- Where the tree is printed, the tokens of an accepted text with the literals of the tree begin with
those of the tree. -/
theorem TokenStream.Accepts.exists_printed {e : Expr} {s : TokenStream} {ts : List Token}
    {p : Pending} {outer : List Pending} {rest : List Char} {ls : List Literal}
    (h : s.Accepts (.operand p outer) ts) (hl : ts.filterMap Literal.ofToken? = e.literals ++ ls)
    (hwritten : ∀ l ∈ e.literals, l.Written) (hfinite : ∀ x, .number x ∈ e.literals → x.isFinite)
    (hrest : Trails rest) (hs : s.skipBlanks.rest = e.chars ++ rest) :
    ∃ (us vs : List Token) (s₁ : TokenStream) (e' : Expr) (p' : Pending) (outer' : List Pending),
      ts = us ++ vs ∧ Printed e us ∧
      s₁.Accepts (.operator e' p' outer') vs ∧ s₁.rest = rest ∧
      vs.filterMap Literal.ofToken? = ls := by
  induction e generalizing s ts p outer rest ls with
  | literal l =>
    obtain ⟨t, us, s₁, rfl, ht, hback, hs₁⟩ :=
      h.literal hl (by rintro x rfl; exact hfinite x (by simp [Expr.literals])) hrest hs
    refine ⟨[t], us, s₁, _, _, _, rfl, .literal ht, hback, hs₁, ?_⟩
    rw [List.filterMap_cons, ht] at hl
    exact (List.cons.inj hl).2
  | binary op x y ihx ihy =>
    have hwx : ∀ l ∈ x.literals, l.Written := fun l hl => hwritten l (by simp [Expr.literals, hl])
    have hwy : ∀ l ∈ y.literals, l.Written := fun l hl => hwritten l (by simp [Expr.literals, hl])
    have hfx : ∀ z, .number z ∈ x.literals → z.isFinite :=
      fun z hz => hfinite z (by simp [Expr.literals, hz])
    have hfy : ∀ z, .number z ∈ y.literals → z.isFinite :=
      fun z hz => hfinite z (by simp [Expr.literals, hz])
    have hsplit : (Expr.binary op x y).chars ++ rest = '(' :: (x.chars ++
        ' ' :: (op.symbol.toList ++ ' ' :: (y.chars ++ ')' :: rest))) := by simp [Expr.chars]
    rw [hsplit] at hs
    rw [Expr.literals, List.append_assoc] at hl
    -- The parenthesis and the left operand.
    have htrails := Trails.operator op (y.chars ++ ')' :: rest)
    obtain ⟨m, l, ks, back, hleading, hback, hchars⟩ := x.exists_leading htrails
    rw [hchars] at hs
    obtain ⟨left, ts, s₁, rfl, hleft, h₁, hs₁⟩ := h.opening (by rw [hl, hleading]; rfl)
      (by rintro z rfl; exact hfx z (by simp [hleading])) hback hs
    rw [← hchars] at hs₁
    rw [List.filterMap_cons, Literal.ofToken?_eq_none (by simp [hleft])] at hl
    obtain ⟨xs, ts, s₂, x', px, outerx, rfl, hxs, h₂, hs₂, hl₂⟩ := ihx h₁ hl hwx hfx htrails
      (by rw [skipBlanks_rest, hs₁]; exact Text.dropWhile_eq_self (x.chars_head hwx _))
    -- The operator and the right operand.
    obtain ⟨t, ts, s₃, rfl, ht, h₃, hs₃⟩ := h₂.operator
      (by rw [skipBlanks_rest, hs₂]; exact op.tight_symbol.dropWhile_space_append)
    rw [List.filterMap_cons, Literal.ofToken?_eq_none (by simp [ht])] at hl₂
    obtain ⟨ys, ts, s₄, y', py, outery, rfl, hys, h₄, hs₄, hl₄⟩ := ihy h₃ hl₂ hwy hfy
      (.closing rest) (by
        rw [skipBlanks_rest, hs₃, List.dropWhile_cons_of_pos rfl]
        exact Text.dropWhile_eq_self (y.chars_head hwy _))
    -- The closing parenthesis.
    obtain ⟨right, ts, s₅, e', p', outer', rfl, hright, h₅, hs₅⟩ := h₄.closing
      (by rw [skipBlanks_rest, hs₄]; rfl)
    rw [List.filterMap_cons, Literal.ofToken?_eq_none (by simp [hright])] at hl₄
    exact ⟨left :: (xs ++ t :: ys) ++ [right], ts, s₅, e', p', outer', by simp,
      .binary hleft hxs ht hys hright, h₅, hs₅, hl₄⟩

/-! ### Trimming a printed tree -/

theorem Text.trim_prefix {cs : List Char} (h : ∀ c ∈ cs.head?, isBlank c = false) :
    trim cs <+: cs := by
  have hstart : trimStart cs = cs := dropWhile_eq_self h
  rw [trim, hstart, trimEnd, ← List.reverse_suffix, List.reverse_reverse]
  exact List.dropWhile_suffix isBlank

theorem TokenStream.Yields.lexeme_infix {s s' : TokenStream} {ts : List Token} (h : s.Yields ts s') :
    ∀ t ∈ ts, t.lexeme.toList <:+: s.rest := by
  induction h with
  | nil => simp
  | cons hn _ ih =>
    obtain ⟨blanks, hfinds⟩ := exists_finds hn
    rw [hfinds.rest]
    refine List.forall_mem_cons.mpr ⟨List.infix_append _ _ _, fun u hu => ?_⟩
    exact (ih u hu).trans (List.suffix_append _ _).isInfix

/-- Where a printed name is read back nothing of it is trimmed off. -/
theorem Literal.trim_var {name : String} {p : VariablePattern} {ts : List Token} {t : Token}
    (hname : (var name).Written) (hts : tokenize p (Text.trim name.toList) = .ok ts) (ht : t ∈ ts)
    (hvar : ofToken? t = some (var name)) : Text.trim name.toList = name.toList := by
  obtain ⟨s', hy, -⟩ := tokens_eq_ok.mp hts
  have hkind := kind_of_ofToken? hvar
  have hlexeme : t.lexeme = name := by
    rw [Token.lexeme_of_ne (by simp [hkind, kind])]
    rw [ofToken?, hkind] at hvar
    cases hvar
    rfl
  have hinside := hy.lexeme_infix t ht
  rw [hlexeme] at hinside
  have hfirst : ∀ c ∈ name.toList.head?, Text.isBlank c = false := by
    obtain ⟨c, hc, hblank⟩ := hname
    rw [hc]
    rintro d ⟨⟩
    exact hblank
  exact (Text.trim_prefix hfirst).eq_of_length_le hinside.length_le

namespace Settings

variable {s : Settings} {text : String} {e : Expr}

/-- Nothing is trimmed off the printed form of a tree that is read back. -/
theorem trim_chars (hwritten : ∀ l ∈ e.literals, l.Written) (h : s.parse e.display = .ok e) :
    Text.trim e.chars = e.chars := by
  cases e with
  | literal l =>
    cases l with
    | var name =>
      obtain ⟨ts, hts, hparse⟩ := parse_eq_ok.mp h
      obtain ⟨t, ht, hvar⟩ := (parseTokens_eq_ok_iff.mp hparse).1.exists_token (.var name)
        (by simp [Expr.literals])
      rw [tokenize, Expr.toList_display] at hts
      exact Literal.trim_var (hwritten (.var name) (by simp [Expr.literals])) hts ht hvar
    | _ => exact ((hwritten _ (by simp [Expr.literals])).tight (by simp)).trim_eq
  | binary op x y => exact Expr.tight_binary.trim_eq

/-- A printed tree that is read back as the tree is cut into the tokens of the tree. -/
theorem printed_of_parse (hwritten : ∀ l ∈ e.literals, l.Written)
    (hfinite : ∀ x, .number x ∈ e.literals → x.isFinite) (h : s.parse e.display = .ok e) :
    ∃ ts, s.tokenize e.display = .ok ts ∧ Printed e ts ∧ parseTokens ts s.limits = .ok e := by
  obtain ⟨ts, hts, hparse⟩ := parse_eq_ok.mp h
  refine ⟨ts, hts, ?_, hparse⟩
  have hderives := (parseTokens_eq_ok_iff.mp hparse).1
  obtain ⟨x, q, hreads, -⟩ := derives_iff_reads.mp hderives
  rw [tokenize, Expr.toList_display, trim_chars hwritten h] at hts
  have haccepts : (ofText s.pattern e.chars).Accepts .start ts := ⟨tokens_eq_ok.mp hts, x, q, hreads⟩
  have hfront : (ofText s.pattern e.chars).skipBlanks.rest = e.chars ++ [] := by
    have hhead := e.chars_head hwritten []
    rw [skipBlanks_rest, ← Text.dropWhile_eq_self hhead, List.append_nil]
    rfl
  obtain ⟨us, vs, s₁, _, _, _, rfl, hprinted, hback, hs₁, -⟩ :=
    haccepts.exists_printed (by rw [hderives.literals, List.append_nil]) hwritten hfinite .nothing
      hfront
  have hnil : s₁.skipBlanks.rest = [] := by
    rw [skipBlanks_rest, hs₁]
    rfl
  cases vs with
  | nil => rwa [List.append_nil]
  | cons v vs =>
    obtain ⟨_, _, hn, -⟩ := hback.tail
    rw [next_of_nil hnil] at hn
    cases hn

/-- What is accepted has no more operations than the limit. -/
theorem operations_le_of_parse (h : s.parse text = .ok e) :
    e.operations ≤ s.limits.operators := by
  obtain ⟨ts, -, hts⟩ := parse_eq_ok.mp h
  obtain ⟨hderives, -, hcount⟩ := parseTokens_eq_ok_iff.mp hts
  rwa [hderives.countP_isOperator] at hcount

/-- Under the default pattern a parsed tree reads back unless its groups are too deep or a number is
infinite. -/
theorem readsBack_iff_of_parse {limits : Limits} (h : Settings.parse { limits } text = .ok e) :
    e.ReadsBack limits ↔
      e.depth - 1 ≤ limits.depth ∧ ∀ x, .number x ∈ e.literals → x.isFinite := by
  have hlexical := lexical_of_parse h
  constructor
  · intro hback
    refine ⟨hback.depth, fun x hx => ?_⟩
    obtain ⟨m, hm, rfl⟩ := hback.numbers x hx
    exact hm
  · rintro ⟨hdepth, hfinite⟩
    refine ⟨fun x hx => ?_, fun s hs => hlexical _ hs, fun name hn => hlexical _ hn, hdepth,
      operations_le_of_parse h⟩
    obtain ⟨m, rfl⟩ := written_of_parse h _ hx
    exact ⟨m, hfinite _ hx, rfl⟩

/-- An accepted tree with finite numbers is read back from its printed form just when its groups stay
within the limit and the pattern cuts the form into the tokens of the tree. The default pattern
always does, and takes the printed form of no infinite number. -/
theorem reparse_display_iff (h : s.parse text = .ok e) :
    ((∀ x, .number x ∈ e.literals → x.isFinite) →
      ((∃ e', s.parse e.display = .ok e' ∧ e'.equals e) ↔ e.depth - 1 ≤ s.limits.depth ∧
        ∃ ts, s.tokenize e.display = .ok ts ∧ Printed e ts)) ∧
    (s.pattern = .default →
      ((∃ e', s.parse e.display = .ok e' ∧ e'.equals e) ↔
        e.depth - 1 ≤ s.limits.depth ∧ ∀ x, .number x ∈ e.literals → x.isFinite)) := by
  have hwritten := written_of_parse h
  have hself : e.equals e := (Expr.equals_iff_of_written hwritten hwritten).mpr rfl
  refine ⟨fun hfinite => ?_, fun hpattern => ?_⟩
  · constructor
    · rintro ⟨e', hparse, hequals⟩
      obtain rfl := (Expr.equals_iff_of_written hwritten (written_of_parse hparse)).mp hequals
      obtain ⟨ts, hts, hprinted, hts'⟩ := printed_of_parse hwritten hfinite hparse
      exact ⟨((hprinted.parseTokens_iff s.limits).mp hts').2.1, ts, hts, hprinted⟩
    · rintro ⟨hdepth, ts, hts, hprinted⟩
      have hparse := (hprinted.parseTokens_iff s.limits).mpr ⟨rfl, hdepth, operations_le_of_parse h⟩
      exact ⟨e, parse_eq_ok.mpr ⟨ts, hts, hparse⟩, hself⟩
  · obtain ⟨pattern, limits⟩ := s
    cases hpattern
    rw [← readsBack_iff_of_parse h]
    constructor
    · rintro ⟨e', hparse, -⟩
      exact Expr.readsBack_of_parse (lexical_of_parse h) hparse
    · intro hback
      exact ⟨e, hback.parse_display, hself⟩

theorem reparse_display_iff_grouped :
    let two := Binary64.signed false ⟨1024 * 2 ^ 52, by decide⟩
    let e : Expr := .binary .eq
      (.binary .lt (.literal (.var "integer_value")) (.literal (.number two)))
      (.literal (.boolean true))
    Settings.parse {} "integer_value < 2 == true" = .ok e ∧
      ∃ e', Settings.parse {} e.display = .ok e' ∧ e'.equals e := by
  intro two e
  have hparse : Settings.parse {} "integer_value < 2 == true" = .ok e := by decide +kernel
  have hfinite : ∀ x, .number x ∈ e.literals → x.isFinite := by
    intro x hx
    obtain rfl : x = two := by simpa [e, Expr.literals] using hx
    decide +kernel
  exact ⟨hparse, ((reparse_display_iff hparse).2 rfl).mpr ⟨by decide +kernel, hfinite⟩⟩

/-! ### Trees that are not read back -/

/-- A numeral by itself is parsed as the number nearest to it. -/
theorem parse_numeral {cs w f : List Char} (h : PlainNumeral cs w f) (limits : Limits) :
    Settings.parse { limits } (.ofList cs) = .ok (.literal (.number (.signed false
      (Magnitude.nearest ⟨Nat.ofDigitChars 10 (w ++ f) 0, -(f.length : Int)⟩)))) := by
  let t : Token := .ofLexeme (.literal .number) cs 0
  have hts : Settings.tokenize { limits } (.ofList cs) = .ok [t] := by
    have hhead : ∀ c ∈ cs.head?, Text.isBlank c = false :=
      fun c hc => h.not_isBlank c (List.mem_of_mem_head? hc)
    have hwhole : classify .default (cs ++ []) = some (.literal .number, cs.length) :=
      classify_numeral h (by rintro c ⟨⟩)
    rw [List.append_nil] at hwhole
    rw [Settings.tokenize, String.toList_ofList, h.tight.trim_eq]
    exact tokenize_whole hhead hwhole
  refine parse_eq_ok.mpr ⟨[t], hts, ?_⟩
  have htoken : Literal.ofToken? t = some (.number (.signed false
      (Magnitude.nearest ⟨Nat.ofDigitChars 10 (w ++ f) 0, -(f.length : Int)⟩))) := by
    change (Binary64.ofString? (.ofList cs)).map Literal.number = _
    rw [Binary64.ofString?, String.toList_ofList, h.binary64]
    rfl
  refine ((Printed.literal htoken).parseTokens_iff limits).mpr ⟨rfl, ?_, Nat.zero_le _⟩
  simp [Expr.depth_eq_height, Expr.height]

theorem exists_of_depth {limits : Limits} {cs : List Char} {n : Nat}
    (h : ((FilterLang.tokenize .default (Text.trim cs)).toOption.bind
      fun ts => (parseTokens ts limits).toOption).map Expr.depth = some n) :
    ∃ e, Settings.parse { limits } (.ofList cs) = .ok e ∧ e.depth = n := by
  obtain ⟨e, he, rfl⟩ := Option.map_eq_some_iff.mp h
  obtain ⟨ts, hts, hparse⟩ := Option.bind_eq_some_iff.mp he
  refine ⟨e, parse_eq_ok.mpr ⟨ts, ?_, eq_ok_of_toOption hparse⟩, rfl⟩
  rw [Settings.tokenize, String.toList_ofList]
  exact eq_ok_of_toOption hts

theorem not_parse_display {limits : Limits} (h : Settings.parse { limits } text = .ok e)
    (hnot : ¬ e.ReadsBack limits) (e' : Expr) : Settings.parse { limits } e.display ≠ .ok e' :=
  fun hparse => hnot (Expr.readsBack_of_parse (lexical_of_parse h) hparse)

/-- A whole number that is too large is accepted, and not read back. -/
theorem not_parse_display_of_large {cs : List Char} (hne : cs ≠ []) (hcs : ∀ c ∈ cs, c.isDigit)
    (hlarge : (Magnitude.nearest ⟨Nat.ofDigitChars 10 cs 0, 0⟩).isFinite = false) (limits : Limits) :
    ∃ e, Settings.parse { limits } (.ofList cs) = .ok e ∧
      ∀ e', Settings.parse { limits } e.display ≠ .ok e' := by
  have hparse := parse_numeral (.integer hne hcs) limits
  rw [List.append_nil] at hparse
  refine ⟨_, hparse, not_parse_display hparse fun hback => ?_⟩
  obtain ⟨-, hfinite⟩ := (readsBack_iff_of_parse hparse).mp hback
  have hx := hfinite _ (List.mem_singleton_self _)
  rw [Binary64.isFinite] at hx
  exact Bool.false_ne_true (hlarge.symm.trans hx)

theorem exists_of_reparse {v : Verdict}
    (h : (s.parse text).toOption.map (fun e => s.parse e.display) = some v) :
    ∃ e, s.parse text = .ok e ∧ s.parse e.display = v := by
  obtain ⟨e, he, hv⟩ := Option.map_eq_some_iff.mp h
  exact ⟨e, eq_ok_of_toOption he, hv⟩

/-- A chain needs no parentheses until it is printed, and then more than the limit allows. A numeral
may be too long for a number, which is then printed as no text can denote it. A name may take the
parenthesis that is printed behind it. -/
theorem reparse_display_refused :
    let chain := "true".toList ++ (List.replicate 129 " and true".toList).flatten
    let limits : Limits := { depth := 1 }
    let p : VariablePattern := ⟨"x\\)?", .seq (.here .textStart) (.seq (.char (.only 'x'))
      (Regex.atMost true (.char (.only ')')) 1))⟩
    (∃ e, Settings.parse {} (.ofList chain) = .ok e ∧
      ∀ e', Settings.parse {} e.display ≠ .ok e') ∧
    (∃ e, Settings.parse {} (.ofList (List.replicate 400 '9')) = .ok e ∧
      ∀ e', Settings.parse {} e.display ≠ .ok e') ∧
    (∃ e, Settings.parse { limits } "true and true and true" = .ok e ∧
      Settings.parse { limits } e.display = .error (.grammar (.nestedTooDeep 1))) ∧
    VariablePattern.ofString "x\\)?" = .ok p ∧
      ∃ e, Settings.parse { pattern := p } "1 == x" = .ok e ∧
        Settings.parse { pattern := p } e.display = .error (.grammar (.missingRightParen none)) := by
  intro chain limits p
  refine ⟨?_, ?_, exists_of_reparse (by decide +kernel),
    VariablePattern.ofString_of_regexOf (by decide +kernel), exists_of_reparse (by decide +kernel)⟩
  · obtain ⟨e, he, hdepth⟩ : ∃ e, Settings.parse {} (.ofList chain) = .ok e ∧ e.depth = 130 :=
      exists_of_depth (by decide +kernel)
    refine ⟨e, he, not_parse_display he fun hback => ?_⟩
    have hle := hback.depth
    rw [hdepth] at hle
    exact absurd hle (by decide)
  · have hdigits : ∀ c ∈ List.replicate 400 '9', c.isDigit := by
      intro c hc
      rw [List.eq_of_mem_replicate hc]
      rfl
    exact not_parse_display_of_large (by decide +kernel) hdigits (by decide +kernel) {}

end Settings

end FilterLang
