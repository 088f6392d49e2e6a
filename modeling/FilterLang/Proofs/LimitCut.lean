import FilterLang.Proofs.Derivation

/-! Limits cut a parse in one place. A place is critical if its token is an operator or an opening
parenthesis that just exceeds a limit. On what can be read, the limits let all tokens through if and
only if no place is critical, so a parse under limits is the parse without limits up to the first
critical place, where it is refused. -/
namespace FilterLang

/-- The token at place `i` is the first operator too many or opens the first group too deep. -/
def Limits.Critical (limits : Limits) (ts : List Token) (i : Nat) : Prop :=
  ∃ t ∈ ts[i]?,
    (t.isOperator ∧ (ts.take i).countP Token.isOperator = limits.operators) ∨
    (t.isLeft ∧
      (ts.take i).countP Token.isLeft = (ts.take i).countP Token.isRight + limits.depth)

instance (limits : Limits) (ts : List Token) (i : Nat) : Decidable (limits.Critical ts i) :=
  inferInstanceAs (Decidable (∃ t ∈ ts[i]?, _))

/-- The error for a token that the limits do not let through. -/
def Limits.refusal (limits : Limits) (t : Token) : GrammarError :=
  if t.isOperator then .tooManyOperators limits.operators t.offset
  else .nestedTooDeep limits.depth

/-- The rejections that speak of a limit. -/
def Rejection.isLimit : Rejection → Bool
  | grammar (.nestedTooDeep _) | grammar (.tooManyOperators _ _) => true
  | _ => false

/-! ### Critical places -/

section Critical

variable {limits : Limits} {us vs : List Token} {s s' : Stage} {t : Token}

theorem critical_append {i : Nat} (hi : i < us.length) :
    limits.Critical (us ++ vs) i ↔ limits.Critical us i := by
  rw [Limits.Critical, Limits.Critical, List.getElem?_append_left hi,
    List.take_append_of_le_length hi.le]

/-- Behind tokens that were let through a token is refused just when its place is critical. -/
theorem Reads.critical_iff (h : Reads .start us s) (ha : limits.AdmitsAll {} us) :
    limits.Critical (us ++ t :: vs) us.length ↔ ¬ limits.Admits (Cursor.passAll {} us) t := by
  obtain ⟨hn, ho⟩ := h.admitsAll_iff.mp ha
  have hd := hn us (List.prefix_refl _)
  have hget : (us ++ t :: vs)[us.length]? = some t := by simp
  rw [h.admits_iff, Limits.Critical, hget, List.take_left]
  constructor
  · rintro ⟨u, hu, hcrit⟩ ⟨hleft, hop⟩
    cases hu
    rcases hcrit with ⟨hk, he⟩ | ⟨hk, he⟩
    · have := hop hk
      omega
    · have := hleft hk
      omega
  · intro hnot
    refine ⟨t, rfl, ?_⟩
    by_contra hcrit
    apply hnot
    constructor
    · intro hk
      have : us.countP Token.isLeft ≠ us.countP Token.isRight + limits.depth :=
        fun he => hcrit (.inr ⟨hk, he⟩)
      omega
    · intro hk
      have : us.countP Token.isOperator ≠ limits.operators := fun he => hcrit (.inl ⟨hk, he⟩)
      omega

theorem Reads.admitsAll_of_not_critical (h : Reads .start us s)
    (hc : ∀ i < us.length, ¬ limits.Critical us i) : limits.AdmitsAll {} us := by
  induction us using List.reverseRecOn generalizing s with
  | nil => trivial
  | append_singleton us t ih =>
    obtain ⟨s', hr, -⟩ := h.split
    have ha : limits.AdmitsAll {} us := by
      refine ih hr fun i hi => ?_
      have hlast := hc i (by simp; omega)
      rwa [critical_append hi] at hlast
    have hlast := hc us.length (by simp)
    rw [hr.critical_iff ha, not_not] at hlast
    exact Limits.admitsAll_append.mpr ⟨ha, hlast, trivial⟩

/-- A token that fits but is not let through stops the run. -/
theorem Takes.stops {c : Cursor} (h : Takes s t s') (hn : ¬ limits.Admits c t) :
    ∃ c', Stops limits c s (t :: vs) (.error (limits.refusal t)) c' := by
  cases h with
  | opening hk =>
    have ho : t.isOperator = false := by simp [Token.isOperator, Kind.operator?, hk]
    have hd : limits.depth ≤ c.depth := by
      by_contra hlt
      exact hn ⟨fun _ => by omega, by simp [ho]⟩
    rw [Limits.refusal, if_neg (by simp [ho])]
    exact ⟨_, .nested hk hd⟩
  | literal hl =>
    have hk := Literal.kind_of_ofToken? hl
    exact absurd ⟨by simp [Token.isLeft, hk], by simp [Token.isOperator, Kind.operator?, hk]⟩ hn
  | operator hk =>
    have ht : t.isOperator := Token.isOperator_iff.mpr ⟨_, hk⟩
    have ho : limits.operators ≤ c.operators := by
      by_contra hlt
      exact hn ⟨by simp [Token.isLeft, hk], fun _ => by omega⟩
    rw [Limits.refusal, if_pos ht]
    exact ⟨_, .tooMany ht ho⟩
  | closing hk =>
    exact absurd ⟨by simp [Token.isLeft, hk], by simp [Token.isOperator, Kind.operator?, hk]⟩ hn

/-- The first critical place decides. -/
theorem Reads.parseTokens_critical (h : Reads .start (us ++ [t]) s) (ha : limits.AdmitsAll {} us)
    (hc : limits.Critical (us ++ t :: vs) us.length) :
    parseTokens (us ++ t :: vs) limits = .error (.grammar (limits.refusal t)) := by
  obtain ⟨s₁, hr, htail⟩ := h.split
  cases htail with
  | cons ht _ =>
    obtain ⟨c, hs⟩ := ht.stops ((hr.critical_iff ha).mp hc)
    rw [parseTokens, Parser.readAll_fresh (by simp) hr ha hs]
    rfl

end Critical

/-! ### Two limits -/

/-- A run that no limit stops is stopped in the same way under all limits. -/
theorem Stops.change_limits {limits limits' : Limits} {c c' : Cursor} {s : Stage} {ts : List Token}
    {r : Except GrammarError Expr} (h : Stops limits c s ts r c')
    (hd : r ≠ .error (.nestedTooDeep limits.depth))
    (ho : ∀ n, r ≠ .error (.tooManyOperators limits.operators n)) : Stops limits' c s ts r c' := by
  cases h with
  | unexpectedEnd => exact .unexpectedEnd
  | complete => exact .complete
  | unclosed => exact .unclosed
  | nested => exact absurd rfl hd
  | invalidNumber hk hl => exact .invalidNumber hk hl
  | unexpected hk => exact .unexpected hk
  | tooMany => exact absurd rfl (ho _)
  | trailing hk => exact .trailing hk
  | missing hk hr => exact .missing hk hr

theorem Limits.AdmitsAll.mono {limits limits' : Limits} {c : Cursor} {ts : List Token}
    (h : limits.AdmitsAll c ts) (hd : limits.depth ≤ limits'.depth)
    (ho : limits.operators ≤ limits'.operators) : limits'.AdmitsAll c ts := by
  induction ts generalizing c with
  | nil => trivial
  | cons t ts ih =>
    exact ⟨⟨fun ht => (h.1.1 ht).trans_le hd, fun ht => (h.1.2 ht).trans_le ho⟩, ih h.2⟩

/-- What no limit rejects has the same result under higher limits. -/
theorem parseTokens_raise {ts : List Token} {limits limits' : Limits}
    {r : Except Rejection Expr} (hd : limits.depth ≤ limits'.depth)
    (ho : limits.operators ≤ limits'.operators) (h : parseTokens ts limits = r)
    (hr : ∀ e, r = .error e → e.isLimit = false) : parseTokens ts limits' = r := by
  by_cases hne : ts = []
  · subst hne
    rw [← h]
    rfl
  obtain ⟨us, vs, s, r', c, rfl, hread, ha, hs⟩ := Stage.exists_stops limits {} .start ts
  rw [parseTokens, Parser.readAll_fresh hne hread ha hs] at h
  subst h
  have hs' : Stops limits' (Cursor.passAll {} us) s vs r' c := by
    refine hs.change_limits ?_ fun n => ?_
    · rintro rfl
      simpa [Rejection.isLimit] using hr _ rfl
    · rintro rfl
      simpa [Rejection.isLimit] using hr _ rfl
  rw [parseTokens, Parser.readAll_fresh hne hread (ha.mono hd ho) hs']

/-- No limit of at least the number of tokens stops a run. -/
theorem Reads.stops_large {big : Limits} {us vs : List Token} {s : Stage} {c : Cursor}
    {r : Except GrammarError Expr} (h : Reads .start us s)
    (hd : (us ++ vs).length ≤ big.depth) (ho : (us ++ vs).length ≤ big.operators)
    (hs : Stops big (Cursor.passAll {} us) s vs r c) (limits : Limits) :
    Stops limits (Cursor.passAll {} us) s vs r c ∧ c.position = us.length := by
  have hpos : (Cursor.passAll {} us).position = us.length := by
    rw [Cursor.passAll_position]
    exact Nat.zero_add _
  have hdepth : (Cursor.passAll {} us).depth ≤ us.length := by
    have h₁ : (Cursor.passAll {} us).depth = 0 + s.opened := h.passAll_depth rfl
    have h₂ := h.opened
    have h₃ := List.countP_le_length (p := Token.isLeft) (l := us)
    have h₄ : Stage.start.opened = 0 := rfl
    omega
  have hops : (Cursor.passAll {} us).operators ≤ us.length := by
    rw [Cursor.passAll_operators]
    have h₁ := List.countP_le_length (p := Token.isOperator) (l := us)
    have h₂ : ({} : Cursor).operators = 0 := rfl
    omega
  cases hs with
  | unexpectedEnd => exact ⟨.unexpectedEnd, hpos⟩
  | complete => exact ⟨.complete, hpos⟩
  | unclosed => exact ⟨.unclosed, hpos⟩
  | nested hk hle =>
    simp only [List.length_append, List.length_cons] at hd
    omega
  | invalidNumber hk hl => exact ⟨.invalidNumber hk hl, hpos⟩
  | unexpected hk => exact ⟨.unexpected hk, hpos⟩
  | tooMany hk hle =>
    simp only [List.length_append, List.length_cons] at ho
    omega
  | trailing hk => exact ⟨.trailing hk, hpos⟩
  | missing hk hr => exact ⟨.missing hk hr, hpos⟩

/-- Where no place is critical, limits change nothing. -/
theorem Reads.parseTokens_of_not_critical {limits : Limits} {us vs : List Token} {s : Stage} {c : Cursor}
    {r : Except GrammarError Expr} (h : Reads .start us s) (hne : us ++ vs ≠ [])
    (hs : Stops limits (Cursor.passAll {} us) s vs r c)
    (hc : ∀ i < us.length, ¬ limits.Critical (us ++ vs) i) :
    parseTokens (us ++ vs) limits = Parser.conclude r vs := by
  have ha : limits.AdmitsAll {} us := by
    refine h.admitsAll_of_not_critical fun i hi => ?_
    exact fun hcrit => hc i hi ((critical_append hi).mpr hcrit)
  rw [parseTokens, Parser.readAll_fresh hne h ha hs]

/-- The first critical place that can be read decides. -/
theorem Reads.parseTokens_first_critical {limits : Limits} {us vs : List Token} {s : Stage}
    (h : Reads .start us s) {i : Nat} {t : Token} (hi : i < us.length)
    (ht : (us ++ vs)[i]? = some t) (hcrit : limits.Critical (us ++ vs) i)
    (hfirst : ∀ j < i, ¬ limits.Critical (us ++ vs) j) :
    parseTokens (us ++ vs) limits = .error (.grammar (limits.refusal t)) := by
  -- The list is cut at the critical place: `xs` before it, `t` on it, `ys` behind it.
  obtain ⟨xs, ys, rfl, rfl⟩ : ∃ xs ys, us = xs ++ t :: ys ∧ i = xs.length := by
    rw [List.getElem?_append_left hi] at ht
    obtain ⟨hlt, rfl⟩ := List.getElem?_eq_some_iff.mp ht
    refine ⟨us.take i, us.drop (i + 1), ?_, by simp; omega⟩
    rw [← List.drop_eq_getElem_cons hlt, List.take_append_drop]
  have hxs : Reads .start (xs ++ [t] ++ ys) s := by simpa using h
  obtain ⟨s₁, hr₁, -⟩ := hxs.split
  obtain ⟨s₂, hr₂, -⟩ := hr₁.split
  have ha : limits.AdmitsAll {} xs := by
    refine hr₂.admitsAll_of_not_critical fun j hj => ?_
    have hj' := hfirst j hj
    rwa [List.append_assoc, critical_append hj] at hj'
  rw [List.append_assoc, List.cons_append] at hcrit ⊢
  exact hr₁.parseTokens_critical ha hcrit

/-- A parse under limits is the parse under limits as large as the list, cut at the first critical
place that this one reads; and raising limits changes no result but a rejection that speaks of one. -/
theorem parseTokens_cut (ts : List Token) (limits big : Limits) (hd : ts.length ≤ big.depth)
    (ho : ts.length ≤ big.operators) :
    let p := (Parser.readAll { tokens := ts, limits := big }).2.cursor.position
    ((∀ i < p, ¬ limits.Critical ts i) → parseTokens ts limits = parseTokens ts big) ∧
    (∀ i < p, ∀ t, ts[i]? = some t → limits.Critical ts i → (∀ j < i, ¬ limits.Critical ts j) →
      parseTokens ts limits = .error (.grammar (limits.refusal t))) ∧
    ∀ limits' : Limits, limits.depth ≤ limits'.depth → limits.operators ≤ limits'.operators →
      (∀ e, parseTokens ts limits = .ok e → parseTokens ts limits' = .ok e) ∧
      ∀ e, parseTokens ts limits = .error e → e.isLimit = false →
        parseTokens ts limits' = .error e := by
  intro p
  refine and_assoc.mp ⟨?_, fun limits' hd' ho' => ⟨fun e h => ?_, fun e h he => ?_⟩⟩
  rotate_left
  · exact parseTokens_raise hd' ho' h (by simp)
  · exact parseTokens_raise hd' ho' h (by rintro _ ⟨rfl⟩; exact he)
  by_cases hne : ts = []
  · subst hne
    exact ⟨fun _ => rfl, fun i hi => absurd hi (Nat.not_lt_zero i)⟩
  obtain ⟨us, vs, s, r, c, rfl, hr, ha, hs⟩ := Stage.exists_stops big {} .start ts
  obtain ⟨hs', hpos⟩ := hr.stops_large hd ho hs limits
  have hread := Parser.readAll_fresh hne hr ha hs
  have hp : p = us.length := by
    simp only [p, hread, hpos]
  rw [hp]
  refine ⟨fun hc => ?_, fun i hi t ht hcrit hfirst => ?_⟩
  · rw [hr.parseTokens_of_not_critical hne hs' hc, parseTokens, hread]
  · exact hr.parseTokens_first_critical hi ht hcrit hfirst

/-- With no operator allowed, `(true == true` is cut at its operator, before the missing parenthesis
is noticed. -/
theorem parseTokens_cut_operator :
    let ts : List Token := [⟨.leftParen, "(", 0⟩, ⟨.literal .boolean, "true", 1⟩,
      ⟨.operator .eq, "==", 6⟩, ⟨.literal .boolean, "true", 9⟩]
    let big : Limits := ⟨4, 4⟩
    ts.length ≤ big.depth ∧ ts.length ≤ big.operators ∧
      parseTokens ts ⟨1, 0⟩ = .error (.grammar (.tooManyOperators 0 6)) := by
  intro ts big
  have hcut := parseTokens_cut ts ⟨1, 0⟩ big (by decide) (by decide)
  exact ⟨by decide, by decide, hcut.2.1 2 (by decide) _ rfl (by decide) (by decide)⟩

end FilterLang
