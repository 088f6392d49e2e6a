import FilterLang.Proofs.Recognition

/-! Pulling some tokens and then taking the rest. A stream goes by what is left of its text, and its
position only marks what it finds there; so what is left gives the same tokens and the same error as
a text of its own, further along, and pulled tokens come before them in the whole. A pull that gives
no token leaves the stream at a place where every later pull gives the same again. -/
namespace FilterLang

/-! ### Further along in a text -/

def Token.later (n : Nat) (t : Token) : Token := { t with offset := t.offset + n }

def Unrecognized.later (n : Nat) (e : Unrecognized) : Unrecognized :=
  { e with position := e.position + n }

namespace TokenStream

/-- What is found in a text, found `n` bytes further along. -/
def foundLater (n : Nat) (result : Except Unrecognized (List Token)) :
    Except Unrecognized (List Token) :=
  (result.map (List.map (Token.later n))).mapError (Unrecognized.later n)

/-- The same rest of a text, `n` bytes further along. -/
def later (n : Nat) (s : TokenStream) : TokenStream := { s with position := s.position + n }

variable {s s' : TokenStream} {t : Token} {ts : List Token} {e : Unrecognized} {n : Nat}

theorem advance_later (n m : Nat) (s : TokenStream) :
    (s.later n).advance m = (s.advance m).later n := by
  simp [later, advance, Nat.add_right_comm]

theorem ofLexeme_later (k : Kind) (lexeme : List Char) (n offset : Nat) :
    Token.ofLexeme k lexeme (offset + n) = (Token.ofLexeme k lexeme offset).later n := by
  unfold Token.ofLexeme
  split <;> rfl

/-- A pull further along finds the same further along. -/
theorem next_later (n : Nat) (s : TokenStream) : (s.later n).next =
    ((s.next.1.map (Option.map (Token.later n))).mapError (Unrecognized.later n),
      s.next.2.later n) := by
  have hskip : (s.later n).skipBlanks = s.skipBlanks.later n := advance_later n _ s
  by_cases hne : s.skipBlanks.rest = []
  · rw [next_of_nil hne, next_of_nil (by rw [hskip]; exact hne), hskip]
    rfl
  have hne' : (s.later n).skipBlanks.rest ≠ [] := by rwa [hskip]
  have hclassify : classify (s.later n).pattern (s.later n).skipBlanks.rest =
      classify s.pattern s.skipBlanks.rest := by rw [hskip]; rfl
  cases hc : classify s.pattern s.skipBlanks.rest with
  | none =>
    rw [next_of_none hne hc, next_of_none hne' (hclassify.trans hc), hskip]
    rfl
  | some found =>
    obtain ⟨k, m⟩ := found
    rw [next_of_some hne hc, next_of_some hne' (hclassify.trans hc), hskip, advance_later]
    exact congrArg (fun t => (Except.ok (some t), _)) (ofLexeme_later k _ n _)

theorem pull_later (n m : Nat) (found : List Token) (s : TokenStream) :
    pull (found.map (Token.later n)) m (s.later n) = foundLater n (pull found m s) := by
  induction m generalizing found s with
  | zero => simp [pull, foundLater, Except.map, Except.mapError]
  | succ m ih =>
    rw [pull, pull, next_later]
    rcases s.next with ⟨e | _ | t, s'⟩
    · rfl
    · simp [foundLater, Except.map, Except.mapError]
    · exact ih (t :: found) s'

theorem tokens_later (n : Nat) (s : TokenStream) : (s.later n).tokens = foundLater n s.tokens :=
  pull_later n _ [] s

/-- All that is left of a stream is what a text of its own would give, further along. -/
theorem tokens_eq_foundLater (s : TokenStream) :
    s.tokens = foundLater s.position (tokenize s.pattern s.rest) := by
  rw [tokenize, ← tokens_later]
  simp [later, ofText]

/-! ### Behind pulled tokens -/

theorem Yields.of_next (h : s.next.1 = .ok (some t)) : Yields s [t] (s.afterPulls 1) :=
  .single (Prod.ext h rfl)

/-- The tokens of a stream are those that are pulled from it, and then all that are left. -/
theorem Yields.tokens_eq (h : Yields s ts s') : s.tokens = s'.tokens.map (ts ++ ·) := by
  cases htokens : s'.tokens with
  | ok us =>
    obtain ⟨s'', hy, hend⟩ := tokens_eq_ok.mp htokens
    exact tokens_eq_ok.mpr ⟨s'', h.append hy, hend⟩
  | error e =>
    obtain ⟨us, s'', hy, he⟩ := tokens_eq_error.mp htokens
    exact tokens_eq_error.mpr ⟨ts ++ us, s'', h.append hy, he⟩

theorem Yields.tokens_eq_ok_iff (h : Yields s ts s') {us : List Token} :
    s'.tokens = .ok us ↔ s.tokens = .ok (ts ++ us) := by
  rw [h.tokens_eq]
  cases s'.tokens <;> simp [Except.map]

theorem Yields.tokens_eq_error_iff (h : Yields s ts s') :
    s'.tokens = .error e ↔ s.tokens = .error e := by
  rw [h.tokens_eq]
  cases s'.tokens <;> simp [Except.map]

/-! ### Behind a pull that gives no token -/

/-- A pull that gives no token has only passed over blanks, and there are no more of them. -/
theorem Halts.next_next (h : s.Halts) : s.next.2 = s.skipBlanks ∧ s.next.2.next = s.next := by
  have hmoved : s.next.2 = s.skipBlanks := by
    by_cases hne : s.skipBlanks.rest = []
    · rw [next_of_nil hne]
    cases hc : classify s.pattern s.skipBlanks.rest with
    | none => rw [next_of_none hne hc]
    | some found => exact absurd (congrArg Prod.fst (next_of_some hne hc)) (h _)
  refine ⟨hmoved, ?_⟩
  rw [hmoved, next, skipBlanks_skipBlanks]
  rfl

/-- However often it is asked again, the stream stays and gives the same. -/
theorem Halts.next_afterPulls (h : s.Halts) (m : Nat) : (s.next.2.afterPulls m).next = s.next := by
  have hstay : s.next.2.afterPulls m = s.next.2 := by
    induction m with
    | zero => rfl
    | succ m ih => rw [afterPulls, ih, h.next_next.2]
  rw [hstay, h.next_next.2]

theorem position_of_next_error (h : s.next.1 = .error e) : s.next.2.position = e.position := by
  obtain ⟨-, -, rfl⟩ := exists_of_next_error h
  rw [(Halts.of_error h).next_next.1]
  rfl

theorem Within.position_of_end {text : List Char} (hs : s.Within text)
    (h : s.next.1 = .ok none) : s.next.2.position = Text.utf8Length text := by
  have hrest : s.skipBlanks.rest = [] := by
    rw [skipBlanks_rest]
    exact List.dropWhile_eq_nil_iff.mpr (isBlank_of_end h)
  obtain ⟨front, rfl, hpos⟩ := hs.skipBlanks
  rw [(Halts.of_end h).next_next.1, hrest, List.append_nil, hpos]

/-- Behind any tokens that are pulled from a text, all that is left is the rest of what the text
gives, and it is what the rest of the text gives as a text of its own, at its place in the whole. A
pull that fails leaves the stream at the place of its error, a pull that finds the end leaves it
there, and from then on every pull gives the same and moves nothing. -/
theorem tokens_resumed (p : VariablePattern) (text : List Char) :
    (∀ ts s, Yields (ofText p text) ts s →
      (∀ us, s.tokens = .ok us ↔ tokenize p text = .ok (ts ++ us)) ∧
      (∀ e, s.tokens = .error e ↔ tokenize p text = .error e) ∧
      Text.Spans text s.position s.rest (Text.utf8Length text) ∧
      s.tokens = foundLater s.position (tokenize p s.rest)) ∧
    ∀ n, let s := (ofText p text).afterPulls n
      (∀ e, s.next.1 = .error e → s.next.2.position = e.position ∧
        ∀ m, (s.next.2.afterPulls m).next = (.error e, s.next.2)) ∧
      (s.next.1 = .ok none → s.next.2.position = Text.utf8Length text ∧
        ∀ m, (s.next.2.afterPulls m).next = (.ok none, s.next.2)) := by
  constructor
  · intro ts s h
    refine ⟨fun us => h.tokens_eq_ok_iff, fun e => h.tokens_eq_error_iff,
      (h.within (ofText_within p text)).spans, ?_⟩
    have hp : s.pattern = p := h.pattern_eq
    rw [tokens_eq_foundLater, hp]
  · intro n s
    have hs : s.Within text := (ofText_within p text).afterPulls n
    constructor
    · intro e he
      exact ⟨position_of_next_error he, fun m => by
        rw [(Halts.of_error he).next_afterPulls, ← he]⟩
    · intro hend
      exact ⟨hs.position_of_end hend, fun m => by
        rw [(Halts.of_end hend).next_afterPulls, ← hend]⟩

/-- Behind the wide blank and the number, the rest of the text fails three bytes further along. -/
theorem tokens_resumed_wide :
    let text := "\u00a01 < #".toList
    let s := (ofText .default text).afterPulls 1
    let halted := ((ofText .default text).afterPulls 2).next.2
    s.position = 3 ∧ tokenize .default s.rest = .error ⟨3, "#"⟩ ∧ s.tokens = .error ⟨6, "#"⟩ ∧
      tokenize .default text = .error ⟨6, "#"⟩ ∧
      halted.position = 6 ∧ ∀ m, (halted.afterPulls m).next = (.error ⟨6, "#"⟩, halted) := by
  intro text s halted
  obtain ⟨hresumed, hsticky⟩ := tokens_resumed .default text
  have hfirst : (ofText .default text).next.1 = .ok (some ⟨.literal .number, "1", 2⟩) := by
    decide +kernel
  obtain ⟨-, herror, -, hlater⟩ := hresumed _ s (.of_next hfirst)
  have hposition : s.position = 3 := by decide +kernel
  have hrest : tokenize .default s.rest = .error ⟨3, "#"⟩ := by decide +kernel
  have htokens : s.tokens = .error ⟨6, "#"⟩ := by
    rw [hlater, hposition, hrest]
    rfl
  have hfail : ((ofText .default text).afterPulls 2).next.1 = .error ⟨6, "#"⟩ := by decide +kernel
  obtain ⟨hplace, hstays⟩ := (hsticky 2).1 _ hfail
  exact ⟨hposition, hrest, htokens, (herror _).mp htokens, hplace, hstays⟩

end TokenStream

end FilterLang
