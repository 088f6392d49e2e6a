import FilterLang.Pattern.Reader

/-! A pattern between parentheses. A text that is a pattern by itself is read as the same pattern
inside a group: each reader takes the same characters off the text when a closing parenthesis stands
behind it (`Carries`), and reads alike with more groups open around it (`Progress.under`). So the
parenthesis behind the text closes the group in front of it (`read_enclosed`). -/
namespace FilterLang.Pattern

/-- `cs` has at most `n` characters, and in `ds` a closing parenthesis stands behind them unless a
comment has swallowed it. -/
inductive Enclosed : Nat → List Char → List Char → Prop where
  | swallowed {n : Nat} : Enclosed n [] []
  | closing {n : Nat} : Enclosed n [] [')']
  | cons {n : Nat} {cs ds : List Char} (c : Char) (h : Enclosed n cs ds) :
      Enclosed (n + 1) (c :: cs) (c :: ds)

namespace Enclosed

variable {n : Nat} {cs ds : List Char}

theorem append (cs : List Char) : Enclosed cs.length cs (cs ++ [')']) := by
  induction cs with
  | nil => exact .closing
  | cons c cs ih => exact .cons c ih

theorem mono (h : Enclosed n cs ds) {m : Nat} (hm : n ≤ m) : Enclosed m cs ds := by
  induction h generalizing m with
  | swallowed => exact .swallowed
  | closing => exact .closing
  | cons c _ ih =>
    obtain ⟨k, rfl⟩ := Nat.exists_eq_add_of_le' (Nat.le_of_add_left_le hm)
    exact .cons c (ih (Nat.le_of_succ_le_succ hm))

theorem later (h : Enclosed n cs ds) : Enclosed (n + 1) cs ds := h.mono (Nat.le_succ n)

theorem tight (h : Enclosed n cs ds) : Enclosed cs.length cs ds := by
  induction h with
  | swallowed => exact .swallowed
  | closing => exact .closing
  | cons c _ ih => exact .cons c ih

theorem length_le (h : Enclosed n cs ds) : cs.length ≤ n := by
  induction h with
  | swallowed | closing => exact Nat.zero_le _
  | cons c _ ih => exact Nat.succ_le_succ ih

theorem length_le_length (h : Enclosed n cs ds) : cs.length ≤ ds.length := by
  induction h with
  | swallowed | closing => exact Nat.zero_le _
  | cons c _ ih => exact Nat.succ_le_succ ih

/-- A character other than the closing parenthesis is one of the pattern's own. -/
theorem of_cons {c : Char} (h : Enclosed n cs (c :: ds)) (hc : c ≠ ')') :
    ∃ m cs', n = m + 1 ∧ cs = c :: cs' ∧ Enclosed m cs' ds := by
  cases h with
  | closing => exact absurd rfl hc
  | cons _ h => exact ⟨_, _, rfl, rfl, h⟩

theorem of_append {l : List Char} (h : Enclosed n cs (l ++ ds)) (hl : ')' ∉ l) :
    ∃ cs', cs = l ++ cs' := by
  induction l generalizing n cs with
  | nil => exact ⟨cs, rfl⟩
  | cons c l ih =>
    obtain ⟨m, cs, rfl, rfl, hrest⟩ := h.of_cons (List.ne_of_not_mem_cons hl).symm
    obtain ⟨cs', rfl⟩ := ih hrest (List.not_mem_of_not_mem_cons hl)
    exact ⟨cs', rfl⟩

theorem ne_append {l : List Char} (h : Enclosed n cs (l ++ ds)) (hl : ')' ∉ l)
    (hne : ∀ rest, cs = l ++ rest → False) : False := by
  obtain ⟨rest, hrest⟩ := h.of_append hl
  exact hne rest hrest

theorem skipFiller (h : Enclosed n cs ds) (inComment : Bool) :
    Enclosed n (skipFiller inComment cs) (skipFiller inComment ds) := by
  induction h generalizing inComment with
  | swallowed => exact .swallowed
  | closing =>
    cases inComment with
    | false => exact .closing
    | true => exact .swallowed
  | cons c h ih =>
    simp only [Pattern.skipFiller]
    split
    · exact (ih _).later
    · split
      · exact (ih _).later
      · split
        · exact (ih _).later
        · exact .cons c h

theorem skip (h : Enclosed n cs ds) (f : Flags) : Enclosed n (f.skip cs) (f.skip ds) := by
  rw [Flags.skip, Flags.skip]
  split
  · exact h.skipFiller false
  · exact h

theorem dropWhile (h : Enclosed n cs ds) (p : Char → Bool) :
    Enclosed n (cs.dropWhile p) (ds.dropWhile p) := by
  induction h with
  | swallowed => exact .swallowed
  | closing =>
    rw [List.dropWhile_cons]
    split
    · exact .swallowed
    · exact .closing
  | cons c h ih =>
    rw [List.dropWhile_cons, List.dropWhile_cons]
    split
    · exact ih.later
    · exact .cons c h

theorem takeWhile_eq (h : Enclosed n cs ds) {p : Char → Bool} (hp : cs.dropWhile p ≠ []) :
    ds.takeWhile p = cs.takeWhile p := by
  induction h with
  | swallowed => rfl
  | closing => exact absurd rfl hp
  | cons c h ih =>
    rw [List.dropWhile_cons] at hp
    rw [List.takeWhile_cons, List.takeWhile_cons]
    split
    next hc => rw [ih (by rwa [if_pos hc] at hp)]
    next => rfl

end Enclosed

/-! ### Readers -/

/-- What the first result reads the second reads too, up to the same place in the text. -/
def Carries {α : Type} (n : Nat) (x y : Except PatternFault (α × List Char)) : Prop :=
  ∀ a rest, x = .ok (a, rest) → ∃ rest', y = .ok (a, rest') ∧ Enclosed n rest rest'

namespace Carries

variable {α β : Type} {n : Nat} {x y : Except PatternFault (α × List Char)}

theorem error {fault : PatternFault} : Carries n (.error fault) y := by
  intro a rest h
  contradiction

theorem ok {a : α} {rest rest' : List Char} (h : Enclosed n rest rest') :
    Carries n (.ok (a, rest)) (.ok (a, rest')) := by
  intro b left hleft
  cases hleft
  exact ⟨rest', rfl, h⟩

theorem mono (h : Carries n x y) {m : Nat} (hm : n ≤ m) : Carries m x y := by
  intro a rest hx
  obtain ⟨rest', hy, hrest⟩ := h a rest hx
  exact ⟨rest', hy, hrest.mono hm⟩

theorem later (h : Carries n x y) : Carries (n + 1) x y := h.mono (Nat.le_succ n)

theorem bind (h : Carries n x y) {f g : α × List Char → Except PatternFault (β × List Char)}
    (hfg : ∀ a rest rest', Enclosed n rest rest' → Carries n (f (a, rest)) (g (a, rest'))) :
    Carries n (x >>= f) (y >>= g) := by
  intro b left hleft
  cases x with
  | error => contradiction
  | ok p =>
    obtain ⟨a, rest⟩ := p
    obtain ⟨rest', rfl, hrest⟩ := h a rest rfl
    exact hfg a rest rest' hrest b left hleft

theorem map (h : Carries n x y) (φ : α → β) :
    Carries n (x.map fun p => (φ p.1, p.2)) (y.map fun p => (φ p.1, p.2)) := by
  intro b left hleft
  cases x with
  | error => contradiction
  | ok p =>
    obtain ⟨a, rest⟩ := p
    obtain ⟨rest', rfl, hrest⟩ := h a rest rfl
    cases hleft
    exact ⟨rest', rfl, hrest⟩

/-- A result that does not depend on the text behind it. -/
theorem attach (z : Except PatternFault α) {rest rest' : List Char} (φ : α → β)
    (h : Enclosed n rest rest') :
    Carries n (z.map fun a => (φ a, rest)) (z.map fun a => (φ a, rest')) := by
  cases z with
  | error => exact .error
  | ok a => exact .ok h

theorem bindAttach (z : Except PatternFault α) {rest rest' : List Char} (φ : α → β)
    (h : Enclosed n rest rest') : Carries n (z >>= fun a => pure (φ a, rest))
      (z >>= fun a => pure (φ a, rest')) := by
  cases z with
  | error => exact .error
  | ok a => exact .ok h

end Carries

/-! ### Parts of the readers by name -/

theorem Flags.skip_nil (f : Flags) : f.skip [] = [] := by
  rw [Flags.skip]
  split <;> rfl

/-- What stands behind blanks and one comment mark. -/
def ahead (cs : List Char) : List Char :=
  match cs.dropWhile Text.isBlank with
  | '#' :: rest => rest.dropWhile Text.isBlank
  | rest => rest

theorem peek_eq (f : Flags) (cs : List Char) :
    f.peek cs = if f.verbose then ((ahead cs).head? <|> cs.head?) else cs.head? := rfl

/-- The sign of negation in front of a class. -/
def sign (f : Flags) : List Char → Bool × List Char
  | '^' :: rest => (true, f.skip rest)
  | rest => (false, rest)

/-- A closing bracket in front of all members stands for itself. -/
def firstBracket (f : Flags) (c : OpenClass) (cs : List Char) : OpenClass × List Char :=
  match c.members, cs with
  | [], ']' :: rest => (c.add (.only ']'), f.skip rest)
  | _, _ => (c, cs)

/-- A class given by name, behind the sign of negation. -/
def namedSet? (f : Flags) (negated : Bool) (cs : List Char) :
    Option (Except PatternFault CharSet × List Char) :=
  match cs.dropWhile (· != ':') with
  | ':' :: ']' :: rest =>
    (CharSet.ofName? (cs.takeWhile (· != ':'))).map fun set =>
      (f.negate negated (f.closeCase set), rest)
  | _ => none

/-- A group with a name, behind the angle bracket. -/
def namedGroup (s : Progress) (cs : List Char) : Except PatternFault (Progress × List Char) := do
  let (name, rest) ← readGroupName cs
  if s.names.contains name then throw .badGroupName
  return ({ s with names := name :: s.names }.openGroup s.flags, rest)

/-- Flags of a group, or up to the end of the group around them. -/
def flagGroup (s : Progress) (cs : List Char) : Except PatternFault (Progress × List Char) := do
  let (f, tail) ← readFlags s.flags [] cs
  match tail with
  | ')' :: tail =>
    if cs.head? == some ')' then throw .nothingToRepeat
    else return ({ s with flags := f }.add .flagSetting, tail)
  | _ :: tail => return (s.openGroup f, tail)
  | [] => throw .unclosedGroup

theorem sign_of_ne (f : Flags) {c : Char} (hc : c ≠ '^') (cs : List Char) :
    sign f (c :: cs) = (false, c :: cs) := by
  unfold sign
  split
  next heq => exact absurd (List.cons.inj heq).1 hc
  next => rfl

theorem namedClass?_colon (f : Flags) (cs : List Char) : namedClass? f (':' :: cs) =
    namedSet? f (sign {} cs).1 (sign {} cs).2 := by
  cases cs with
  | nil => rfl
  | cons c cs =>
    by_cases hc : c = '^'
    · subst hc
      rfl
    · rw [sign_of_ne {} hc]
      unfold namedClass?
      split
      next heq =>
        cases heq
        split
        next hsign =>
          split at hsign
          next hcons => exact absurd (List.cons.inj hcons).1 hc
          next =>
            cases hsign
            rfl
      next hne => exact absurd rfl (hne _)

theorem openClass_eq (f : Flags) (cs : List Char) : openClass f cs =
    let p := sign f (f.skip cs)
    let q := leadingDashes f p.2.length ⟨p.1, none, []⟩ p.2
    firstBracket f q.1 q.2 := rfl

namespace Enclosed

variable {engine : Engine} {n : Nat} {cs ds : List Char}

/-! ### Escape sequences -/

theorem readHexDigits (h : Enclosed n cs ds) (f : Flags) (size : Nat) :
    Carries n (readHexDigits f size cs) (readHexDigits f size ds) := by
  induction size generalizing n cs ds with
  | zero => exact .ok h
  | succ size ih =>
    cases h with
    | swallowed | closing => exact .error
    | cons c h =>
      simp only [Pattern.readHexDigits]
      split
      · exact ((ih (h.skip f)).map (c :: ·)).later
      · exact .error

theorem readInBraces (h : Enclosed n cs ds) (f : Flags) (allowed : Char → Bool) {k m : Nat}
    (hm : k ≤ m) : Carries n (readInBraces f allowed k cs) (readInBraces f allowed m ds) := by
  induction k generalizing n m cs ds with
  | zero =>
    cases h with
    | swallowed | closing => exact .error
    | cons c h =>
      by_cases hc : c = '\x7d'
      · subst hc
        cases m with
        | zero | succ => exact .ok h.later
      · unfold Pattern.readInBraces
        split
        next heq => exact absurd (List.cons.inj heq).1 hc
        next heq _ => contradiction
        next => exact .error
  | succ k ih =>
    obtain ⟨m, rfl⟩ := Nat.exists_eq_add_of_le' (Nat.le_of_add_left_le hm)
    cases h with
    | swallowed | closing => exact .error
    | cons c h =>
      by_cases hc : c = '\x7d'
      · subst hc
        exact .ok h.later
      · simp only [Pattern.readInBraces]
        split
        · exact ((ih (h.skip f) (Nat.le_of_succ_le_succ hm)).map (c :: ·)).later
        · exact .error

theorem readHex (h : Enclosed n cs ds) (f : Flags) (size : Nat) :
    Carries n (readHex f size cs) (readHex f size ds) := by
  have hs := h.skip f
  unfold Pattern.readHex
  generalize f.skip cs = cs at hs ⊢
  generalize f.skip ds = ds at hs ⊢
  split
  next =>
    cases hs with
    | cons _ hs =>
      refine ((hs.skip f).readInBraces f isHexDigit hs.length_le_length).later.bind ?_
      intro digits rest rest' hrest
      simp only
      split
      · exact .error
      · exact .bindAttach (charOf (hexValue digits)) (Atom.literal · false) (hrest.skip f)
  next hne =>
    split
    next =>
      obtain ⟨_, _, _, rfl, _⟩ := hs.of_cons (by decide)
      exact absurd rfl (hne _)
    next =>
      refine (hs.readHexDigits f size).bind fun digits rest rest' hrest => ?_
      exact .bindAttach (charOf (hexValue digits)) (Atom.literal · (size == 2)) hrest

theorem readEdge (h : Enclosed n cs ds) (f : Flags) :
    Carries n (readEdge f cs) (readEdge f ds) := by
  cases h with
  | swallowed => exact .ok .swallowed
  | closing => exact .ok .closing
  | @cons n cs ds c h =>
    by_cases hc : c = '\x7b'
    · subst hc
      simp only [Pattern.readEdge]
      have hs := h.skip f
      generalize f.skip cs = inside at hs ⊢
      generalize f.skip ds = inside' at hs ⊢
      cases hs with
      | swallowed | closing => exact .error
      | cons d hs =>
        simp only
        split
        · have hname := (hs.cons d).readInBraces f isEdgeNameChar
            (Nat.succ_le_succ hs.length_le_length)
          refine (hname.bind fun name rest rest' hrest => ?_).later
          simp only
          split
          · exact .ok hrest
          · exact .error
        · exact .ok (h.cons _)
    · unfold Pattern.readEdge
      split
      next heq => exact absurd (List.cons.inj heq).1 hc
      next =>
        split
        next heq => exact absurd (List.cons.inj heq).1 hc
        next => exact .ok (h.cons c)

theorem readProperty (h : Enclosed n cs ds) (f : Flags) :
    Carries n (readProperty f cs) (readProperty f ds) := by
  have hs := h.skip f
  unfold Pattern.readProperty
  generalize f.skip cs = left at hs ⊢
  generalize f.skip ds = left' at hs ⊢
  split
  next =>
    cases hs with
    | cons _ hs => exact ((hs.skip f).readInBraces f _ hs.length_le_length).later
  next => exact .error
  next hbrace hbackslash =>
    cases hs with
    | cons c hs =>
      split
      next heq => exact absurd (List.cons.inj heq).1 hbrace
      next heq => exact absurd (List.cons.inj heq).1 hbackslash
      next heq =>
        cases heq
        exact .ok (hs.skip f).later
      next heq => contradiction
  next => exact .error

theorem readEscape (h : Enclosed n cs ds) (f : Flags) :
    Carries n (readEscape f cs) (readEscape f ds) := by
  cases h with
  | swallowed | closing => exact .error
  | cons c h =>
    simp only [Pattern.readEscape]
    split
    · exact .error
    · split
      · exact .ok h.later
      · split
        case h_1 | h_2 | h_3 => exact (h.readHex f _).later
        case h_4 => exact ((h.readProperty f).map (Atom.property · false)).later
        case h_5 => exact ((h.readProperty f).map (Atom.property · true)).later
        case h_20 =>
          exact ((h.readEdge f).map fun edge => Atom.place (.word edge (!f.unicode))).later
        all_goals first
          | exact .error
          | exact .ok h.later

/-! ### Classes -/

theorem head?_eq_some_iff (h : Enclosed n cs ds) {c : Char} (hc : c ≠ ')') :
    ds.head? = some c ↔ cs.head? = some c := by
  cases h with
  | swallowed | cons => rfl
  | closing => simp [hc.symm]

theorem ahead (h : Enclosed n cs ds) : Enclosed n (ahead cs) (ahead ds) := by
  have hd := h.dropWhile Text.isBlank
  unfold Pattern.ahead
  generalize cs.dropWhile Text.isBlank = cs at hd ⊢
  generalize ds.dropWhile Text.isBlank = ds at hd ⊢
  cases hd with
  | swallowed => exact .swallowed
  | closing => exact .closing
  | cons c hd =>
    split
    next heq =>
      cases heq
      exact (hd.dropWhile Text.isBlank).later
    next hne =>
      split
      next heq =>
        cases heq
        exact absurd rfl (hne _)
      next => exact hd.cons c

/-- Looking ahead sees the brackets and the dashes of the pattern, and no other. -/
theorem peek_eq_some_iff (h : Enclosed n cs ds) (f : Flags) {c : Char} (hc : c = ']' ∨ c = '-') :
    f.peek ds = some c ↔ f.peek cs = some c := by
  have hne : c ≠ ')' := by rcases hc with rfl | rfl <;> decide
  rw [peek_eq, peek_eq]
  split
  next =>
    have ha := h.ahead
    -- Only blanks and a comment mark are passed over.
    have hfront : ∀ cs, Pattern.ahead cs = [] → cs.head? ≠ some c := by
      intro cs hcs hhead
      cases cs with
      | nil => contradiction
      | cons d cs =>
        cases hhead
        rcases hc with rfl | rfl <;> contradiction
    generalize hcs : Pattern.ahead cs = left at ha ⊢
    generalize Pattern.ahead ds = left' at ha ⊢
    cases ha with
    | swallowed => exact h.head?_eq_some_iff hne
    | closing =>
      simp [hne.symm, hfront cs hcs]
    | cons => rfl
  next => exact h.head?_eq_some_iff hne

theorem leadingDashes_of_ne {f : Flags} {k : Nat} {c : OpenClass} {cs : List Char}
    (h : cs.head? ≠ some '-') : Pattern.leadingDashes f k c cs = (c, cs) := by
  unfold Pattern.leadingDashes
  split
  · exact absurd rfl h
  · rfl

theorem leadingDashes (h : Enclosed n cs ds) (f : Flags) (c : OpenClass) {k m : Nat} (hk : n ≤ k)
    (hm : n ≤ m) : (leadingDashes f k c cs).1 = (leadingDashes f m c ds).1 ∧
      Enclosed n (leadingDashes f k c cs).2 (leadingDashes f m c ds).2 := by
  induction n using Nat.strongRecOn generalizing cs ds c k m with
  | ind n ih =>
    by_cases hd : cs.head? = some '-'
    · cases h with
      | swallowed | closing => contradiction
      | @cons n cs ds d h =>
        obtain rfl : d = '-' := Option.some.inj hd
        obtain ⟨k, rfl⟩ := Nat.exists_eq_add_of_le' (Nat.le_of_add_left_le hk)
        obtain ⟨m, rfl⟩ := Nat.exists_eq_add_of_le' (Nat.le_of_add_left_le hm)
        obtain ⟨heq, hrest⟩ := ih n (Nat.lt_succ_self n) (h.skip f) (c.add (.only '-'))
          (Nat.le_of_succ_le_succ hk) (Nat.le_of_succ_le_succ hm)
        exact ⟨heq, hrest.later⟩
    · have hd' : ds.head? ≠ some '-' := by
        cases h with
        | swallowed | closing => simp
        | cons d h => exact hd
      rw [leadingDashes_of_ne hd, leadingDashes_of_ne hd']
      exact ⟨rfl, h⟩

theorem sign (h : Enclosed n cs ds) (f : Flags) :
    (sign f cs).1 = (sign f ds).1 ∧ Enclosed n (sign f cs).2 (sign f ds).2 := by
  unfold Pattern.sign
  split
  next =>
    cases h with
    | cons _ h => exact ⟨rfl, (h.skip f).later⟩
  next hne =>
    split
    next =>
      obtain ⟨_, _, _, rfl, _⟩ := h.of_cons (c := '^') (by decide)
      exact absurd rfl (hne _)
    next => exact ⟨rfl, h⟩

theorem firstBracket (h : Enclosed n cs ds) (f : Flags) (c : OpenClass) :
    (firstBracket f c cs).1 = (firstBracket f c ds).1 ∧
      Enclosed n (firstBracket f c cs).2 (firstBracket f c ds).2 := by
  unfold Pattern.firstBracket
  cases c.members with
  | cons => exact ⟨rfl, h⟩
  | nil =>
    split
    next =>
      cases h with
      | cons _ h => exact ⟨rfl, (h.skip f).later⟩
    next hne =>
      split
      next =>
        obtain ⟨_, _, _, rfl, _⟩ := h.of_cons (c := ']') (by decide)
        exact absurd rfl (hne _ rfl)
      next => exact ⟨rfl, h⟩

theorem openClass (h : Enclosed n cs ds) (f : Flags) :
    (openClass f cs).1 = (openClass f ds).1 ∧ Enclosed n (openClass f cs).2 (openClass f ds).2 := by
  obtain ⟨hsign, hbehind⟩ := (h.skip f).sign f
  obtain ⟨hdashes, hmembers⟩ := hbehind.tight.leadingDashes f
    ⟨(Pattern.sign f (f.skip cs)).1, none, []⟩ (Nat.le_refl _) hbehind.length_le_length
  simp only [openClass_eq, ← hsign, ← hdashes]
  exact (hmembers.mono hbehind.length_le).firstBracket f _

theorem namedSet? (h : Enclosed n cs ds) (f : Flags) (negated : Bool) :
    (namedSet? f negated cs = none ∧ namedSet? f negated ds = none) ∨ ∃ set rest rest',
      namedSet? f negated cs = some (set, rest) ∧ namedSet? f negated ds = some (set, rest') ∧
        Enclosed n rest rest' := by
  have hd := h.dropWhile (· != ':')
  unfold Pattern.namedSet?
  split
  next rest heq =>
    rw [heq] at hd
    rw [h.takeWhile_eq (by rw [heq]; exact List.cons_ne_nil _ _)]
    generalize ds.dropWhile (· != ':') = left at hd ⊢
    cases hd with
    | cons _ hd =>
      cases hd with
      | cons _ hd =>
        cases CharSet.ofName? (cs.takeWhile (· != ':')) with
        | none => exact .inl ⟨rfl, rfl⟩
        | some set => exact .inr ⟨_, _, _, rfl, rfl, hd.later.later⟩
  next hne =>
    split
    next rest heq =>
      rw [heq] at hd
      obtain ⟨_, _, rfl, hcs, hd⟩ := hd.of_cons (by decide)
      obtain ⟨_, _, _, rfl, _⟩ := hd.of_cons (by decide)
      exact absurd hcs (hne _)
    next => exact .inl ⟨rfl, rfl⟩

theorem namedClass? (h : Enclosed n cs ds) (f : Flags) :
    (namedClass? f cs = none ∧ namedClass? f ds = none) ∨ ∃ set rest rest',
      namedClass? f cs = some (set, rest) ∧ namedClass? f ds = some (set, rest') ∧
        Enclosed n rest rest' := by
  cases h with
  | swallowed | closing => exact .inl ⟨rfl, rfl⟩
  | cons c h =>
    by_cases hc : c = ':'
    · subst hc
      obtain ⟨hsign, hname⟩ := h.sign {}
      rw [namedClass?_colon, namedClass?_colon, ← hsign]
      rcases hname.namedSet? f (Pattern.sign {} _).1 with h | ⟨set, rest, rest', hset, hset', hrest⟩
      · exact .inl h
      · exact .inr ⟨set, rest, rest', hset, hset', hrest.later⟩
    · left
      unfold Pattern.namedClass?
      constructor
      all_goals
        split
        next heq => exact absurd (List.cons.inj heq).1 hc
        next => rfl

theorem readMember (h : Enclosed n cs ds) (f : Flags) :
    Carries n (readMember f cs) (readMember f ds) := by
  cases h with
  | swallowed | closing => exact .error
  | cons c h =>
    by_cases hc : c = '\\'
    · subst hc
      exact (h.readEscape f).later
    · simp only [Pattern.readMember]
      exact .ok h.later

theorem readRange (h : Enclosed n cs ds) (f : Flags) :
    Carries n (readRange engine f cs) (readRange engine f ds) := by
  unfold Pattern.readRange
  refine (h.readMember f).bind fun first rest rest' hrest => ?_
  simp only
  have hs := hrest.skip f
  generalize f.skip rest = left at hs ⊢
  generalize f.skip rest' = left' at hs ⊢
  cases hs with
  | swallowed | closing => exact .error
  | @cons n cs ds d hs =>
    by_cases hd : d = '-'
    · subst hd
      have hpeek : (f.peek ds == some ']' || f.peek ds == some '-') =
          (f.peek cs == some ']' || f.peek cs == some '-') := by
        rw [Bool.eq_iff_iff]
        simp only [Bool.or_eq_true, beq_iff_eq, hs.peek_eq_some_iff f (.inl rfl),
          hs.peek_eq_some_iff f (.inr rfl)]
      simp only [hpeek]
      split
      · exact .bindAttach (f.atomSet engine first) id (hs.cons _)
      · refine (((hs.skip f).readMember f).bind fun last left left' hleft => ?_).later
        exact .bindAttach (f.rangeSet first last) id hleft
    · split
      · exact .error
      next heq => exact absurd (List.cons.inj heq).1 hd
      next =>
        split
        next heq => contradiction
        next heq => exact absurd (List.cons.inj heq).1 hd
        next => exact .bindAttach (f.atomSet engine first) id (hs.cons d)

theorem readOpenClass (h : Enclosed n cs ds) (f : Flags) (c : OpenClass) (outer : List OpenClass)
    {k m : Nat} (hm : k ≤ m) :
    Carries n (readOpenClass engine f k c outer cs) (readOpenClass engine f m c outer ds) := by
  induction k generalizing n m c outer cs ds with
  | zero => exact .error
  | succ k ih =>
    obtain ⟨m, rfl⟩ := Nat.exists_eq_add_of_le' (Nat.le_of_add_left_le hm)
    have hm := Nat.le_of_succ_le_succ hm
    have hs := h.skip f
    simp only [Pattern.readOpenClass]
    generalize f.skip cs = left at hs ⊢
    generalize f.skip ds = left' at hs ⊢
    split
    next => exact .error
    next =>
      cases hs with
      | cons _ hs =>
        rcases hs.namedClass? f with ⟨hnone, hnone'⟩ | ⟨set, rest, rest', hset, hset', hrest⟩
        · obtain ⟨hopen, hinner⟩ := hs.openClass f
          simp only [hnone, hnone', ← hopen]
          exact (ih hinner _ _ hm).later
        · simp only [hset, hset']
          cases set with
          | error => exact .error
          | ok set => exact (ih hrest _ _ hm).later
    next =>
      cases hs with
      | cons _ hs =>
        cases hclose : c.close f with
        | error => exact .error
        | ok closed =>
          cases outer with
          | nil => exact .ok hs.later
          | cons d outer => exact (ih hs _ _ hm).later
    next =>
      cases hs with
      | cons _ hs =>
        cases hs with
        | cons _ hs => exact (ih hs _ _ hm).later.later
    next =>
      cases hs with
      | cons _ hs =>
        cases hs with
        | cons _ hs => exact (ih hs _ _ hm).later.later
    next =>
      cases hs with
      | cons _ hs =>
        cases hs with
        | cons _ hs => exact (ih hs _ _ hm).later.later
    next hempty hopen hclose hand hdash htilde =>
      split
      next =>
        cases hs
        contradiction
      next =>
        obtain ⟨_, rfl⟩ := hs.of_append (l := ['[']) (by decide)
        exact absurd rfl (hopen _)
      next =>
        obtain ⟨_, rfl⟩ := hs.of_append (l := [']']) (by decide)
        exact absurd rfl (hclose _)
      next =>
        obtain ⟨_, rfl⟩ := hs.of_append (l := ['&', '&']) (by decide)
        exact absurd rfl (hand _)
      next =>
        obtain ⟨_, rfl⟩ := hs.of_append (l := ['-', '-']) (by decide)
        exact absurd rfl (hdash _)
      next =>
        obtain ⟨_, rfl⟩ := hs.of_append (l := ['~', '~']) (by decide)
        exact absurd rfl (htilde _)
      next =>
        refine (hs.readRange f).bind fun set rest rest' hrest => ?_
        exact ih hrest (c.add set) outer hm

theorem readClass (h : Enclosed n cs ds) (f : Flags) :
    Carries n (readClass engine f cs) (readClass engine f ds) := by
  unfold Pattern.readClass
  have ⟨heq, hrest⟩ := h.openClass f
  have := hrest.length_le_length
  simp only [← heq]
  exact hrest.readOpenClass f _ [] (by omega)

/-! ### Counts and groups -/

theorem readDigits_of_ne {f : Flags} {k : Nat} {cs : List Char}
    (h : ∀ c ∈ cs.head?, c.isDigit = false) : Pattern.readDigits f k cs = ([], cs) := by
  unfold Pattern.readDigits
  split
  · rw [if_neg (by simp [h _ rfl])]
  · rfl

theorem readDigits (h : Enclosed n cs ds) (f : Flags) {k m : Nat} (hk : n ≤ k) (hm : n ≤ m) :
    (readDigits f k cs).1 = (readDigits f m ds).1 ∧
      Enclosed n (readDigits f k cs).2 (readDigits f m ds).2 := by
  induction n using Nat.strongRecOn generalizing cs ds k m with
  | ind n ih =>
    cases h with
    | swallowed =>
      rw [readDigits_of_ne (by simp), readDigits_of_ne (by simp)]
      exact ⟨rfl, .swallowed⟩
    | closing =>
      rw [readDigits_of_ne (by simp), readDigits_of_ne (by simp)]
      exact ⟨rfl, .closing⟩
    | @cons n cs ds d h =>
      obtain ⟨k, rfl⟩ := Nat.exists_eq_add_of_le' (Nat.le_of_add_left_le hk)
      obtain ⟨m, rfl⟩ := Nat.exists_eq_add_of_le' (Nat.le_of_add_left_le hm)
      simp only [Pattern.readDigits]
      split
      · obtain ⟨heq, hrest⟩ := ih n (Nat.lt_succ_self n) (h.skip f)
          (Nat.le_of_succ_le_succ hk) (Nat.le_of_succ_le_succ hm)
        exact ⟨congrArg (d :: ·) heq, hrest.later⟩
      · exact ⟨rfl, h.cons d⟩

theorem readNumber (h : Enclosed n cs ds) (f : Flags) :
    Carries n (readNumber f cs) (readNumber f ds) := by
  have hd := h.dropWhile Text.isBlank
  obtain ⟨heq, hrest⟩ := hd.tight.readDigits f (Nat.le_refl _) hd.length_le_length
  unfold Pattern.readNumber
  simp only [← heq]
  split
  · exact .error
  · exact .ok ((hrest.dropWhile Text.isBlank).mono hd.length_le)

theorem readCount (h : Enclosed n cs ds) (f : Flags) :
    Carries n (readCount f cs) (readCount f ds) := by
  unfold Pattern.readCount
  refine ((h.skip f).readNumber f).bind fun least rest rest' hrest => ?_
  simp only
  split
  next =>
    cases hrest with
    | cons _ hrest => exact .ok (hrest.skip f).later
  next =>
    cases hrest with
    | cons _ hrest =>
      refine Carries.later ?_
      have hs := hrest.skip f
      simp only
      split
      next heq =>
        rw [heq] at hs
        generalize f.skip _ = left at hs ⊢
        cases hs with
        | cons _ hs => exact .ok (hs.skip f).later
      next hne =>
        split
        next heq =>
          rw [heq] at hs
          obtain ⟨_, heq⟩ := hs.of_append (l := ['\x7d']) (by decide)
          exact absurd heq (hne _)
        next =>
          refine (hs.readNumber f).bind fun most rest rest' hrest => ?_
          simp only
          split
          next =>
            cases hrest with
            | cons _ hrest =>
              simp only
              split
              · exact .ok (hrest.skip f).later
              · exact .error
          next => exact .error
  next => exact .error

theorem readFlags (h : Enclosed n cs ds) (f : Flags) (seen : List Char) :
    Carries n (readFlags f seen cs) (readFlags f seen ds) := by
  induction h generalizing f seen with
  | swallowed | closing => exact .error
  | cons c h ih =>
    simp only [Pattern.readFlags]
    split
    · split
      · exact .error
      · exact .ok (h.cons c)
    · split
      · exact .error
      · split
        · exact (ih _ _).later
        · split
          · exact (ih _ _).later
          · exact .error

theorem readGroupName (h : Enclosed n cs ds) :
    Carries n (readGroupName cs) (readGroupName ds) := by
  have hd := h.dropWhile (· != '>')
  unfold Pattern.readGroupName
  split
  next hname hrest =>
    rw [h.takeWhile_eq (by rw [hrest]; exact List.cons_ne_nil _ _), hname]
    rw [hrest] at hd
    generalize ds.dropWhile (· != '>') = left at hd ⊢
    cases hd with
    | cons _ hd =>
      simp only
      split
      · exact .ok hd.later
      · exact .error
  next => exact .error

theorem namedGroup (h : Enclosed n cs ds) (s : Progress) :
    Carries n (namedGroup s cs) (namedGroup s ds) := by
  refine h.readGroupName.bind fun name rest rest' hrest => ?_
  simp only
  split
  · exact .error
  · exact .ok hrest

theorem flagGroup (h : Enclosed n cs ds) (s : Progress) :
    Carries n (flagGroup s cs) (flagGroup s ds) := by
  have hflags := h.readFlags s.flags []
  cases h with
  | swallowed | closing => exact .error
  | cons c h =>
    refine hflags.bind fun f tail tail' htail => ?_
    cases htail with
    | swallowed | closing => exact .error
    | cons d htail =>
      by_cases hd : d = ')'
      · subst hd
        simp only
        by_cases hc : c = ')'
        · rw [if_pos (by simp [hc])]
          exact .error
        · rw [if_neg (by simpa using hc), if_neg (by simpa using hc)]
          exact .ok htail.later
      · simp only
        exact .ok htail.later

theorem readGroup (h : Enclosed n cs ds) (s : Progress) :
    Carries n (s.readGroup cs) (s.readGroup ds) := by
  have hs := h.skip s.flags
  unfold Progress.readGroup
  generalize s.flags.skip cs = left at hs ⊢
  generalize s.flags.skip ds = left' at hs ⊢
  simp only
  split
  case h_1 | h_2 | h_3 | h_4 => exact .error
  case h_5 =>
    cases hs with
    | cons _ hs =>
      cases hs with
      | cons _ hs =>
        cases hs with
        | cons _ hs => exact (hs.namedGroup s).later.later.later
  case h_6 rest hahead hbehind =>
    change Carries _ (Pattern.namedGroup s rest) _
    cases hs with
    | cons _ hs =>
      cases hs with
      | cons _ hs =>
        split
        next heq => cases heq
        next heq => cases heq
        next heq =>
          cases heq
          exact (hs.ne_append (l := ['=']) (by decide) hahead).elim
        next heq =>
          cases heq
          exact (hs.ne_append (l := ['!']) (by decide) hbehind).elim
        next heq => cases heq
        next heq =>
          cases heq
          exact (hs.namedGroup s).later.later
        next hne heq =>
          cases heq
          exact absurd rfl (hne _)
        next hne => exact absurd rfl (hne _)
  case h_7 rest hahead hnot hbehind hnotBehind hnamed hnamed' =>
    change Carries _ (Pattern.flagGroup s rest) _
    cases hs with
    | cons _ hs =>
      split
      next heq =>
        cases heq
        exact (hs.ne_append (l := ['=']) (by decide) hahead).elim
      next heq =>
        cases heq
        exact (hs.ne_append (l := ['!']) (by decide) hnot).elim
      next heq =>
        cases heq
        exact (hs.ne_append (l := ['<', '=']) (by decide) hbehind).elim
      next heq =>
        cases heq
        exact (hs.ne_append (l := ['<', '!']) (by decide) hnotBehind).elim
      next heq =>
        cases heq
        exact (hs.ne_append (l := ['P', '<']) (by decide) hnamed).elim
      next heq =>
        cases heq
        exact (hs.ne_append (l := ['<']) (by decide) hnamed').elim
      next heq =>
        cases heq
        exact (hs.flagGroup s).later
      next hne => exact absurd rfl (hne _)
  case h_8 hne =>
    cases hs with
    | swallowed => exact .ok .swallowed
    | closing => exact .ok .closing
    | cons c hs =>
      split
      case h_8 => exact .ok (hs.cons c)
      all_goals next heq =>
        cases heq
        exact absurd rfl (hne _)

theorem quantify (h : Enclosed n cs ds) (s : Progress) (count : Count) :
    Carries n (s.quantify engine count cs) (s.quantify engine count ds) := by
  unfold Progress.quantify
  split
  next =>
    cases h with
    | cons _ h => exact .attach _ id h.later
  next hne =>
    split
    next =>
      obtain ⟨_, _, _, rfl, _⟩ := h.of_cons (by decide)
      exact absurd rfl (hne _)
    next => exact .attach _ id h

theorem step (h : Enclosed n cs ds) (s : Progress) (c : Char) :
    Carries n (s.step engine c cs) (s.step engine c ds) := by
  unfold Progress.step
  split
  case h_1 => exact h.readGroup s
  case h_2 => exact .attach _ id h
  case h_3 => exact .ok h
  case h_4 => exact (h.readClass s.flags).map fun part => s.add (.ofSet part.set part.height)
  case h_5 | h_6 | h_7 => exact h.quantify s _
  case h_8 => exact (h.readCount s.flags).bind fun count _ _ hrest => hrest.quantify s count
  case h_9 =>
    refine (h.readEscape s.flags).bind fun atom rest rest' hrest => ?_
    exact .bindAttach (s.addAtom engine atom) id hrest
  case h_10 => exact .attach _ (fun set => s.add (.ofSet set 0)) h
  case h_11 => exact .ok h
  case h_12 => exact .ok h
  case h_13 => exact .attach _ id h

end Enclosed

/-! ### Groups around the pattern -/

namespace Progress

/-- The same progress inside one more group. -/
def under (s : Progress) (g : OpenGroup) : Progress := { s with outer := s.outer ++ [g] }

variable {engine : Engine} {s t : Progress} {g : OpenGroup}

@[simp] theorem under_flags : (s.under g).flags = s.flags := rfl

@[simp] theorem under_pieces : (s.under g).pieces = s.pieces := rfl

theorem addAtom_under (a : Atom) :
    (s.under g).addAtom engine a = (s.addAtom engine a).map (·.under g) := by
  cases a with
  | literal c byte =>
    simp only [addAtom, under_flags]
    cases s.flags.literal c byte <;> rfl
  | shorthand kind negated =>
    simp only [addAtom, under_flags]
    cases s.flags.shorthand kind negated <;> rfl
  | property name negated =>
    simp only [addAtom, under_flags]
    cases s.flags.property engine name negated <;> rfl
  | place p => rfl

theorem repeatLast_under (count : Count) (greedy : Bool) : (s.under g).repeatLast engine count greedy =
    (s.repeatLast engine count greedy).map (·.under g) := by
  simp only [repeatLast, under_flags, under_pieces]
  split
  · rfl
  · split
    · cases Piece.repeated engine _ count (greedy != s.flags.lazyFirst) <;> rfl
    · rfl

theorem quantify_under (count : Count) (cs : List Char) : (s.under g).quantify engine count cs =
    (s.quantify engine count cs).map fun p => (p.1.under g, p.2) := by
  simp only [quantify, repeatLast_under]
  split
  · cases s.repeatLast engine count false <;> rfl
  · cases s.repeatLast engine count true <;> rfl

theorem namedGroup_under (cs : List Char) : namedGroup (s.under g) cs =
    (namedGroup s cs).map fun p => (p.1.under g, p.2) := by
  unfold namedGroup
  cases readGroupName cs with
  | error => rfl
  | ok p =>
    change (if s.names.contains p.1 then _ else _) =
      Except.map _ (if s.names.contains p.1 then _ else _)
    split <;> rfl

theorem flagGroup_under (cs : List Char) : flagGroup (s.under g) cs =
    (flagGroup s cs).map fun p => (p.1.under g, p.2) := by
  unfold flagGroup
  rw [under_flags]
  cases readFlags s.flags [] cs with
  | error => rfl
  | ok p =>
    obtain ⟨f, tail⟩ := p
    cases tail with
    | nil => rfl
    | cons c tail =>
      by_cases hc : c = ')'
      · subst hc
        change (if cs.head? == some ')' then _ else _) =
          Except.map _ (if cs.head? == some ')' then _ else _)
        split <;> rfl
      · simp only [bind, Except.bind]
        rfl

theorem readGroup_under (cs : List Char) : (s.under g).readGroup cs =
    (s.readGroup cs).map fun p => (p.1.under g, p.2) := by
  unfold readGroup
  rw [under_flags]
  simp only
  split
  case h_5 => exact namedGroup_under _
  case h_6 => exact namedGroup_under _
  case h_7 => exact flagGroup_under _
  all_goals rfl

theorem closeGroup_under (h : s.closeGroup = .ok t) : (s.under g).closeGroup = .ok (t.under g) := by
  obtain ⟨outer, branches, pieces, flags, names⟩ := s
  cases outer with
  | nil => contradiction
  | cons o outer =>
    cases h
    rfl

/-- Only a parenthesis that closes no group of the pattern's own looks at the groups around it. -/
theorem step_under {c : Char} {cs rest : List Char} (h : s.step engine c cs = .ok (t, rest)) :
    (s.under g).step engine c cs = .ok (t.under g, rest) := by
  have hmap : c ≠ ')' → (s.under g).step engine c cs =
      (s.step engine c cs).map fun p => (p.1.under g, p.2) := by
    intro hc
    unfold step
    split
    case h_1 => exact readGroup_under cs
    case h_2 => contradiction
    case h_3 => rfl
    case h_4 =>
      rw [under_flags]
      cases readClass engine s.flags cs <;> rfl
    case h_5 | h_6 | h_7 => exact quantify_under _ cs
    case h_8 =>
      rw [under_flags]
      cases readCount s.flags cs with
      | error => rfl
      | ok p => exact quantify_under p.1 p.2
    case h_9 =>
      rw [under_flags]
      cases readEscape s.flags cs with
      | error => rfl
      | ok p =>
        change ((s.under g).addAtom engine p.1 >>= _) = _
        rw [addAtom_under]
        change _ = Except.map _ (s.addAtom engine p.1 >>= _)
        cases s.addAtom engine p.1 <;> rfl
    case h_10 =>
      rw [under_flags]
      cases s.flags.dot <;> rfl
    case h_11 => rfl
    case h_12 => rfl
    case h_13 =>
      rw [addAtom_under]
      cases s.addAtom engine _ <;> rfl
  by_cases hc : c = ')'
  · subst hc
    change s.closeGroup.map (·, cs) = _ at h
    change (s.under g).closeGroup.map (·, cs) = _
    cases hclose : s.closeGroup with
    | error =>
      rw [hclose] at h
      contradiction
    | ok u =>
      rw [hclose] at h
      cases h
      rw [closeGroup_under hclose]
      rfl
  · rw [hmap hc, h]
    rfl

theorem finish_nil (n : Nat) (s : Progress) : finish engine n s [] = .ok s := by
  cases n with
  | zero => rfl
  | succ n => rw [finish, Flags.skip_nil]

/-- At the end of the pattern the closing parenthesis behind it ends the group it stands in. -/
theorem finish_of_skip {n m : Nat} {ds left : List Char} (h : Enclosed n [] left)
    (hskip : s.flags.skip ds = left) :
    finish engine (m + 1) s ds = .ok s ∨ finish engine (m + 1) s ds = s.closeGroup := by
  rw [finish, hskip]
  cases h with
  | swallowed => exact .inl rfl
  | closing =>
    right
    change (s.closeGroup.map (·, [])) >>= _ = _
    cases s.closeGroup with
    | error => rfl
    | ok u => exact finish_nil m u

/-- A pattern that is read to its end inside a group leaves the group open, or the closing
parenthesis behind it closes it. -/
theorem finish_enclosed {n m : Nat} {cs ds : List Char} (h : Enclosed n cs ds) (hm : n ≤ m)
    (hfinish : finish engine n s cs = .ok t) :
    finish engine (m + 1) (s.under g) ds = .ok (t.under g) ∨
      finish engine (m + 1) (s.under g) ds = (t.under g).closeGroup := by
  induction n generalizing m s cs ds with
  | zero =>
    obtain rfl : cs = [] := List.eq_nil_of_length_eq_zero (Nat.le_zero.mp h.length_le)
    cases hfinish
    have hs := h.skip t.flags
    rw [Flags.skip_nil] at hs
    exact finish_of_skip hs rfl
  | succ n ih =>
    obtain ⟨m, rfl⟩ := Nat.exists_eq_add_of_le' (Nat.le_of_add_left_le hm)
    have hs := h.skip s.flags
    rw [finish] at hfinish
    cases hleft : s.flags.skip cs with
    | nil =>
      rw [hleft] at hs hfinish
      cases hfinish
      exact finish_of_skip hs rfl
    | cons c left =>
      rw [hleft] at hs hfinish
      rw [finish, under_flags]
      generalize s.flags.skip ds = left' at hs
      cases hs with
      | cons _ hs =>
        simp only at hfinish ⊢
        cases hstep : s.step engine c left with
        | error =>
          rw [hstep] at hfinish
          contradiction
        | ok p =>
          rw [hstep] at hfinish
          obtain ⟨u, rest⟩ := p
          obtain ⟨rest', hstep', hrest⟩ := hs.step s c u rest hstep
          simp only [step_under hstep']
          exact ih hrest (Nat.le_of_succ_le_succ hm) hfinish

end Progress

variable {engine : Engine}

theorem exists_of_read {cs : List Char} {r : Regex} (h : read engine cs = .ok r) :
    ∃ t, Progress.finish engine cs.length ⟨[], [], [], {}, []⟩ cs = .ok t ∧ t.outer = [] ∧
      t.value.regex = r := by
  unfold read at h
  cases ht : Progress.finish engine cs.length ⟨[], [], [], {}, []⟩ cs with
  | error =>
    rw [ht] at h
    contradiction
  | ok t =>
    rw [ht] at h
    simp only [bind, Except.bind] at h
    split at h
    next => contradiction
    next houter =>
      split at h
      next => contradiction
      next =>
        split at h
        next => contradiction
        next =>
          cases h
          exact ⟨t, rfl, by simpa using houter, rfl⟩

/-- A text that is a pattern by itself is the same pattern inside a group behind an anchor. -/
theorem read_enclosed {cs : List Char} {r R : Regex} (h : read engine cs = .ok r)
    (hR : read engine ("^(?:".toList ++ cs ++ [')']) = .ok R) : R = .seq (.here .textStart) r := by
  obtain ⟨t, hfinish, houter, rfl⟩ := exists_of_read h
  obtain ⟨u, hfinish', houter', rfl⟩ := exists_of_read hR
  -- The anchor and the opening of the group.
  let g : OpenGroup := ⟨{}, [], [.ofPlace .textStart]⟩
  have hopen : Progress.finish engine ("^(?:".toList ++ cs ++ [')']).length ⟨[], [], [], {}, []⟩
      ("^(?:".toList ++ cs ++ [')']) =
      Progress.finish engine (cs.length + 2 + 1) (Progress.under ⟨[], [], [], {}, []⟩ g)
        (cs ++ [')']) := by
    have hlength : ("^(?:".toList ++ cs ++ [')']).length = cs.length + 2 + 1 + 1 + 1 := by
      simp
    rw [hlength]
    rfl
  rw [hopen] at hfinish'
  have hcases := Progress.finish_enclosed (g := g) (.append cs) (Nat.le_add_right _ 2) hfinish
  rcases hcases with hopen | hclose
  · rw [hopen] at hfinish'
    cases hfinish'
    simp [Progress.under] at houter'
  · rw [hclose] at hfinish'
    obtain ⟨outer, branches, pieces, flags, names⟩ := t
    obtain rfl : outer = [] := houter
    cases hfinish'
    rfl

end FilterLang.Pattern
