import FilterLang.Proofs.DefaultName

/-! Engines that know more. An engine with more properties and more room reads every pattern that the
smaller one reads, and reads it alike (`Knows.read`): the engine is asked only for properties and for
room, and each answer the smaller one gives the larger one gives too. So the default pattern, which
names no property, is what any engine with as much room as the plain one makes of its text
(`ofString_defaultSource`). -/
namespace FilterLang

/-- The larger engine has the properties of the smaller one and at least its room. Its messages may be
others. -/
structure Engine.Knows (large small : Engine) : Prop where
  property : ∀ name set, small.property? name = some set → large.property? name = some set
  room : small.room ≤ large.room

theorem Engine.knows_plain {engine : Engine} (h : Engine.plain.room ≤ engine.room) :
    engine.Knows .plain where
  property _ _ hset := nomatch hset
  room := h

/-- What the first result gives the second gives too. -/
def Keeps {ε α : Type} (x y : Except ε α) : Prop := ∀ a, x = .ok a → y = .ok a

namespace Keeps

variable {ε α β : Type} {x y : Except ε α}

theorem refl (x : Except ε α) : Keeps x x := fun _ h => h

theorem error {e : ε} : Keeps (.error e) y := by
  intro a h
  contradiction

theorem bind {k l : α → Except ε β} (h : Keeps x y) (hk : ∀ a, Keeps (k a) (l a)) :
    Keeps (x >>= k) (y >>= l) := by
  intro b hb
  cases hx : x with
  | error e =>
    rw [hx] at hb
    contradiction
  | ok a =>
    rw [hx] at hb
    rw [h a hx]
    exact hk a b hb

theorem map (f : α → β) (h : Keeps x y) : Keeps (x.map f) (y.map f) := by
  intro b hb
  cases hx : x with
  | error e =>
    rw [hx] at hb
    contradiction
  | ok a =>
    rw [hx] at hb
    rw [h a hx]
    exact hb

end Keeps

theorem Engine.Knows.room_keeps {large small : Engine} (h : large.Knows small) {ε α : Type}
    (weight : Nat) (e : ε) (x : Except ε α) :
    Keeps (if small.room < weight then .error e else x)
      (if large.room < weight then .error e else x) := by
  split
  next => exact .error
  next hroom =>
    rw [if_neg fun hlt => hroom (Nat.lt_of_le_of_lt h.room hlt)]
    exact .refl _

namespace Pattern

variable {large small : Engine}

theorem Flags.property_keeps (h : large.Knows small) (f : Flags) (name : List Char) (negated : Bool) :
    Keeps (f.property small name negated) (f.property large name negated) := by
  unfold Flags.property
  split
  · cases hset : small.property? name with
    | none => exact .error
    | some set =>
      rw [h.property name set hset]
      exact .refl _
  · exact .error

theorem Flags.atomSet_keeps (h : large.Knows small) (f : Flags) (a : Atom) :
    Keeps (f.atomSet small a) (f.atomSet large a) := by
  cases a with
  | property name negated => exact f.property_keeps h name negated
  | literal | shorthand | place => exact .refl _

theorem readRange_keeps (h : large.Knows small) (f : Flags) (cs : List Char) :
    Keeps (readRange small f cs) (readRange large f cs) := by
  refine .bind (.refl _) fun p => ?_
  obtain ⟨first, rest⟩ := p
  have hset := f.atomSet_keeps h first
  simp only
  split
  · exact .error
  · split
    · exact hset.bind fun _ => .refl _
    · exact .refl _
  · exact hset.bind fun _ => .refl _

theorem readOpenClass_keeps (h : large.Knows small) (f : Flags) (n : Nat) (c : OpenClass)
    (outer : List OpenClass) (cs : List Char) :
    Keeps (readOpenClass small f n c outer cs) (readOpenClass large f n c outer cs) := by
  induction n generalizing c outer cs with
  | zero => exact .error
  | succ n ih =>
    unfold readOpenClass
    split
    · exact .error
    · split
      · exact .bind (.refl _) fun _ => ih _ _ _
      · exact ih _ _ _
    · refine .bind (.refl _) fun closed => ?_
      cases outer with
      | nil => exact .refl _
      | cons d outer => exact ih _ _ _
    · exact ih _ _ _
    · exact ih _ _ _
    · exact ih _ _ _
    · exact (readRange_keeps h f _).bind fun _ => ih _ _ _

namespace Progress

theorem repeatLast_keeps (h : large.Knows small) (s : Progress) (count : Count) (greedy : Bool) :
    Keeps (s.repeatLast small count greedy) (s.repeatLast large count greedy) := by
  unfold repeatLast
  split
  · exact .error
  · split
    · exact .bind (h.room_keeps _ _ _) fun _ => .refl _
    · exact .error

theorem quantify_keeps (h : large.Knows small) (s : Progress) (count : Count) (cs : List Char) :
    Keeps (s.quantify small count cs) (s.quantify large count cs) := by
  unfold quantify
  split
  · exact (s.repeatLast_keeps h count false).map _
  · exact (s.repeatLast_keeps h count true).map _

theorem addAtom_keeps (h : large.Knows small) (s : Progress) (a : Atom) :
    Keeps (s.addAtom small a) (s.addAtom large a) := by
  cases a with
  | property name negated => exact (s.flags.property_keeps h name negated).map _
  | literal | shorthand | place => exact .refl _

theorem step_keeps (h : large.Knows small) (s : Progress) (c : Char) (cs : List Char) :
    Keeps (s.step small c cs) (s.step large c cs) := by
  unfold step
  split
  case h_4 => exact (readOpenClass_keeps h s.flags _ _ [] _).map _
  case h_5 | h_6 | h_7 => exact s.quantify_keeps h _ cs
  case h_8 => exact .bind (.refl _) fun _ => s.quantify_keeps h _ _
  case h_9 => exact .bind (.refl _) fun _ => (s.addAtom_keeps h _).bind fun _ => .refl _
  case h_13 => exact (s.addAtom_keeps h _).map _
  all_goals exact .refl _

theorem finish_keeps (h : large.Knows small) (n : Nat) (s : Progress) (cs : List Char) :
    Keeps (finish small n s cs) (finish large n s cs) := by
  induction n generalizing s cs with
  | zero => exact .refl _
  | succ n ih =>
    unfold finish
    split
    · exact .refl _
    · exact (s.step_keeps h _ _).bind fun _ => ih _ _

end Progress

end Pattern

namespace Engine.Knows

variable {large small : Engine}

/-- The larger engine reads what the smaller one reads, and to the same regular expression. -/
theorem read (h : large.Knows small) (cs : List Char) :
    Keeps (Pattern.read small cs) (Pattern.read large cs) := by
  refine (Pattern.Progress.finish_keeps h _ _ cs).bind fun s => ?_
  simp only
  split
  · exact .error
  · split
    · exact .error
    · exact h.room_keeps _ _ _

theorem ofString (h : large.Knows small) {source : String} {p : VariablePattern}
    (hp : VariablePattern.ofString source small = .ok p) :
    VariablePattern.ofString source large = .ok p := by
  obtain ⟨rfl, hregex⟩ := VariablePattern.ofString_eq_ok hp
  have hlarge : VariablePattern.regexOf large p.source = .ok p.regex := h.read _ _ hregex
  exact VariablePattern.ofString_of_regexOf (by rw [hlarge]; rfl)

end Engine.Knows

namespace VariablePattern

/-- Every engine with the plain one's room makes the default pattern of its text. -/
theorem ofString_defaultSource {engine : Engine} (h : Engine.plain.room ≤ engine.room) :
    ofString defaultSource engine = .ok .default := by
  refine (Engine.knows_plain h).ofString ?_
  rw [ofString_of_regexOf regexOf_defaultSource, default, regexOf_defaultSource, Option.getD_some]

end VariablePattern

end FilterLang
