import FilterLang.Pattern.Regex

/-! What a regular expression matches, and what a search finds. `Matches` gives the text that an
expression stands for between a character before it and the text behind it. The moves of an
expression take one character off what it matches (`matchesAll_cons_iff`), so a search that may only
begin at the start of the text finds a match there if there is one, and nothing else. -/
namespace FilterLang.Regex

/-- The character before what follows `u`, where `b` stands before `u`. -/
def lastOf : Option Char → List Char → Option Char
  | b, [] => b
  | _, c :: u => lastOf (some c) u

@[simp] theorem lastOf_nil (b : Option Char) : lastOf b [] = b := rfl

@[simp] theorem lastOf_cons (b : Option Char) (c : Char) (u : List Char) :
    lastOf b (c :: u) = lastOf (some c) u := rfl

theorem lastOf_append (b : Option Char) (u w : List Char) :
    lastOf b (u ++ w) = lastOf (lastOf b u) w := by
  induction u generalizing b with
  | nil => rfl
  | cons c u ih => simp [ih]

/-- `r.Matches b u v`: between the character `b` and the text `v` the expression matches `u`. -/
inductive Matches : Regex → Option Char → List Char → List Char → Prop where
  | empty {b : Option Char} {v : List Char} : Matches .empty b [] v
  | char {set : CharSet} {c : Char} {b : Option Char} {v : List Char} (h : set.contains c) :
      Matches (.char set) b [c] v
  | here {p : Place} {b : Option Char} {v : List Char} (h : p.holds ⟨b, v.head?⟩) :
      Matches (.here p) b [] v
  | seq {r s : Regex} {b : Option Char} {u w v : List Char} (hr : Matches r b u (w ++ v))
      (hs : Matches s (lastOf b u) w v) : Matches (.seq r s) b (u ++ w) v
  | left {r s : Regex} {b : Option Char} {u v : List Char} (h : Matches r b u v) :
      Matches (.alt r s) b u v
  | right {r s : Regex} {b : Option Char} {u v : List Char} (h : Matches s b u v) :
      Matches (.alt r s) b u v
  | plus {greedy : Bool} {r : Regex} {b : Option Char} {u w v : List Char}
      (hr : Matches r b u (w ++ v)) (hm : Matches (.more greedy r) (lastOf b u) w v) :
      Matches (.plus greedy r) b (u ++ w) v
  | stop {greedy : Bool} {r : Regex} {b : Option Char} {v : List Char} :
      Matches (.more greedy r) b [] v
  | round {greedy : Bool} {r : Regex} {b : Option Char} {u w v : List Char} (hu : u ≠ [])
      (hr : Matches r b u (w ++ v)) (hm : Matches (.more greedy r) (lastOf b u) w v) :
      Matches (.more greedy r) b (u ++ w) v

/-- A list of expressions matches one after another. -/
def MatchesAll : List Regex → Option Char → List Char → List Char → Prop
  | [], _, u, _ => u = []
  | r :: rs, b, u, v =>
    ∃ u₁ u₂, u = u₁ ++ u₂ ∧ r.Matches b u₁ (u₂ ++ v) ∧ MatchesAll rs (lastOf b u₁) u₂ v

theorem matchesAll_append {rs ss : List Regex} {b : Option Char} {u v : List Char} :
    MatchesAll (rs ++ ss) b u v ↔ ∃ u₁ u₂, u = u₁ ++ u₂ ∧ MatchesAll rs b u₁ (u₂ ++ v) ∧
      MatchesAll ss (lastOf b u₁) u₂ v := by
  induction rs generalizing b u with
  | nil =>
    constructor
    · intro h
      exact ⟨[], u, rfl, rfl, h⟩
    · rintro ⟨_, u₂, rfl, rfl, h⟩
      exact h
  | cons r rs ih =>
    constructor
    · rintro ⟨u₁, _, rfl, hr, hrest⟩
      obtain ⟨u₂, u₃, rfl, hrs, hss⟩ := ih.mp hrest
      refine ⟨u₁ ++ u₂, u₃, by simp, ⟨u₁, u₂, rfl, by simpa using hr, hrs⟩, ?_⟩
      rwa [lastOf_append]
    · rintro ⟨_, u₃, rfl, ⟨u₁, u₂, rfl, hr, hrs⟩, hss⟩
      rw [lastOf_append] at hss
      exact ⟨u₁, u₂ ++ u₃, by simp, by simpa using hr, ih.mpr ⟨u₂, u₃, rfl, hrs, hss⟩⟩

/-! ### Moves -/

/-- Whether the expression matches nothing at the spot. -/
def emptyAt (s : Spot) : Regex → Bool
  | empty => true
  | char _ => false
  | here p => p.holds s
  | seq a b => a.emptyAt s && b.emptyAt s
  | alt a b => a.emptyAt s || b.emptyAt s
  | plus _ r => r.emptyAt s
  | more _ _ => true

/-- At the spot the expression may read a character of the set and is left with the rest. -/
inductive Leads (s : Spot) : Regex → CharSet → List Regex → Prop where
  | char {set : CharSet} : Leads s (.char set) set []
  | first {a b : Regex} {set : CharSet} {rest : List Regex} (h : Leads s a set rest) :
      Leads s (.seq a b) set (rest ++ [b])
  | second {a b : Regex} {set : CharSet} {rest : List Regex} (ha : a.emptyAt s)
      (h : Leads s b set rest) : Leads s (.seq a b) set rest
  | left {a b : Regex} {set : CharSet} {rest : List Regex} (h : Leads s a set rest) :
      Leads s (.alt a b) set rest
  | right {a b : Regex} {set : CharSet} {rest : List Regex} (h : Leads s b set rest) :
      Leads s (.alt a b) set rest
  | plus {greedy : Bool} {r : Regex} {set : CharSet} {rest : List Regex} (h : Leads s r set rest) :
      Leads s (.plus greedy r) set (rest ++ [.more greedy r])
  | more {greedy : Bool} {r : Regex} {set : CharSet} {rest : List Regex} (h : Leads s r set rest) :
      Leads s (.more greedy r) set (rest ++ [.more greedy r])

theorem mem_merge {xs ys : List Move} {m : Move} : m ∈ merge xs ys ↔ m ∈ xs ∨ m ∈ ys := by
  simp only [merge, List.mem_append, List.mem_filter, Bool.not_eq_true', List.contains_eq_mem,
    decide_eq_false_iff_not]
  constructor
  · rintro (h | ⟨h, -⟩)
    · exact .inl h
    · exact .inr h
  · rintro (h | h)
    · exact .inl h
    · by_cases hx : m ∈ xs
      · exact .inl hx
      · exact .inr ⟨h, hx⟩

/-- The moves of an expression are those behind it, if it can be passed over, and its own. -/
theorem mem_moves {s : Spot} {r : Regex} {next : List Regex} {after : Thunk (List Move)} {m : Move} :
    m ∈ r.moves s next after ↔ (r.emptyAt s ∧ m ∈ after.get) ∨
      ∃ set rest, Leads s r set rest ∧ m = .read set (rest ++ next) := by
  induction r generalizing next after with
  | empty =>
    simp only [moves, emptyAt, true_and]
    constructor
    · exact .inl
    · rintro (h | ⟨_, _, ⟨⟩, _⟩)
      exact h
  | char set =>
    simp only [moves, List.mem_singleton, emptyAt, Bool.false_eq_true, false_and, false_or]
    constructor
    · rintro rfl
      exact ⟨set, [], .char, rfl⟩
    · rintro ⟨_, _, ⟨⟩, rfl⟩
      rfl
  | here p =>
    simp only [moves, emptyAt]
    constructor
    · intro h
      split at h
      next hp => exact .inl ⟨hp, h⟩
      next => contradiction
    · rintro (⟨hp, h⟩ | ⟨_, _, ⟨⟩, _⟩)
      rwa [if_pos hp]
  | seq a b iha ihb =>
    rw [moves, iha]
    change _ ∧ m ∈ b.moves s next after ∨ _ ↔ _
    rw [ihb, emptyAt, Bool.and_eq_true]
    constructor
    · rintro (⟨ha, ⟨hb, h⟩ | ⟨set, rest, hl, rfl⟩⟩ | ⟨set, rest, hl, rfl⟩)
      · exact .inl ⟨⟨ha, hb⟩, h⟩
      · exact .inr ⟨set, rest, .second ha hl, rfl⟩
      · exact .inr ⟨set, rest ++ [b], .first hl, by simp⟩
    · rintro (⟨⟨ha, hb⟩, h⟩ | ⟨set, rest, hl, rfl⟩)
      · exact .inl ⟨ha, .inl ⟨hb, h⟩⟩
      · cases hl with
        | first hl => exact .inr ⟨set, _, hl, by simp⟩
        | second ha hl => exact .inl ⟨ha, .inr ⟨set, rest, hl, rfl⟩⟩
  | alt a b iha ihb =>
    rw [moves, mem_merge, iha, ihb, emptyAt, Bool.or_eq_true]
    constructor
    · rintro ((⟨ha, h⟩ | ⟨set, rest, hl, rfl⟩) | (⟨hb, h⟩ | ⟨set, rest, hl, rfl⟩))
      · exact .inl ⟨.inl ha, h⟩
      · exact .inr ⟨set, rest, .left hl, rfl⟩
      · exact .inl ⟨.inr hb, h⟩
      · exact .inr ⟨set, rest, .right hl, rfl⟩
    · rintro (⟨ha | hb, h⟩ | ⟨set, rest, hl, rfl⟩)
      · exact .inl (.inl ⟨ha, h⟩)
      · exact .inr (.inl ⟨hb, h⟩)
      · cases hl with
        | left hl => exact .inl (.inr ⟨set, rest, hl, rfl⟩)
        | right hl => exact .inr (.inr ⟨set, rest, hl, rfl⟩)
  | plus greedy r ih =>
    rw [moves, ih, emptyAt]
    constructor
    · rintro (h | ⟨set, rest, hl, rfl⟩)
      · exact .inl h
      · exact .inr ⟨set, rest ++ [.more greedy r], .plus hl, by simp⟩
    · rintro (h | ⟨set, rest, hl, rfl⟩)
      · exact .inl h
      · cases hl with
        | plus hl => exact .inr ⟨set, _, hl, by simp⟩
  | more greedy r ih =>
    have hround : m ∈ r.moves s (more greedy r :: next) ⟨fun _ => []⟩ ↔
        ∃ set rest, Leads s (more greedy r) set rest ∧ m = .read set (rest ++ next) := by
      rw [ih]
      constructor
      · rintro (⟨-, h⟩ | ⟨set, rest, hl, rfl⟩)
        · exact absurd h (List.not_mem_nil)
        · exact ⟨set, rest ++ [.more greedy r], .more hl, by simp⟩
      · rintro ⟨set, rest, hl, rfl⟩
        cases hl with
        | more hl => exact .inr ⟨set, _, hl, by simp⟩
    have hmem : m ∈ (more greedy r).moves s next after ↔
        m ∈ r.moves s (more greedy r :: next) ⟨fun _ => []⟩ ∨ m ∈ after.get := by
      rw [moves]
      cases greedy
      · simp only [Bool.false_eq_true, if_false, mem_merge]
        exact or_comm
      · simp only [if_true, mem_merge]
    rw [hmem, hround, emptyAt, or_comm]
    simp only [true_and]

theorem matches_nil_iff {r : Regex} {b : Option Char} {v : List Char} :
    r.Matches b [] v ↔ r.emptyAt ⟨b, v.head?⟩ := by
  constructor
  · intro h
    generalize hu : [] = u at h
    induction h with
    | empty => rfl
    | char => contradiction
    | here h => exact h
    | seq hr hs ihr ihs =>
      obtain ⟨rfl, rfl⟩ := List.append_eq_nil_iff.mp hu.symm
      simpa [emptyAt] using ⟨ihr rfl, ihs rfl⟩
    | left _ ih => simp [emptyAt, ih hu]
    | right _ ih => simp [emptyAt, ih hu]
    | plus hr _ ihr _ =>
      obtain ⟨rfl, rfl⟩ := List.append_eq_nil_iff.mp hu.symm
      exact ihr rfl
    | stop => rfl
    | round => rfl
  · intro h
    induction r with
    | empty => exact .empty
    | char => contradiction
    | here p => exact .here h
    | seq a c iha ihc =>
      rw [emptyAt, Bool.and_eq_true] at h
      exact Matches.seq (u := []) (w := []) (iha h.1) (ihc h.2)
    | alt a c iha ihc =>
      rw [emptyAt, Bool.or_eq_true] at h
      rcases h with h | h
      · exact .left (iha h)
      · exact .right (ihc h)
    | plus greedy r ih => exact Matches.plus (u := []) (w := []) (ih h) .stop
    | more => exact .stop

/-- What is left of an expression after its first character matches the rest of its text. -/
theorem Matches.leads {r : Regex} {b : Option Char} {c : Char} {u v : List Char}
    (h : r.Matches b (c :: u) v) : ∃ set rest, Leads ⟨b, some c⟩ r set rest ∧ set.contains c ∧
      MatchesAll rest (some c) u v := by
  generalize hcu : c :: u = cu at h
  induction h generalizing u with
  | empty => contradiction
  | here => contradiction
  | stop => contradiction
  | @char set d _ _ h =>
    cases hcu
    exact ⟨set, [], .char, h, rfl⟩
  | @seq r s b u₁ u₂ v hr hs ihr ihs =>
    cases u₁ with
    | nil =>
      rw [List.nil_append] at hcu
      subst hcu
      obtain ⟨set, rest, hl, hc, hm⟩ := ihs rfl
      exact ⟨set, rest, .second (matches_nil_iff.mp hr) hl, hc, hm⟩
    | cons d u₁ =>
      cases hcu
      obtain ⟨set, rest, hl, hc, hm⟩ := ihr rfl
      refine ⟨set, rest ++ [s], .first hl, hc, matchesAll_append.mpr ⟨u₁, u₂, rfl, hm, ?_⟩⟩
      exact ⟨u₂, [], by simp, by simpa using hs, rfl⟩
  | left _ ih =>
    obtain ⟨set, rest, hl, hc, hm⟩ := ih hcu
    exact ⟨set, rest, .left hl, hc, hm⟩
  | right _ ih =>
    obtain ⟨set, rest, hl, hc, hm⟩ := ih hcu
    exact ⟨set, rest, .right hl, hc, hm⟩
  | @plus greedy r b u₁ u₂ v _ hm ihr ihm =>
    cases u₁ with
    | nil =>
      obtain ⟨set, rest, hl, hc, hrest⟩ := ihm hcu
      cases hl with
      | more hl => exact ⟨set, _, .plus hl, hc, hrest⟩
    | cons d u₁ =>
      cases hcu
      obtain ⟨set, rest, hl, hc, hrest⟩ := ihr rfl
      refine ⟨set, _, .plus hl, hc, matchesAll_append.mpr ⟨u₁, u₂, rfl, hrest, ?_⟩⟩
      exact ⟨u₂, [], by simp, by simpa using hm, rfl⟩
  | @round greedy r b u₁ u₂ v hne _ hm ihr _ =>
    cases u₁ with
    | nil => contradiction
    | cons d u₁ =>
      cases hcu
      obtain ⟨set, rest, hl, hc, hrest⟩ := ihr rfl
      refine ⟨set, _, .more hl, hc, matchesAll_append.mpr ⟨u₁, u₂, rfl, hrest, ?_⟩⟩
      exact ⟨u₂, [], by simp, by simpa using hm, rfl⟩

theorem matchesAll_singleton {r : Regex} {b : Option Char} {u v : List Char} :
    MatchesAll [r] b u v ↔ r.Matches b u v := by
  constructor
  · rintro ⟨u₁, _, rfl, h, rfl⟩
    simpa using h
  · intro h
    exact ⟨u, [], by simp, by simpa using h, rfl⟩

theorem Leads.matches {r : Regex} {b : Option Char} {c : Char} {u v : List Char} {set : CharSet}
    {rest : List Regex} (h : Leads ⟨b, some c⟩ r set rest) (hc : set.contains c)
    (hm : MatchesAll rest (some c) u v) : r.Matches b (c :: u) v := by
  induction h generalizing u v with
  | char =>
    obtain rfl : u = [] := hm
    exact .char hc
  | first _ ih =>
    obtain ⟨u₁, u₂, rfl, hfirst, hlast⟩ := matchesAll_append.mp hm
    exact .seq (ih hc hfirst) (matchesAll_singleton.mp hlast)
  | second ha _ ih => exact Matches.seq (u := []) (matches_nil_iff.mpr ha) (ih hc hm)
  | left _ ih => exact .left (ih hc hm)
  | right _ ih => exact .right (ih hc hm)
  | plus _ ih =>
    obtain ⟨u₁, u₂, rfl, hfirst, hlast⟩ := matchesAll_append.mp hm
    exact .plus (ih hc hfirst) (matchesAll_singleton.mp hlast)
  | more _ ih =>
    obtain ⟨u₁, u₂, rfl, hfirst, hlast⟩ := matchesAll_append.mp hm
    exact .round (List.cons_ne_nil _ _) (ih hc hfirst) (matchesAll_singleton.mp hlast)

/-! ### Threads -/

/-- The moves of a thread are acceptance, if it can be passed over, and those of its expressions. -/
theorem accept_mem_threadMoves {b : Option Char} {rs : List Regex} {v : List Char} :
    .accept ∈ threadMoves ⟨b, v.head?⟩ rs ↔ MatchesAll rs b [] v := by
  induction rs with
  | nil => simp [threadMoves, MatchesAll]
  | cons r rs ih =>
    rw [threadMoves, mem_moves]
    change _ ∧ .accept ∈ threadMoves ⟨b, v.head?⟩ rs ∨ _ ↔ _
    rw [ih]
    constructor
    · rintro (⟨hr, hrs⟩ | ⟨_, _, _, ⟨⟩⟩)
      exact ⟨[], [], rfl, matches_nil_iff.mpr hr, hrs⟩
    · rintro ⟨u₁, u₂, hu, hr, hrs⟩
      obtain ⟨rfl, rfl⟩ := List.append_eq_nil_iff.mp hu.symm
      exact .inl ⟨matches_nil_iff.mp hr, hrs⟩

theorem matchesAll_cons_iff {b : Option Char} {rs : List Regex} {c : Char} {u v : List Char} :
    MatchesAll rs b (c :: u) v ↔ ∃ set next, .read set next ∈ threadMoves ⟨b, some c⟩ rs ∧
      set.contains c ∧ MatchesAll next (some c) u v := by
  induction rs generalizing u with
  | nil => simp [threadMoves, MatchesAll]
  | cons r rs ih =>
    constructor
    · rintro ⟨u₁, u₂, hu, hr, hrs⟩
      cases u₁ with
      | nil =>
        rw [List.nil_append] at hu
        subst hu
        obtain ⟨set, next, hmem, hc, hm⟩ := ih.mp hrs
        exact ⟨set, next, mem_moves.mpr (.inl ⟨matches_nil_iff.mp hr, hmem⟩), hc, hm⟩
      | cons d u₁ =>
        cases hu
        obtain ⟨set, rest, hl, hc, hm⟩ := hr.leads
        exact ⟨set, rest ++ rs, mem_moves.mpr (.inr ⟨set, rest, hl, rfl⟩), hc,
          matchesAll_append.mpr ⟨u₁, u₂, rfl, hm, hrs⟩⟩
    · rintro ⟨set, next, hmem, hc, hm⟩
      rcases mem_moves.mp hmem with ⟨hr, hrs⟩ | ⟨_, rest, hl, heq⟩
      · exact ⟨[], c :: u, rfl, matches_nil_iff.mpr hr, ih.mpr ⟨set, next, hrs, hc, hm⟩⟩
      · cases heq
        obtain ⟨u₁, u₂, rfl, hfirst, hlast⟩ := matchesAll_append.mp hm
        exact ⟨c :: u₁, u₂, rfl, hl.matches hc hfirst, hlast⟩

theorem mem_allMoves {s : Spot} {threads : List (List Regex)} {m : Move} :
    m ∈ allMoves s threads ↔ ∃ rs ∈ threads, m ∈ threadMoves s rs := by
  have hfold : ∀ (threads : List (List Regex)) (seen : List Move),
      m ∈ threads.foldl (fun seen thread => merge seen (threadMoves s thread)) seen ↔
        m ∈ seen ∨ ∃ rs ∈ threads, m ∈ threadMoves s rs := by
    intro threads
    induction threads with
    | nil => simp
    | cons rs threads ih =>
      intro seen
      rw [List.foldl_cons, ih, mem_merge]
      simp [or_assoc]
  rw [allMoves, hfold]
  simp

theorem exists_of_mem_follow {c : Char} {ms : List Move} {next : List Regex}
    (h : next ∈ follow c ms) : ∃ set, .read set next ∈ ms ∧ set.contains c := by
  induction ms with
  | nil => contradiction
  | cons m ms ih =>
    cases m with
    | accept => contradiction
    | read set rest =>
      rw [follow] at h
      split at h
      next hc =>
        rcases List.mem_cons.mp h with rfl | h
        · exact ⟨set, by simp, hc⟩
        · obtain ⟨set', hmem, hc'⟩ := ih h
          exact ⟨set', by simp [hmem], hc'⟩
      next =>
        obtain ⟨set', hmem, hc'⟩ := ih h
        exact ⟨set', by simp [hmem], hc'⟩

/-- Without an acceptance no move is given up. -/
theorem mem_follow {c : Char} {ms : List Move} {set : CharSet} {next : List Regex}
    (ha : .accept ∉ ms) (h : .read set next ∈ ms) (hc : set.contains c) : next ∈ follow c ms := by
  induction ms with
  | nil => contradiction
  | cons m ms ih =>
    cases m with
    | accept => exact absurd (by simp) ha
    | read set' rest =>
      have hrest : .accept ∉ ms := fun h => ha (by simp [h])
      rw [follow]
      rcases List.mem_cons.mp h with heq | h
      · cases heq
        simp [hc]
      · split
        · exact List.mem_cons_of_mem _ (ih hrest h)
        · exact ih hrest h

/-! ### Where a match begins -/

/-- What a run finds is a match of one of its threads, or of the expression from a later place if
the run may restart. -/
theorem exists_of_run {r : Regex} {restart : Bool} {b : Option Char} {threads : List (List Regex)}
    {best : Option Nat} {count n : Nat} {cs : List Char}
    (h : run r restart b threads best count cs = some n) : best = some n ∨
      (∃ rs ∈ threads, ∃ u v, cs = u ++ v ∧ MatchesAll rs b u v ∧ n = count + u.length) ∨
      (restart ∧ ∃ a u v, cs = a ++ u ++ v ∧ r.Matches (lastOf b a) u v ∧
        n = count + (a ++ u).length) := by
  induction cs generalizing b threads best count with
  | nil =>
    rw [run] at h
    split at h
    next ha =>
      cases h
      obtain ⟨rs, hrs, hacc⟩ := mem_allMoves.mp (List.contains_iff_mem.mp ha)
      exact .inr (.inl ⟨rs, hrs, [], [], rfl, accept_mem_threadMoves.mp hacc, rfl⟩)
    next => exact .inl h
  | cons c cs ih =>
    simp only [run] at h
    generalize hbest' : (if (allMoves ⟨b, some c⟩ threads).contains .accept then some count
      else best) = best' at h
    generalize hleft : (if restart && best'.isNone then
      follow c (allMoves ⟨b, some c⟩ threads) ++ [[r]]
      else follow c (allMoves ⟨b, some c⟩ threads)) = left at h
    -- What is best behind this place was so before or is an acceptance here.
    have hbest : ∀ m, best' = some m → best = some m ∨ ∃ rs ∈ threads, ∃ u v, c :: cs = u ++ v ∧
        MatchesAll rs b u v ∧ m = count + u.length := by
      intro m hm
      rw [← hbest'] at hm
      split at hm
      next ha =>
        cases hm
        obtain ⟨rs, hrs, hacc⟩ := mem_allMoves.mp (List.contains_iff_mem.mp ha)
        exact .inr ⟨rs, hrs, [], c :: cs, rfl,
          accept_mem_threadMoves (v := c :: cs).mp hacc, rfl⟩
      next => exact .inl hm
    -- A thread behind this place goes on with one from before or is the restarted expression.
    have hthread : ∀ rs ∈ left, rs ∈ follow c (allMoves ⟨b, some c⟩ threads) ∨
        (restart ∧ rs = [r]) := by
      intro rs hrs
      rw [← hleft] at hrs
      split at hrs
      next hr =>
        rcases List.mem_append.mp hrs with hrs | hrs
        · exact .inl hrs
        · exact .inr ⟨(Bool.and_eq_true_iff.mp hr).1, List.mem_singleton.mp hrs⟩
      next => exact .inl hrs
    split at h
    next => exact (hbest n h).imp_right .inl
    next =>
      rcases ih h with hb | ⟨next, hnext, u, v, rfl, hm, rfl⟩ | ⟨hr, a, u, v, rfl, hm, rfl⟩
      · exact (hbest n hb).imp_right .inl
      · rcases hthread next hnext with hnext | ⟨hr, rfl⟩
        · obtain ⟨set, hmem, hc⟩ := exists_of_mem_follow hnext
          obtain ⟨rs, hrs, hmove⟩ := mem_allMoves.mp hmem
          refine .inr (.inl ⟨rs, hrs, c :: u, v, rfl,
            matchesAll_cons_iff.mpr ⟨set, next, hmove, hc, hm⟩, ?_⟩)
          simp only [List.length_cons]
          omega
        · refine .inr (.inr ⟨hr, [c], u, v, rfl, matchesAll_singleton.mp hm, ?_⟩)
          simp only [List.cons_append, List.nil_append, List.length_cons]
          omega
      · refine .inr (.inr ⟨hr, c :: a, u, v, rfl, hm, ?_⟩)
        simp only [List.cons_append, List.length_cons]
        omega

/-- A run finds something if it had found something or a thread matches. -/
theorem run_isSome {r : Regex} {b : Option Char} {threads : List (List Regex)}
    {best : Option Nat} {count : Nat} {cs : List Char} (h : best.isSome ∨
      ∃ rs ∈ threads, ∃ u v, cs = u ++ v ∧ MatchesAll rs b u v) :
    (run r false b threads best count cs).isSome := by
  induction cs generalizing b threads best count with
  | nil =>
    rw [run]
    split
    next => rfl
    next ha =>
      rcases h with h | ⟨rs, hrs, u, v, huv, hm⟩
      · exact h
      · obtain ⟨rfl, rfl⟩ := List.append_eq_nil_iff.mp huv.symm
        have hacc := mem_allMoves.mpr ⟨rs, hrs, accept_mem_threadMoves.mpr hm⟩
        exact absurd (List.contains_iff_mem.mpr hacc) ha
  | cons c cs ih =>
    simp only [run, Bool.false_and, Bool.false_eq_true, if_false]
    by_cases ha : .accept ∈ allMoves ⟨b, some c⟩ threads
    · rw [if_pos (List.contains_iff_mem.mpr ha)]
      split
      · rfl
      · exact ih (.inl rfl)
    · rw [if_neg (fun h => ha (List.contains_iff_mem.mp h))]
      rcases h with h | ⟨rs, hrs, u, v, huv, hm⟩
      · split
        · exact h
        · exact ih (.inl h)
      · cases u with
        | nil =>
          have hv : v = c :: cs := huv.symm
          subst hv
          exact absurd (mem_allMoves.mpr ⟨rs, hrs, accept_mem_threadMoves.mpr hm⟩) ha
        | cons d u =>
          cases huv
          obtain ⟨set, next, hmove, hc, hnext⟩ := matchesAll_cons_iff.mp hm
          have hmem := mem_follow ha (mem_allMoves.mpr ⟨rs, hrs, hmove⟩) hc
          rw [if_neg (by rw [List.isEmpty_iff]; exact List.ne_nil_of_mem hmem)]
          exact ih (.inr ⟨next, hmem, u, v, rfl, hnext⟩)

/-- A search finds a match that begins somewhere in the text, and an expression with an anchor in
front only at its start. -/
theorem begins_of_search {r : Regex} {cs : List Char} {n : Nat} (h : r.search cs = some n) :
    ∃ a u v, cs = a ++ u ++ v ∧ r.Matches (lastOf none a) u v ∧ n = (a ++ u).length ∧
      (r.anchored → a = []) := by
  rcases exists_of_run h with h | ⟨rs, hrs, u, v, rfl, hm, hn⟩ | ⟨hr, a, u, v, rfl, hm, hn⟩
  · contradiction
  · rw [List.mem_singleton] at hrs
    subst hrs
    exact ⟨[], u, v, rfl, matchesAll_singleton.mp hm, by simpa using hn, fun _ => rfl⟩
  · refine ⟨a, u, v, rfl, hm, by simpa using hn, fun ha => ?_⟩
    rw [ha] at hr
    contradiction

/-- An expression with an anchor in front is only found at the start of the text. -/
theorem exists_of_search {r : Regex} (ha : r.anchored) {cs : List Char} {n : Nat}
    (h : r.search cs = some n) : ∃ u v, cs = u ++ v ∧ r.Matches none u v ∧ n = u.length := by
  obtain ⟨a, u, v, rfl, hm, hn, hfront⟩ := begins_of_search h
  obtain rfl := hfront ha
  exact ⟨u, v, rfl, hm, hn⟩

theorem search_isSome {r : Regex} (ha : r.anchored) {u v : List Char} (h : r.Matches none u v) :
    (r.search (u ++ v)).isSome := by
  rw [search, ha]
  exact run_isSome (.inr ⟨[r], by simp, u, v, rfl, matchesAll_singleton.mpr h⟩)

/-! ### Where a match ends -/

/-- A match ends inside the text, wherever it began. -/
theorem le_of_run {r : Regex} {restart : Bool} {b : Option Char} {threads : List (List Regex)}
    {best : Option Nat} {count n : Nat} {cs : List Char} (hbest : ∀ m ∈ best, m ≤ count)
    (h : run r restart b threads best count cs = some n) : n ≤ count + cs.length := by
  induction cs generalizing b threads best count with
  | nil =>
    rw [run] at h
    split at h
    · cases h
      exact Nat.le_refl _
    · exact hbest n h
  | cons c cs ih =>
    have hbest' : ∀ m ∈ (if (allMoves ⟨b, some c⟩ threads).contains .accept then some count
        else best), m ≤ count := by
      intro m hm
      split at hm
      · cases hm
        exact Nat.le_refl _
      · exact hbest m hm
    simp only [run] at h
    generalize (if (allMoves ⟨b, some c⟩ threads).contains .accept then some count else best) =
      best' at h hbest'
    generalize (if restart && best'.isNone then follow c (allMoves ⟨b, some c⟩ threads) ++ [[r]]
      else follow c (allMoves ⟨b, some c⟩ threads)) = left at h
    rw [List.length_cons]
    split at h
    · have := hbest' n h
      omega
    · have := ih (fun m hm => Nat.le_succ_of_le (hbest' m hm)) h
      omega

theorem le_of_search {r : Regex} {cs : List Char} {n : Nat} (h : r.search cs = some n) :
    n ≤ cs.length := by
  simpa using le_of_run (by simp) h

end FilterLang.Regex
