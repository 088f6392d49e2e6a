import FilterLang.Proofs.Likeness
import FilterLang.Proofs.Resuming
import FilterLang.Proofs.Spelling

/-! Texts with blanks between them. Under the default pattern only a string has blanks in it, so what
is recognised at the front of a text is recognised there when a blank and anything else follow the
text, and the other way round if the lexeme does not reach the blank. Hence a text that has tokens
keeps them in front of blanks and any other text, and that one is cut as if it stood by itself. Which
blanks stand between two tokens therefore does not matter, as long as there are some. -/
namespace FilterLang

open VariablePattern (names)

variable {r u w a b : List Char} {c : Char} {k : Kind} {n : Nat}

/-! ### A blank behind a text -/

theorem Text.not_isBlank_of_visible (hlow : 33 ≤ c.toNat) (hhigh : c.toNat ≤ 126) :
    Text.isBlank c = false := by
  simp only [Text.isBlank]
  simp
  omega

/-- A blank does not go on a word. -/
theorem Lexeme.isIdentifier_eq_false (h : Text.isBlank c) : isIdentifier c = false := by
  rw [← Bool.not_eq_true]
  intro hid
  have hbounds : 33 ≤ c.toNat ∧ c.toNat ≤ 126 := by
    change (decide (c.val ≥ 'A'.val ∧ c.val ≤ 'Z'.val) ||
      (decide (c.val ≥ 'a'.val) && decide (c.val ≤ 'z'.val)) ||
      (decide (c.val ≥ '0'.val) && decide (c.val ≤ '9'.val)) || c == '_') = true at hid
    simp only [Bool.or_eq_true, Bool.and_eq_true, decide_eq_true_eq, beq_iff_eq, ge_iff_le,
      UInt32.le_iff_toNat_le, Char.toNat_val] at hid
    change (((65 ≤ c.toNat ∧ c.toNat ≤ 90) ∨ (97 ≤ c.toNat ∧ c.toNat ≤ 122)) ∨
      (48 ≤ c.toNat ∧ c.toNat ≤ 57)) ∨ c = '_' at hid
    rcases hid with ((hid | hid) | hid) | rfl
    · omega
    · omega
    · omega
    · decide
  simp [Text.not_isBlank_of_visible hbounds.1 hbounds.2] at h

/-- What has no blank in it stands in front of the blank. -/
theorem prefix_append_blank (hw : ∀ d ∈ w, Text.isBlank d = false) (hc : Text.isBlank c) :
    w <+: r ++ c :: b ↔ w <+: r := by
  constructor
  · intro h
    by_cases hle : w.length ≤ r.length
    · exact List.prefix_of_prefix_length_le h (List.prefix_append r _) hle
    · have hp : r ++ [c] <+: w := by
        refine List.prefix_of_prefix_length_le ⟨b, by simp⟩ h ?_
        rw [List.length_append, List.length_singleton]
        omega
      have hmem := hw c (hp.subset (by simp))
      rw [hc] at hmem
      contradiction
  · intro h
    exact h.trans (List.prefix_append r _)

/-- No character of the text is blank, as can be computed. -/
def Text.visible (w : List Char) : Bool := w.all fun d => !isBlank d

theorem Text.visible_iff : Text.visible u ↔ ∀ d ∈ u, Text.isBlank d = false := by
  simp [Text.visible]

theorem VariablePattern.names_visible : ∀ w ∈ names, ∀ d ∈ w, Text.isBlank d = false := by
  have hvisible : ∀ w ∈ names, Text.visible w := by decide
  exact fun w hw => Text.visible_iff.mp (hvisible w hw)

theorem Lexeme.IsNumeral.visible (h : IsNumeral u) : ∀ d ∈ u, Text.isBlank d = false := by
  obtain ⟨w, f, hplain⟩ := h
  intro d hd
  rcases hplain.mem d hd with hdigit | rfl
  · exact not_isBlank_of_isDigit hdigit
  · rfl

section Behind

variable (hc : Text.isBlank c)
include hc

theorem standsAlone_append_blank {w : String} (hw : ∀ d ∈ w.toList, Text.isBlank d = false) :
    Lexeme.StandsAlone w (r ++ c :: b) ↔ Lexeme.StandsAlone w r := by
  constructor
  · rintro ⟨rest, hrest, hnext⟩
    obtain ⟨tail, rfl⟩ := (prefix_append_blank hw hc).mp ⟨rest, hrest.symm⟩
    rw [List.append_assoc, List.append_cancel_left_eq] at hrest
    refine ⟨tail, rfl, fun d hd => hnext d ?_⟩
    obtain ⟨ds, rfl⟩ := List.head?_eq_some_iff.mp hd
    rw [← hrest]
    rfl
  · rintro ⟨tail, rfl, hnext⟩
    refine ⟨tail ++ c :: b, by rw [List.append_assoc], fun d hd => ?_⟩
    cases tail with
    | nil =>
      cases hd
      exact Lexeme.isIdentifier_eq_false hc
    | cons e tail => exact hnext d hd

theorem Operator.standsAt_append_blank (op : Operator) :
    op.StandsAt (r ++ c :: b) ↔ op.StandsAt r := by
  cases op with
  | and =>
    exact or_congr (standsAlone_append_blank hc (Text.visible_iff.mp rfl))
      (standsAlone_append_blank hc (Text.visible_iff.mp rfl))
  | lt | gt =>
    exact and_congr (prefix_append_blank (Text.visible_iff.mp rfl) hc)
      (not_congr (prefix_append_blank (Text.visible_iff.mp rfl) hc))
  | _ => exact prefix_append_blank (Text.visible_iff.mp rfl) hc

theorem booleanAt_append_blank : Lexeme.BooleanAt (r ++ c :: b) ↔ Lexeme.BooleanAt r :=
  or_congr (standsAlone_append_blank hc (Text.visible_iff.mp rfl))
    (standsAlone_append_blank hc (Text.visible_iff.mp rfl))

theorem unreserved_append_blank : Lexeme.Unreserved (r ++ c :: b) ↔ Lexeme.Unreserved r := by
  simp only [Lexeme.Unreserved, Operator.standsAt_append_blank hc, booleanAt_append_blank hc]

theorem default_matchLength?_append_blank :
    VariablePattern.default.matchLength? (.ofList (r ++ c :: b)) =
      VariablePattern.default.matchLength? (.ofList r) := by
  refine Option.ext fun n => ?_
  simp only [VariablePattern.default_matchLength?_iff, String.toList_ofList]
  exact exists_congr fun w => and_congr_right fun hw =>
    and_congr_left' (prefix_append_blank (VariablePattern.names_visible w hw) hc)

theorem unnamed_append_blank :
    Lexeme.Unnamed .default (r ++ c :: b) ↔ Lexeme.Unnamed .default r := by
  simp only [Lexeme.Unnamed, unreserved_append_blank hc, default_matchLength?_append_blank hc]

theorem longestNumeral_append_blank :
    Lexeme.LongestNumeral (r ++ c :: b) u ↔ Lexeme.LongestNumeral r u := by
  have hfront : ∀ {v}, Lexeme.IsNumeral v → (v <+: r ++ c :: b ↔ v <+: r) :=
    fun hv => prefix_append_blank hv.visible hc
  constructor
  · rintro ⟨hu, hn, hlongest⟩
    exact ⟨(hfront hn).mp hu, hn, fun v hv hnv => hlongest v ((hfront hnv).mpr hv) hnv⟩
  · rintro ⟨hu, hn, hlongest⟩
    exact ⟨(hfront hn).mpr hu, hn, fun v hv hnv => hlongest v ((hfront hnv).mp hv) hnv⟩

/-- A kind applies with a lexeme of the text whether or not a blank follows the text. Only a quote in
front of the blank may find its end behind it, but then its lexeme is not of the text. -/
theorem Kind.applies_append_blank (hr : r ≠ []) (hu : u <+: r) :
    k.Applies .default (r ++ c :: b) ∧ k.Extends .default (r ++ c :: b) u ↔
      k.Applies .default r ∧ k.Extends .default r u := by
  obtain ⟨d, ds, rfl⟩ := List.exists_cons_of_ne_nil hr
  cases k with
  | blank => exact Iff.rfl
  | operator op =>
    refine and_congr (Operator.standsAt_append_blank hc op) ?_
    cases op <;> exact Iff.rfl
  | literal kind =>
    cases kind with
    | boolean => exact and_congr (booleanAt_append_blank hc) Iff.rfl
    | var =>
      simp only [Kind.Applies, Kind.Extends, unreserved_append_blank hc,
        default_matchLength?_append_blank hc]
    | number =>
      exact and_congr (and_congr (unnamed_append_blank hc) Iff.rfl) (longestNumeral_append_blank hc)
    | string =>
      simp only [Kind.Applies, Kind.Extends, unnamed_append_blank hc]
      refine and_congr_left ?_
      rintro ⟨s, rfl, -⟩
      obtain ⟨tail, htail⟩ := hu
      rw [← htail]
      simp
  | leftParen | rightParen =>
    simp only [Kind.Applies, Kind.Extends, unnamed_append_blank hc]
    simp

/-- What is recognised in front of the blank is recognised without it, and nothing else is. -/
theorem classify_append_blank (hr : ∃ d ∈ r.head?, Text.isBlank d = false) :
    classify .default (r ++ c :: b) = some (k, n) ∧ n ≤ r.length ↔
      classify .default r = some (k, n) := by
  obtain ⟨d, hd, hblank⟩ := hr
  obtain ⟨ds, rfl⟩ := List.head?_eq_some_iff.mp hd
  have hr : d :: ds ≠ [] := List.cons_ne_nil d ds
  have hhead : ∀ {tail : List Char}, ∀ e ∈ (d :: ds ++ tail).head?, Text.isBlank e = false := by
    rintro tail e he
    cases he
    exact hblank
  rw [classify_eq_some_iff hhead, classify_eq_some_iff (by simpa using hblank)]
  constructor
  · rintro ⟨⟨hk, u, hu, hext, rfl⟩, hle⟩
    have hur := List.prefix_of_prefix_length_le hu (List.prefix_append _ _) hle
    obtain ⟨hk', hext'⟩ := (Kind.applies_append_blank hc hr hur).mp ⟨hk, hext⟩
    exact ⟨hk', u, hur, hext', rfl⟩
  · rintro ⟨hk, u, hur, hext, rfl⟩
    obtain ⟨hk', hext'⟩ := (Kind.applies_append_blank hc hr hur).mpr ⟨hk, hext⟩
    exact ⟨⟨hk', u, hur.trans (List.prefix_append _ _), hext', rfl⟩, hur.length_le⟩

end Behind

/-- A beginning with no more bytes than the front of the text is a beginning of the front. -/
theorem Text.le_length_of_take {front back : List Char} (hn : n ≤ (front ++ back).length)
    (h : utf8Length ((front ++ back).take n) ≤ utf8Length front) : n ≤ front.length := by
  by_contra hlt
  have hpos : 0 < utf8Length (back.take (n - front.length)) := by
    refine utf8Length_pos fun hnil => ?_
    have hlength := congrArg List.length hnil
    rw [List.length_take, List.length_nil] at hlength
    rw [List.length_append] at hn
    omega
  rw [List.take_append, List.take_of_length_le (by omega), utf8Length_append] at h
  omega

/-! ### More text behind a stream -/

namespace TokenStream

variable {s s' s₁ : TokenStream} {t : Token} {ts us : List Token} {p : VariablePattern}
  {text cs : List Char}

/-- The stream with more text behind its own. -/
def extend (s : TokenStream) (cs : List Char) : TokenStream := { s with rest := s.rest ++ cs }

/-- The byte offset of the end of the text. -/
def finish (s : TokenStream) : Nat := s.position + Text.utf8Length s.rest

theorem advance_extend (h : n ≤ s.rest.length) :
    (s.extend cs).advance n = (s.advance n).extend cs := by
  simp only [extend, advance, List.take_append_of_le_length h, List.drop_append_of_le_length h]

/-- Blanks are skipped up to something that is in the stream's own text. -/
theorem skipBlanks_extend (h : s.skipBlanks.rest ≠ []) :
    (s.extend cs).skipBlanks = s.skipBlanks.extend cs := by
  have hne : (s.rest.takeWhile Text.isBlank).length ≠ s.rest.length := by
    intro hlength
    apply h
    rw [skipBlanks, advance, hlength, List.drop_length]
  have htake : (s.rest ++ cs).takeWhile Text.isBlank = s.rest.takeWhile Text.isBlank := by
    rw [List.takeWhile_append, if_neg hne]
  have hle := (List.takeWhile_prefix (l := s.rest) Text.isBlank).length_le
  change (s.extend cs).advance ((s.rest ++ cs).takeWhile Text.isBlank).length = _
  rw [htake, advance_extend hle]
  rfl

@[simp] theorem finish_advance (s : TokenStream) (n : Nat) : (s.advance n).finish = s.finish := by
  have hsplit := congrArg Text.utf8Length (List.take_append_drop n s.rest)
  rw [Text.utf8Length_append] at hsplit
  simp only [finish, advance]
  omega

theorem finish_of_next (h : s.next = (.ok (some t), s')) : s'.finish = s.finish := by
  obtain ⟨n, hn⟩ := exists_next_eq_advance s
  rw [h] at hn
  change s' = _ at hn
  rw [hn, finish_advance]

theorem Within.finish_eq (h : s.Within text) : s.finish = Text.utf8Length text := by
  obtain ⟨front, rfl, hpos⟩ := h
  rw [finish, Text.utf8Length_append, hpos]

theorem skipBlanks_head_exists (h : s.skipBlanks.rest ≠ []) :
    ∃ d ∈ s.skipBlanks.rest.head?, Text.isBlank d = false := by
  obtain ⟨d, ds, hd⟩ := List.exists_cons_of_ne_nil h
  exact ⟨d, by simp [hd], s.skipBlanks_head d (by simp [hd])⟩

/-- A token begins in the stream's own text just when something is there behind the blanks. -/
theorem offset_lt_finish_iff (h : (s.extend cs).next = (.ok (some t), s₁)) :
    t.offset < s.finish ↔ s.skipBlanks.rest ≠ [] := by
  obtain ⟨k, n, -, -, rfl, -⟩ := exists_of_next h
  rw [Token.offset_ofLexeme]
  constructor
  · intro hlt hnil
    rw [skipBlanks_rest, List.dropWhile_eq_nil_iff] at hnil
    have htake : (s.rest ++ cs).takeWhile Text.isBlank = s.rest ++ cs.takeWhile Text.isBlank :=
      List.takeWhile_append_of_pos hnil
    rw [skipBlanks_position] at hlt
    change s.position + Text.utf8Length ((s.rest ++ cs).takeWhile Text.isBlank) < s.finish at hlt
    rw [htake, Text.utf8Length_append, finish] at hlt
    omega
  · intro hne
    have hpos := Text.utf8Length_pos hne
    rw [skipBlanks_extend hne, ← finish_advance s (s.rest.takeWhile Text.isBlank).length]
    exact Nat.lt_add_of_pos_right hpos

section Behind

variable (hp : s.pattern = .default) (hc : Text.isBlank c)
include hp hc

/-- A pull gives the same token with a blank behind the text. -/
theorem next_extend (h : s.next = (.ok (some t), s')) :
    (s.extend (c :: b)).next = (.ok (some t), s'.extend (c :: b)) := by
  obtain ⟨k, n, hclass, hne, rfl, rfl⟩ := exists_of_next h
  have hle := Kind.reach_le (classify_fits hclass)
  have hskip : (s.extend (c :: b)).skipBlanks = s.skipBlanks.extend (c :: b) :=
    skipBlanks_extend hne
  rw [hp] at hclass
  obtain ⟨hclass', -⟩ := (classify_append_blank (b := b) hc (skipBlanks_head_exists hne)).mpr hclass
  rw [next_of_some (k := k) (n := n), hskip, advance_extend hle]
  · simp only [extend, List.take_append_of_le_length hle]
  · rw [hskip]
    exact List.append_ne_nil_of_left_ne_nil hne _
  · rw [hskip]
    exact (congrArg (classify · _) hp).trans hclass'

/-- A pull whose token ends inside the text gives it without the blank. -/
theorem exists_next_of_extend (h : (s.extend (c :: b)).next = (.ok (some t), s₁))
    (ht : t.offset + Text.utf8Length t.lexeme.toList ≤ s.finish) :
    ∃ s', s.next = (.ok (some t), s') ∧ s₁ = s'.extend (c :: b) := by
  obtain ⟨blanks, hf⟩ := exists_finds h
  have hlexeme := Text.utf8Length_pos hf.lexeme
  have hne : s.skipBlanks.rest ≠ [] := (offset_lt_finish_iff h).mp (by omega)
  have hskip : (s.extend (c :: b)).skipBlanks = s.skipBlanks.extend (c :: b) :=
    skipBlanks_extend hne
  obtain ⟨k, n, hclass, -, rfl, rfl⟩ := exists_of_next h
  have hreach := classify_fits hclass
  rw [Token.offset_ofLexeme, Token.lexeme_ofLexeme hreach] at ht
  rw [hskip] at hclass hreach ht ⊢
  have hle : n ≤ s.skipBlanks.rest.length := by
    have hfinish : s.skipBlanks.finish = s.finish := finish_advance s _
    refine Text.le_length_of_take (Kind.reach_le hreach) ?_
    change s.skipBlanks.position + _ ≤ s.finish at ht
    rw [← hfinish, finish] at ht
    exact Nat.add_le_add_iff_left.mp ht
  have hclass' : classify s.pattern s.skipBlanks.rest = some (k, n) := by
    rw [hp]
    exact (classify_append_blank hc (skipBlanks_head_exists hne)).mp
      ⟨(congrArg (classify · _) hp).symm.trans hclass, hle⟩
  refine ⟨_, ?_, advance_extend hle⟩
  rw [next_of_some hne hclass']
  simp only [extend, List.take_append_of_le_length hle]

/-- Tokens of a text are its tokens with a blank and more text behind it. -/
theorem Yields.extend (h : Yields s ts s') : Yields (s.extend (c :: b)) ts (s'.extend (c :: b)) := by
  induction h with
  | nil => exact .nil
  | cons hn _ ih => exact .cons (next_extend hp hc hn) (ih ((pattern_of_next hn).trans hp))

/-- Where no token of the longer text reaches over the end of the stream's own text, this one has
tokens, too. -/
theorem Yields.exists_tokens (h : Yields (s.extend (c :: b)) ts s₁) (hend : s₁.next.1 = .ok none)
    (hts : ∀ t ∈ ts, t.offset + Text.utf8Length t.lexeme.toList ≤ s.finish ∨ s.finish ≤ t.offset) :
    ∃ us, s.tokens = .ok us := by
  induction ts generalizing s with
  | nil =>
    cases h
    have hblank : s.skipBlanks.rest = [] := by
      rw [skipBlanks_rest]
      exact List.dropWhile_eq_nil_iff.mpr fun d hd =>
        isBlank_of_end hend d (List.mem_append_left _ hd)
    exact ⟨[], tokens_eq_ok.mpr ⟨s, .nil, by rw [next_of_nil hblank]⟩⟩
  | cons t ts ih =>
    obtain ⟨ht, hts⟩ := List.forall_mem_cons.mp hts
    cases h with
    | cons hn hy =>
      rcases ht with ht | ht
      · obtain ⟨s', hs', rfl⟩ := exists_next_of_extend hp hc hn ht
        obtain ⟨us, hus⟩ := ih ((pattern_of_next hs').trans hp) hy (by rwa [finish_of_next hs'])
        exact ⟨t :: us, (Yields.single hs').tokens_eq_ok_iff.mp hus⟩
      · have hblank : s.skipBlanks.rest = [] := by
          by_contra hne
          exact absurd ((offset_lt_finish_iff hn).mpr hne) (by omega)
        exact ⟨[], tokens_eq_ok.mpr ⟨s, .nil, by rw [next_of_nil hblank]⟩⟩

end Behind

/-! ### Blanks in front -/

theorem foundLater_foundLater (m n : Nat) (result : Except Unrecognized (List Token)) :
    foundLater n (foundLater m result) = foundLater (m + n) result := by
  cases result with
  | error e => simp [foundLater, Except.map, Except.mapError, Unrecognized.later, Nat.add_assoc]
  | ok ts =>
    simp [foundLater, Except.map, Except.mapError, Token.later, Function.comp_def, Nat.add_assoc]

/-- All tokens of a stream are the first one and those behind it. -/
theorem tokens_eq_next (s : TokenStream) : s.tokens =
    match s.next with
    | (.ok (some t), s') => s'.tokens.map (t :: ·)
    | (.ok none, _) => .ok []
    | (.error e, _) => .error e := by
  rcases hnext : s.next with ⟨e | _ | t, s'⟩
  · exact tokens_eq_error.mpr ⟨[], s, .nil, by rw [hnext]⟩
  · exact tokens_eq_ok.mpr ⟨s, .nil, by rw [hnext]⟩
  · exact (Yields.single hnext).tokens_eq

/-- Blanks in front of a text shift all that is found in it. -/
theorem tokenize_blanks_append (hw : ∀ d ∈ w, Text.isBlank d) :
    tokenize p (w ++ b) = foundLater (Text.utf8Length w) (tokenize p b) := by
  have htake : (w ++ b).takeWhile Text.isBlank = w ++ b.takeWhile Text.isBlank :=
    List.takeWhile_append_of_pos hw
  have hskip : (ofText p (w ++ b)).skipBlanks =
      ((ofText p b).later (Text.utf8Length w)).skipBlanks := by
    change (ofText p (w ++ b)).advance ((w ++ b).takeWhile Text.isBlank).length =
      ((ofText p b).later (Text.utf8Length w)).advance (b.takeWhile Text.isBlank).length
    rw [htake, List.length_append, ← advance_advance]
    simp [advance, ofText, later]
  rw [tokenize, tokenize, ← tokens_later, tokens_eq_next, next, hskip, ← next, ← tokens_eq_next]

/-! ### Blanks between -/

/-- What stands behind a text that has tokens and some blanks is cut as if it stood by itself. -/
theorem tokenize_append_blanks (ha : tokenize .default a = .ok ts) (hne : w ≠ [])
    (hw : ∀ d ∈ w, Text.isBlank d) : tokenize .default (a ++ w ++ b) =
      (foundLater (Text.utf8Length (a ++ w)) (tokenize .default b)).map (ts ++ ·) := by
  obtain ⟨c, w, rfl⟩ := List.exists_cons_of_ne_nil hne
  obtain ⟨s, hy, hend⟩ := tokens_eq_ok.mp ha
  have hrest := isBlank_of_end hend
  have hfinish : s.position + Text.utf8Length s.rest = Text.utf8Length a :=
    (hy.within (ofText_within .default a)).finish_eq
  have hlonger : Yields (ofText .default (a ++ c :: w ++ b)) ts (s.extend (c :: (w ++ b))) := by
    rw [List.append_assoc]
    exact hy.extend rfl (hw c (by simp))
  have hblanks : ∀ d ∈ s.rest ++ c :: w, Text.isBlank d := List.forall_mem_append.mpr ⟨hrest, hw⟩
  have hpattern : s.pattern = .default := hy.pattern_eq
  have hbehind : (s.extend (c :: (w ++ b))).tokens =
      foundLater (Text.utf8Length (a ++ c :: w)) (tokenize .default b) := by
    rw [tokens_eq_foundLater]
    change foundLater s.position (tokenize s.pattern (s.rest ++ c :: (w ++ b))) = _
    rw [hpattern, ← List.cons_append, ← List.append_assoc, tokenize_blanks_append hblanks,
      foundLater_foundLater, Text.utf8Length_append, Text.utf8Length_append, ← hfinish]
    congr 1
    omega
  rw [tokenize, hlonger.tokens_eq, hbehind]

/-- A text with tokens can be cut at any blanks that no token reaches into. -/
theorem exists_tokens_of_cut (h : tokenize .default (a ++ w ++ b) = .ok ts) (hne : w ≠ [])
    (hw : ∀ d ∈ w, Text.isBlank d) (hts : ∀ t ∈ ts,
      t.offset + Text.utf8Length t.lexeme.toList ≤ Text.utf8Length a ∨
        Text.utf8Length (a ++ w) ≤ t.offset) :
    ∃ us vs, tokenize .default a = .ok us ∧ tokenize .default b = .ok vs ∧
      ts = us ++ vs.map (Token.later (Text.utf8Length (a ++ w))) := by
  obtain ⟨us, hus⟩ : ∃ us, tokenize .default a = .ok us := by
    obtain ⟨c, w, rfl⟩ := List.exists_cons_of_ne_nil hne
    obtain ⟨s', hy, hend⟩ := tokens_eq_ok.mp h
    have hfinish : (ofText .default a).finish = Text.utf8Length a :=
      (ofText_within .default a).finish_eq
    rw [List.append_assoc] at hy
    refine Yields.exists_tokens (s := ofText .default a) rfl (hw c (by simp)) hy hend fun t ht => ?_
    rw [hfinish]
    refine (hts t ht).imp_right fun hle => ?_
    rw [Text.utf8Length_append] at hle
    omega
  rw [tokenize_append_blanks hus hne hw] at h
  cases hb : tokenize .default b with
  | error e =>
    rw [hb] at h
    cases h
  | ok vs =>
    rw [hb] at h
    cases h
    exact ⟨us, vs, hus, rfl, rfl⟩

/-- Behind a text that has tokens and some blanks any text is cut as if it stood by itself, with its
tokens or its error further along. So other blanks between two tokens, and blanks at the ends, change
no token but for its offset. -/
theorem tokenize_separated {ta : List Token} (ha : tokenize .default a = .ok ta) (hne : w ≠ [])
    (hw : ∀ d ∈ w, Text.isBlank d) :
    (∀ b, let n := Text.utf8Length a + Text.utf8Length w
      (∀ tb, tokenize .default b = .ok tb →
        tokenize .default (a ++ w ++ b) = .ok (ta ++ tb.map (Token.later n))) ∧
      ∀ e, tokenize .default b = .error e →
        tokenize .default (a ++ w ++ b) = .error ⟨e.position + n, e.excerpt⟩) ∧
    (∀ x v y, a = x ++ v ++ y → v ≠ [] → (∀ d ∈ v, Text.isBlank d) →
      (∀ t ∈ ta, t.offset + Text.utf8Length t.lexeme.toList ≤ Text.utf8Length x ∨
        Text.utf8Length (x ++ v) ≤ t.offset) →
      ∃ ts, tokenize .default (x ++ w ++ y) = .ok ts ∧
        ts.map Token.unplaced = ta.map Token.unplaced) ∧
    tokenize .default (w ++ a) = .ok (ta.map (Token.later (Text.utf8Length w))) ∧
    tokenize .default (a ++ w) = .ok ta := by
  have hbehind := fun b => tokenize_append_blanks (b := b) ha hne hw
  refine ⟨fun b => ⟨fun tb htb => ?_, fun e he => ?_⟩, ?_, ?_, ?_⟩
  · rw [hbehind, htb, Text.utf8Length_append]
    rfl
  · rw [hbehind, he, Text.utf8Length_append]
    rfl
  · rintro x v y rfl hv hblanks hcut
    obtain ⟨us, vs, hus, hvs, rfl⟩ := exists_tokens_of_cut ha hv hblanks hcut
    refine ⟨_, by rw [tokenize_append_blanks hus hne hw, hvs]; rfl, ?_⟩
    simp [Function.comp_def, Token.later, Token.unplaced]
  · rw [tokenize_blanks_append hw, ha]
    rfl
  · have hend := hbehind []
    rw [List.append_nil] at hend
    have hnil : tokenize .default [] = .ok [] := rfl
    rw [hend, hnil]
    exact congrArg Except.ok (List.append_nil ta)

/-- A wide blank in place of the plain one, and an open quote behind another. -/
theorem tokenize_separated_wide :
    let a := "1 <2".toList
    let ta : List Token :=
      [⟨.literal .number, "1", 0⟩, ⟨.operator .lt, "<", 2⟩, ⟨.literal .number, "2", 3⟩]
    tokenize .default a = .ok ta ∧
      tokenize .default (a ++ "\u3000".toList ++ "\" x".toList) = .error ⟨7, "\" x"⟩ ∧
      ∃ ts, tokenize .default "1\u3000<2".toList = .ok ts ∧
        ts.map Token.unplaced = ta.map Token.unplaced := by
  intro a ta
  have ha : tokenize .default a = .ok ta := by decide +kernel
  let w := "\u3000".toList
  have hw : ∀ d ∈ w, Text.isBlank d := List.all_eq_true.mp rfl
  obtain ⟨hbehind, hbetween, -, -⟩ := tokenize_separated ha (by decide : w ≠ []) hw
  exact ⟨ha, (hbehind _).2 ⟨0, "\" x"⟩ (by decide +kernel),
    hbetween "1".toList " ".toList "<2".toList rfl (by decide) (List.all_eq_true.mp rfl) (by decide)⟩

end TokenStream

end FilterLang
