import FilterLang.Proofs.Relexing
import FilterLang.Proofs.Separation

/-! Tokens written apart. Under the default pattern a lexeme is recognised again in front of any
blank and at the end of a text, whatever followed it where it was found. So the lexemes of a text,
written one after another with a space between them, are cut into the same tokens at new offsets; and
a parse depends on the offsets only where its errors repeat them. -/
namespace FilterLang

variable {r rest u : List Char} {k : Kind} {t : Token} {ts : List Token}

/-! ### In front of a blank -/

/-- Nothing but a blank can come next. -/
def Text.Apart (rest : List Char) : Prop := ∀ c ∈ rest.head?, Text.isBlank c

/-- What is cut off the front of a text is cut off in front of a blank. -/
theorem Kind.Cuts.classify_apart (h : k.Cuts .default r u) (hrest : Text.Apart rest) :
    classify .default (u ++ rest) = some (k, u.length) := by
  have hself : k.Cuts .default u u := h.recurs_iff.mpr h.recurs_default
  cases rest with
  | nil =>
    rw [List.append_nil]
    exact hself.classify_eq
  | cons c b =>
    obtain ⟨d, ds, rfl⟩ := List.exists_cons_of_ne_nil hself.ne_nil
    have hhead : ∃ e ∈ (d :: ds).head?, Text.isBlank e = false := ⟨d, rfl, hself.head d rfl⟩
    exact ((classify_append_blank (hrest c rfl) hhead).mpr hself.classify_eq).1

/-! ### Lexemes with spaces between them -/

namespace Token

/-- The lexeme is recognised in front of any blank, and it is not taken for a blank itself. -/
structure Settled (t : Token) : Prop where
  head : ∀ c ∈ t.lexeme.toList.head?, Text.isBlank c = false
  classify_eq : ∀ rest, Text.Apart rest →
    classify .default (t.lexeme.toList ++ rest) = some (t.kind, t.lexeme.toList.length)

theorem Settled.lexeme_ne_nil (h : t.Settled) : t.lexeme.toList ≠ [] :=
  List.length_pos_iff.mp (Kind.reach_pos (classify_fits (h.classify_eq [] (by simp [Text.Apart]))))

/-- The lexemes with a space between them. -/
def spaced (ts : List Token) : List Char := [' '].intercalate (ts.map (·.lexeme.toList))

theorem spaced_cons_cons (t u : Token) (ts : List Token) :
    spaced (t :: u :: ts) = t.lexeme.toList ++ ' ' :: spaced (u :: ts) := by
  simp [spaced, List.intercalate_cons_cons]

theorem spaced_head (hts : ∀ t ∈ ts, t.Settled) :
    ∀ c ∈ (spaced ts).head?, Text.isBlank c = false := by
  cases ts with
  | nil => simp [spaced]
  | cons t ts =>
    have ht := hts t (by simp)
    obtain ⟨c, cs, hcs⟩ := List.exists_cons_of_ne_nil ht.lexeme_ne_nil
    have hc : Text.isBlank c = false := ht.head c (by simp [hcs])
    cases ts with
    | nil => simpa [spaced, hcs] using hc
    | cons u ts => simpa [spaced_cons_cons, hcs] using hc

/-- The tokens at the offsets of their lexemes when these are written from byte `i` on, with a space
between them. -/
def respaced (i : Nat) : List Token → List Token
  | [] => []
  | t :: ts => { t with offset := i } :: respaced (i + Text.utf8Length t.lexeme.toList + 1) ts

theorem respaced_eq_mapIdx (i : Nat) (ts : List Token) :
    respaced i ts = ts.mapIdx fun n t => { t with
      offset := i + ((ts.take n).map fun u => Text.utf8Length u.lexeme.toList + 1).sum } := by
  induction ts generalizing i with
  | nil => rfl
  | cons t ts ih => simp [respaced, ih, List.mapIdx_cons, Nat.add_assoc]

end Token

namespace TokenStream

variable {s s' : TokenStream}

/-- The tokens of a stream under the default pattern are settled. -/
theorem Yields.settled (h : Yields s ts s') (hp : s.pattern = .default) : ∀ t ∈ ts, t.Settled := by
  intro t ht
  obtain ⟨r, hcuts⟩ := h.cuts hp t ht
  exact ⟨hcuts.lexeme_head, fun rest hrest => hcuts.classify_apart hrest⟩

/-- A stream before settled tokens with spaces between them yields these tokens. -/
theorem exists_yields_respaced (hts : ∀ t ∈ ts, t.Settled) (hp : s.pattern = .default)
    (hs : s.skipBlanks.rest = Token.spaced ts) :
    ∃ s', Yields s (Token.respaced s.skipBlanks.position ts) s' ∧ s'.next.1 = .ok none := by
  induction ts generalizing s with
  | nil => exact ⟨s, .nil, by rw [next_of_nil hs]⟩
  | cons t ts ih =>
    obtain ⟨ht, hts⟩ := List.forall_mem_cons.mp hts
    have hnext : ∀ rest, Text.Apart rest → s.skipBlanks.rest = t.lexeme.toList ++ rest →
        s.next = (.ok (some { t with offset := s.skipBlanks.position }),
          ⟨s.pattern, rest, s.skipBlanks.position + Text.utf8Length t.lexeme.toList⟩) := by
      intro rest hrest hs
      rw [next_of_front hs (hp ▸ ht.classify_eq rest hrest), Token.ofLexeme_lexeme]
    cases ts with
    | nil =>
      have hone := hnext [] (by simp [Text.Apart]) (by simpa [Token.spaced] using hs)
      exact ⟨_, .single hone, by rw [next_of_nil rfl]⟩
    | cons u ts =>
      rw [Token.spaced_cons_cons] at hs
      have hone := hnext _ (by simp [Text.Apart]; rfl) hs
      have hhead := Token.spaced_head hts
      -- The stream behind the lexeme skips the space and is then before the other lexemes.
      have hskip : ∀ q, (⟨s.pattern, ' ' :: Token.spaced (u :: ts), q⟩ : TokenStream).skipBlanks =
          ⟨s.pattern, Token.spaced (u :: ts), q + 1⟩ := by
        intro q
        rw [skipBlanks, List.takeWhile_cons_of_pos rfl, Text.takeWhile_eq_nil hhead]
        rfl
      obtain ⟨s', hy, hend⟩ := ih (s := ⟨s.pattern, ' ' :: Token.spaced (u :: ts),
        s.skipBlanks.position + Text.utf8Length t.lexeme.toList⟩) hts hp (by rw [hskip])
      rw [hskip] at hy
      exact ⟨s', .cons hone hy, hend⟩

end TokenStream

/-- The lexemes of a text, written with a space between them, are cut into the same tokens, each
behind those before it; and both lists parse to the same tree or are rejected alike. -/
theorem tokenize_respaced {text : List Char} (h : tokenize .default text = .ok ts) :
    let ts' := ts.mapIdx fun n t => { t with
      offset := ((ts.take n).map fun u => Text.utf8Length u.lexeme.toList + 1).sum }
    tokenize .default (" ".intercalate (ts.map Token.lexeme)).toList = .ok ts' ∧
      ∀ limits, (parseTokens ts' limits).mapError Rejection.unplaced =
        (parseTokens ts limits).mapError Rejection.unplaced := by
  intro ts'
  obtain ⟨s', hy, -⟩ := TokenStream.tokens_eq_ok.mp h
  have hts := hy.settled rfl
  constructor
  · have htext : (" ".intercalate (ts.map Token.lexeme)).toList = Token.spaced ts := by
      rw [String.toList_intercalate, List.map_map]
      rfl
    have hself : (TokenStream.ofText .default (Token.spaced ts)).skipBlanks = _ :=
      TokenStream.skipBlanks_eq_self (Token.spaced_head hts)
    have hyields := TokenStream.exists_yields_respaced hts rfl (by rw [hself]; rfl)
    rw [hself, Token.respaced_eq_mapIdx] at hyields
    rw [htext, tokenize, TokenStream.tokens_eq_ok]
    simpa [ts', TokenStream.ofText] using hyields
  · intro limits
    rw [← parseTokens_unplaced, ← parseTokens_unplaced]
    have hsame : ts'.map Token.unplaced = ts.map Token.unplaced :=
      List.ext_getElem (by simp [ts']) fun i _ _ => by simp [ts', Token.unplaced]
    rw [hsame]

/-- What is written without a space, `2and"a b"`, is cut in the same way when written apart. -/
theorem tokenize_respaced_joined :
    let ts : List Token := [⟨.literal .number, "2", 0⟩, ⟨.operator .and, "and", 1⟩,
      ⟨.literal .string, "a b", 4⟩]
    tokenize .default "2and\"a b\"".toList = .ok ts ∧
      tokenize .default "2 and \"a b\"".toList = .ok [⟨.literal .number, "2", 0⟩,
        ⟨.operator .and, "and", 2⟩, ⟨.literal .string, "a b", 6⟩] := by
  intro ts
  have hts : tokenize .default "2and\"a b\"".toList = .ok ts := by decide +kernel
  exact ⟨hts, (tokenize_respaced hts).1⟩

end FilterLang
