import FilterLang.Json
import FilterLang.Proofs.NumeralText

/-! The text of a JSON value tells the value. In either layout the text of a value ends where nothing
can go on with it: a string at a quote that is not escaped, a number before a character that no
number has, an array or object at its own closing bracket. So two values whose texts begin a text
together are the same value, as long as their numbers are finite; the others are all written
`null`. -/
namespace FilterLang

namespace Json

/-- Induction with a hypothesis for every item of an array and every field of an object. -/
theorem induction {P : Json → Prop} (null : P null) (bool : ∀ b, P (bool b))
    (integer : ∀ n, P (integer n)) (number : ∀ x, P (number x)) (string : ∀ s, P (string s))
    (array : ∀ vs, (∀ v ∈ vs, P v) → P (array vs))
    (object : ∀ fs, (∀ f ∈ fs, P f.2) → P (object fs)) (v : Json) : P v :=
  @Json.rec P (fun vs => ∀ v ∈ vs, P v) (fun fs => ∀ f ∈ fs, P f.2) (fun f => P f.2)
    null bool integer number string array object (by simp)
    (fun _ _ hv hvs => List.forall_mem_cons.mpr ⟨hv, hvs⟩) (by simp)
    (fun _ _ hf hfs => List.forall_mem_cons.mpr ⟨hf, hfs⟩) (fun _ _ hv => hv) v

/-! ### Texts of values -/

/-- What is written for a value whose brackets stand at the given depth. -/
def text (layout : Layout) (depth : Nat) (v : Json) : List Char := (write layout depth "" v).toList

def stringText (s : String) : List Char := '"' :: s.toList.flatMap escapedChar ++ ['"']

/-- An item of an array whose brackets stand at the given depth. -/
def itemText (layout : Layout) (depth : Nat) (v : Json) : List Char :=
  (layout.lineBreak (depth + 1)).toList ++ v.text layout (depth + 1)

def fieldText (layout : Layout) (depth : Nat) (f : String × Json) : List Char :=
  (layout.lineBreak (depth + 1)).toList ++ stringText f.1 ++ layout.colon.toList ++
    f.2.text layout (depth + 1)

section Parts

variable {α : Type} (part : α → List Char)

/-- Parts behind the first one, and what closes them. -/
def listed (closing : List Char) (as : List α) : List Char :=
  as.flatMap (fun a => ',' :: part a) ++ closing

/-- Parts between brackets. A bracket that closes no parts stands on no line of its own. -/
def bracketed (opening closing : Char) (lineBreak : List Char) : List α → List Char
  | [] => [opening, closing]
  | a :: as => opening :: (part a ++ listed part (lineBreak ++ [closing]) as)

end Parts

theorem toList_writeString (done s : String) :
    (writeString done s).toList = done.toList ++ stringText s := by
  have hpush : ∀ (cs : List Char) (out : String),
      (cs.foldl String.push out).toList = out.toList ++ cs := by
    intro cs
    induction cs with
    | nil => simp
    | cons c cs ih => simp [ih]
  have hescape : ∀ (cs : List Char) (out : String),
      (cs.foldl (fun out c => (escapedChar c).foldl String.push out) out).toList =
        out.toList ++ cs.flatMap escapedChar := by
    intro cs
    induction cs with
    | nil => simp
    | cons c cs ih => simp [ih, hpush]
  simp [writeString, hescape, stringText]

theorem toList_writeItems {layout : Layout} {depth : Nat} {vs : List Json}
    (h : ∀ v ∈ vs, ∀ layout depth done,
      (write layout depth done v).toList = done.toList ++ v.text layout depth) (done : String) :
    (writeItems layout depth done vs).toList = done.toList ++
      listed (itemText layout depth) ((layout.lineBreak depth).toList ++ [']']) vs := by
  induction vs generalizing done with
  | nil => simp [writeItems, listed]
  | cons v vs ih =>
    obtain ⟨hv, hvs⟩ := List.forall_mem_cons.mp h
    rw [writeItems, ih hvs, hv]
    simp [listed, itemText]

theorem toList_writeField {layout : Layout} {depth : Nat} {f : String × Json}
    (h : ∀ layout depth done,
      (write layout depth done f.2).toList = done.toList ++ f.2.text layout depth) (done : String) :
    (writeField layout depth done f).toList = done.toList ++ fieldText layout depth f := by
  rw [writeField, h]
  simp [toList_writeString, fieldText]

theorem toList_writeFields {layout : Layout} {depth : Nat} {fs : List (String × Json)}
    (h : ∀ f ∈ fs, ∀ layout depth done,
      (write layout depth done f.2).toList = done.toList ++ f.2.text layout depth) (done : String) :
    (writeFields layout depth done fs).toList = done.toList ++
      listed (fieldText layout depth) ((layout.lineBreak depth).toList ++ ['\x7d']) fs := by
  induction fs generalizing done with
  | nil => simp [writeFields, listed]
  | cons f fs ih =>
    obtain ⟨hf, hfs⟩ := List.forall_mem_cons.mp h
    rw [writeFields, ih hfs, toList_writeField hf]
    simp [listed]

/-- Writing goes on behind what has been written. -/
theorem toList_write (v : Json) : ∀ layout depth done,
    (write layout depth done v).toList = done.toList ++ v.text layout depth := by
  induction v using induction with
  | null | integer | number | string => intros; simp [text, write, toList_writeString]
  | bool b => intros; cases b <;> simp [text, write]
  | array vs ih =>
    intro layout depth done
    cases vs with
    | nil => simp [text, write]
    | cons v vs =>
      obtain ⟨hv, hvs⟩ := List.forall_mem_cons.mp ih
      rw [text, write, write, toList_writeItems hvs, toList_writeItems hvs, hv, hv]
      simp
  | object fs ih =>
    intro layout depth done
    cases fs with
    | nil => simp [text, write]
    | cons f fs =>
      obtain ⟨hf, hfs⟩ := List.forall_mem_cons.mp ih
      rw [text, write, write, toList_writeFields hfs, toList_writeFields hfs,
        toList_writeField hf, toList_writeField hf]
      simp

section Equations

variable (layout : Layout) (depth : Nat)

@[simp] theorem text_null : null.text layout depth = ['n', 'u', 'l', 'l'] := by
  simp [text, write]

@[simp] theorem text_bool (b : Bool) :
    (bool b).text layout depth = if b then ['t', 'r', 'u', 'e'] else ['f', 'a', 'l', 's', 'e'] := by
  cases b <;> simp [text, write]

@[simp] theorem text_integer (n : Int) : (integer n).text layout depth = (toString n).toList := by
  simp [text, write]

@[simp] theorem text_string (s : String) : (string s).text layout depth = stringText s := by
  simp [text, write, toList_writeString]

theorem text_number (x : Binary64) : (number x).text layout depth =
    x.reportChars?.getD ['n', 'u', 'l', 'l'] := by
  cases h : x.reportChars? <;> simp [text, write, h]

@[simp] theorem text_array (vs : List Json) : (array vs).text layout depth =
    bracketed (itemText layout depth) '[' ']' (layout.lineBreak depth).toList vs := by
  cases vs with
  | nil => simp [text, write, bracketed]
  | cons v vs =>
    rw [text, write, toList_writeItems fun v _ => v.toList_write, toList_write]
    simp [bracketed, itemText]

@[simp] theorem text_object (fs : List (String × Json)) : (object fs).text layout depth =
    bracketed (fieldText layout depth) '\x7b' '\x7d' (layout.lineBreak depth).toList fs := by
  cases fs with
  | nil => simp [text, write, bracketed]
  | cons f fs =>
    rw [text, write, toList_writeFields fun f _ => f.2.toList_write,
      toList_writeField f.2.toList_write]
    simp [bracketed]

end Equations

/-! ### Strings -/

def hexValue (c : Char) : Nat := if c.isDigit then c.toNat - 48 else c.toNat - 87

/-- The character that stands behind a backslash. -/
def unescaped : Char → Char
  | 'b' => '\x08'
  | 't' => '\t'
  | 'n' => '\n'
  | 'f' => '\x0c'
  | 'r' => '\r'
  | c => c

/-- The first character of an escaped text, and what follows it. A quote is no character of one. -/
def unescape? : List Char → Option (Char × List Char)
  | [] => none
  | '"' :: _ => none
  | '\\' :: 'u' :: _ :: _ :: a :: b :: rest => some (Char.ofNat (16 * hexValue a + hexValue b), rest)
  | '\\' :: c :: rest => some (unescaped c, rest)
  | c :: rest => some (c, rest)

theorem hexValue_digitChar : ∀ n < 16, hexValue (Nat.digitChar n) = n := by decide

theorem unescape?_escapedChar (c : Char) (rest : List Char) :
    unescape? (escapedChar c ++ rest) = some (c, rest) := by
  unfold escapedChar
  split
  case h_8 =>
    split_ifs with hcontrol
    · have hvalue : 16 * (c.toNat / 16) + c.toNat % 16 = c.toNat := Nat.div_add_mod ..
      change some (Char.ofNat (16 * hexValue _ + hexValue _), rest) = _
      rw [hexValue_digitChar _ (by omega), hexValue_digitChar _ (by omega), hvalue, Char.ofNat_toNat]
    · rw [List.singleton_append]
      unfold unescape?
      split <;> simp_all
  all_goals rfl

/-- A string ends at the first quote that is not escaped. -/
theorem eq_of_stringText {s s' : String} {r r' : List Char}
    (h : stringText s ++ r = stringText s' ++ r') : s = s' ∧ r = r' := by
  have hchars : ∀ cs cs' : List Char,
      cs.flatMap escapedChar ++ '"' :: r = cs'.flatMap escapedChar ++ '"' :: r' →
        cs = cs' ∧ r = r' := by
    intro cs
    induction cs with
    | nil =>
      intro cs' heq
      cases cs' with
      | nil => exact ⟨rfl, (List.cons.inj heq).2⟩
      | cons d cs' =>
        have hread := congrArg unescape? heq
        rw [List.flatMap_cons, List.append_assoc, unescape?_escapedChar] at hread
        contradiction
    | cons c cs ih =>
      intro cs' heq
      have hread := congrArg unescape? heq
      rw [List.flatMap_cons, List.append_assoc, unescape?_escapedChar] at hread
      cases cs' with
      | nil => contradiction
      | cons d cs' =>
        rw [List.flatMap_cons, List.append_assoc, unescape?_escapedChar] at hread
        obtain ⟨rfl, hrest⟩ := Prod.mk.inj (Option.some.inj hread)
        obtain ⟨rfl, hr⟩ := ih cs' hrest
        exact ⟨rfl, hr⟩
  obtain ⟨hs, hr⟩ := hchars s.toList s'.toList (by simpa [stringText] using h)
  exact ⟨String.toList_inj.mp hs, hr⟩

/-! ### Numbers -/

/-- No number goes on into the text. -/
def Delimits (r : List Char) : Prop := ∀ c ∈ r.head?, isNumeral c = false

/-- A number ends before the first character that no number has. -/
theorem eq_of_numeral {u w r r' : List Char} (hu : ∀ c ∈ u, isNumeral c)
    (hw : ∀ c ∈ w, isNumeral c) (hr : Delimits r) (hr' : Delimits r')
    (h : u ++ r = w ++ r') : u = w ∧ r = r' := by
  have hlongest : ∀ {u r : List Char}, (∀ c ∈ u, isNumeral c) → Delimits r →
      (u ++ r).takeWhile isNumeral = u := by
    intro u r hu hr
    rw [List.takeWhile_append_of_pos hu]
    cases r with
    | nil => simp
    | cons c r => simp [hr c rfl]
  have huw : u = w := by
    rw [← hlongest hu hr, h, hlongest hw hr']
  subst huw
  exact ⟨rfl, List.append_cancel_left h⟩

theorem mem_toString_integer {n : Int} {c : Char} (h : c ∈ (toString n).toList) :
    c.isDigit ∨ c = '-' := by
  have hdigits : ∀ k : Nat, c ∈ k.repr.toList → c.isDigit := by
    intro k hc
    rw [Nat.toList_repr] at hc
    exact Nat.isDigit_of_mem_toDigits (by decide) (by decide) hc
  change c ∈ n.repr.toList at h
  rw [Int.repr_eq_if] at h
  split_ifs at h
  · exact .inl (hdigits _ h)
  · rw [String.toList_append] at h
    rcases List.mem_append.mp h with h | h
    · exact .inr (by simpa using h)
    · exact .inl (hdigits _ h)

theorem toString_integer_ne_nil (n : Int) : (toString n).toList ≠ [] := by
  change n.repr.toList ≠ []
  rw [Int.repr_eq_if]
  split_ifs <;> simp [Nat.toList_repr, Nat.toDigits_ne_nil]

theorem toString_integer_inj {m n : Int} (h : (toString m).toList = (toString n).toList) :
    m = n := by
  have hsign : ∀ k l : Nat, k.repr ≠ "-" ++ l.repr := by
    intro k l heq
    have hmem : '-' ∈ k.repr.toList := by simp [heq]
    rw [Nat.toList_repr] at hmem
    exact absurd (Nat.isDigit_of_mem_toDigits (by decide) (by decide) hmem) (by decide)
  have hnat : ∀ {k l : Nat}, k.repr = l.repr → k = l := by
    intro k l heq
    have hread := congrArg (fun s => Nat.ofDigitChars 10 s.toList 0) heq
    simpa only [Nat.toList_repr, Nat.ofDigitChars_ten_toDigits] using hread
  have hrepr : m.repr = n.repr := String.toList_inj.mp h
  rw [Int.repr_eq_if, Int.repr_eq_if] at hrepr
  split_ifs at hrepr
  · have := hnat hrepr
    omega
  · exact absurd hrepr (hsign _ _)
  · exact absurd hrepr.symm (hsign _ _)
  · have := hnat ((String.append_right_inj "-").mp hrepr)
    omega

theorem isNumeral_of_mem_integer {n : Int} {c : Char} (h : c ∈ (toString n).toList) :
    isNumeral c := by
  rcases mem_toString_integer h with h | rfl
  · exact isNumeral_of_isDigit h
  · rfl

/-! ### Parts -/

section Parts

variable {α : Type} {part : α → List Char} {p : α → Prop} {closing r r' : List Char}

/-- No other part has a text that begins a text together with that of `a`. -/
def TellsApart (part : α → List Char) (p : α → Prop) (a : α) : Prop :=
  ∀ b r r', p b → Delimits r → Delimits r' → part a ++ r = part b ++ r' → a = b ∧ r = r'

/-- What closes a list of parts is no numeral and no comma. -/
def Closes (closing : List Char) : Prop :=
  ∃ c rest, closing = c :: rest ∧ isNumeral c = false ∧ c ≠ ','

theorem Closes.delimits_listed (h : Closes closing) (as : List α) (r : List Char) :
    Delimits (listed part closing as ++ r) := by
  obtain ⟨c, rest, rfl, hc, -⟩ := h
  cases as with
  | nil => simpa [Delimits, listed] using hc
  | cons a as => simp [Delimits, listed, show isNumeral ',' = false from rfl]

theorem eq_of_listed {as bs : List α} (hclosing : Closes closing)
    (has : ∀ a ∈ as, TellsApart part p a) (hbs : ∀ b ∈ bs, p b)
    (h : listed part closing as ++ r = listed part closing bs ++ r') : as = bs ∧ r = r' := by
  have hclose : ∀ (cs : List α) (a : α) {r r' : List Char},
      closing ++ r ≠ listed part closing (a :: cs) ++ r' := by
    obtain ⟨c, rest, rfl, -, hc⟩ := hclosing
    exact fun cs a r r' heq => hc (List.cons.inj heq).1
  induction as generalizing bs with
  | nil =>
    cases bs with
    | nil => exact ⟨rfl, List.append_cancel_left h⟩
    | cons b bs => exact absurd h (hclose bs b)
  | cons a as ih =>
    cases bs with
    | nil => exact absurd h.symm (hclose as a)
    | cons b bs =>
      obtain ⟨ha, has'⟩ := List.forall_mem_cons.mp has
      obtain ⟨hb, hbs'⟩ := List.forall_mem_cons.mp hbs
      simp only [listed, List.flatMap_cons, List.cons_append, List.append_assoc] at h
      obtain ⟨rfl, hrest⟩ := ha b _ _ hb
        (by simpa [listed] using hclosing.delimits_listed as r)
        (by simpa [listed] using hclosing.delimits_listed bs r') (List.cons.inj h).2
      obtain ⟨rfl, hr⟩ := ih has' hbs' (by simpa [listed] using hrest)
      exact ⟨rfl, hr⟩

theorem eq_of_bracketed {opening close : Char} {lineBreak : List Char} {as bs : List α}
    (hclosing : Closes (lineBreak ++ [close])) (hhead : ∀ a, p a → ∃ c ∈ (part a).head?, c ≠ close)
    (hp : ∀ a ∈ as, p a) (has : ∀ a ∈ as, TellsApart part p a) (hbs : ∀ b ∈ bs, p b)
    (h : bracketed part opening close lineBreak as ++ r =
      bracketed part opening close lineBreak bs ++ r') : as = bs ∧ r = r' := by
  have hclose : ∀ {a : α}, p a → ∀ {r tail : List Char}, close :: r ≠ part a ++ tail := by
    intro a ha r tail heq
    obtain ⟨c, hc, hne⟩ := hhead a ha
    obtain ⟨cs, hcs⟩ := List.head?_eq_some_iff.mp hc
    rw [hcs] at heq
    exact hne (List.cons.inj heq).1.symm
  cases as with
  | nil =>
    cases bs with
    | nil => exact ⟨rfl, List.append_cancel_left h⟩
    | cons b bs =>
      simp only [bracketed, List.cons_append, List.append_assoc, List.nil_append] at h
      exact absurd (List.cons.inj h).2 (hclose (hbs b List.mem_cons_self))
  | cons a as =>
    cases bs with
    | nil =>
      simp only [bracketed, List.cons_append, List.append_assoc, List.nil_append] at h
      exact absurd (List.cons.inj h).2.symm (hclose (hp a List.mem_cons_self))
    | cons b bs =>
      obtain ⟨ha, has'⟩ := List.forall_mem_cons.mp has
      obtain ⟨hb, hbs'⟩ := List.forall_mem_cons.mp hbs
      simp only [bracketed, List.cons_append, List.append_assoc] at h
      obtain ⟨rfl, hrest⟩ := ha b _ _ hb (hclosing.delimits_listed as r)
        (hclosing.delimits_listed bs r') (List.cons.inj h).2
      obtain ⟨rfl, hr⟩ := eq_of_listed hclosing has' hbs' hrest
      exact ⟨rfl, hr⟩

end Parts

/-! ### Values -/

/-- All numbers of the value are finite. -/
inductive IsFinite : Json → Prop where
  | null : IsFinite null
  | bool (b : Bool) : IsFinite (bool b)
  | integer (n : Int) : IsFinite (integer n)
  | number {x : Binary64} (h : x.isFinite) : IsFinite (number x)
  | string (s : String) : IsFinite (string s)
  | array {vs : List Json} (h : ∀ v ∈ vs, IsFinite v) : IsFinite (array vs)
  | object {fs : List (String × Json)} (h : ∀ f ∈ fs, IsFinite f.2) : IsFinite (object fs)

/-- What the first character of a text tells of the value. -/
inductive Shape where
  | null | bool (value : Bool) | number | string | array | object

def shape : Json → Shape
  | null => .null
  | bool b => .bool b
  | integer _ | number _ => .number
  | string _ => .string
  | array _ => .array
  | object _ => .object

def Shape.ofChar? : Char → Option Shape
  | 'n' => some .null
  | 't' => some (.bool true)
  | 'f' => some (.bool false)
  | '"' => some .string
  | '[' => some .array
  | '\x7b' => some .object
  | c => if isNumeral c then some .number else none

theorem Shape.ofChar?_of_isNumeral {c : Char} (h : isNumeral c) : ofChar? c = some .number := by
  unfold ofChar?
  split
  case h_7 => exact if_pos h
  all_goals exact absurd h (by decide)

/-- The text of a number. -/
theorem IsFinite.numeral {v : Json} (h : v.IsFinite) (hv : v.shape = .number) (layout : Layout)
    (depth : Nat) :
    v.text layout depth ≠ [] ∧ ∀ c ∈ v.text layout depth, isNumeral c := by
  cases h with
  | integer n =>
    rw [text_integer]
    exact ⟨toString_integer_ne_nil n, fun c => isNumeral_of_mem_integer⟩
  | number hx =>
    obtain ⟨cs, hcs, -, hmem, hmarked⟩ := Binary64.exists_reportChars hx
    rw [text_number, hcs]
    exact ⟨by rintro rfl; simp at hmarked, hmem⟩
  | null | bool | string | array | object => contradiction

/-- An integer has no point and no power of ten, and other numbers read back from their texts. -/
theorem IsFinite.eq_of_numeral_eq {v w : Json} (hv : v.IsFinite) (hw : w.IsFinite)
    (hshape : v.shape = .number) (hshape' : w.shape = .number) {layout : Layout} {depth : Nat}
    (h : v.text layout depth = w.text layout depth) : v = w := by
  have happart : ∀ {n : Int} {x : Binary64}, x.isFinite →
      (Json.integer n).text layout depth ≠ (Json.number x).text layout depth := by
    intro n x hx heq
    obtain ⟨cs, hcs, -, -, hmarked⟩ := Binary64.exists_reportChars hx
    rw [text_integer, text_number, hcs, Option.getD_some] at heq
    rw [← heq] at hmarked
    rcases hmarked with hmem | hmem <;> have := mem_toString_integer hmem <;> simp at this
  cases hv with
  | integer m =>
    cases hw with
    | integer n =>
      rw [text_integer, text_integer] at h
      exact congrArg Json.integer (toString_integer_inj h)
    | number hy => exact absurd h (happart hy)
    | null | bool | string | array | object => contradiction
  | number hx =>
    cases hw with
    | integer n => exact absurd h.symm (happart hx)
    | number hy =>
      obtain ⟨cs, hcs, hread, -⟩ := Binary64.exists_reportChars hx
      obtain ⟨cs', hcs', hread', -⟩ := Binary64.exists_reportChars hy
      rw [text_number, text_number, hcs, hcs', Option.getD_some, Option.getD_some] at h
      subst h
      exact congrArg Json.number (Option.some.inj (hread.symm.trans hread'))
    | null | bool | string | array | object => contradiction
  | null | bool | string | array | object => contradiction

theorem IsFinite.exists_head {v : Json} (h : v.IsFinite) (layout : Layout) (depth : Nat) :
    ∃ c ∈ (v.text layout depth).head?, Shape.ofChar? c = some v.shape := by
  by_cases hv : v.shape = .number
  · obtain ⟨hne, hnumeral⟩ := h.numeral hv layout depth
    obtain ⟨c, cs, hcs⟩ := List.exists_cons_of_ne_nil hne
    rw [hcs] at hnumeral ⊢
    rw [hv]
    exact ⟨c, rfl, Shape.ofChar?_of_isNumeral (hnumeral c List.mem_cons_self)⟩
  cases v with
  | null => exact ⟨'n', by simp, rfl⟩
  | bool b => cases b <;> simp [shape, Shape.ofChar?]
  | integer | number => exact absurd rfl hv
  | string s => exact ⟨'"', by simp [stringText], rfl⟩
  | array vs => cases vs <;> simp [bracketed, shape, Shape.ofChar?]
  | object fs => cases fs <;> simp [bracketed, shape, Shape.ofChar?]

theorem Layout.closes_lineBreak (layout : Layout) (depth : Nat) {c : Char}
    (h : isNumeral c = false) (hc : c ≠ ',') :
    Closes ((layout.lineBreak depth).toList ++ [c]) := by
  cases layout with
  | compact => exact ⟨c, [], by simp [lineBreak], h, hc⟩
  | pretty => exact ⟨'\n', _, by simp [lineBreak]; rfl, rfl, by decide⟩

/-- An item or a field begins on a line of its own or with its own first character. -/
theorem Layout.head_lineBreak (layout : Layout) (depth : Nat) {cs : List Char} {close : Char}
    (hcs : ∃ c ∈ cs.head?, c ≠ close) (hclose : close ≠ '\n') :
    ∃ c ∈ ((layout.lineBreak depth).toList ++ cs).head?, c ≠ close := by
  cases layout with
  | compact => simpa [lineBreak] using hcs
  | pretty => exact ⟨'\n', by simp [lineBreak], hclose.symm⟩

theorem TellsApart.item {layout : Layout} {depth : Nat} {v : Json}
    (h : TellsApart (text layout (depth + 1)) IsFinite v) :
    TellsApart (itemText layout depth) IsFinite v := by
  intro w r r' hw hr hr' heq
  simp only [itemText, List.append_assoc] at heq
  exact h w r r' hw hr hr' (List.append_cancel_left heq)

theorem TellsApart.field {layout : Layout} {depth : Nat} {f : String × Json}
    (h : TellsApart (text layout (depth + 1)) IsFinite f.2) :
    TellsApart (fieldText layout depth) (fun f => IsFinite f.2) f := by
  intro g r r' hg hr hr' heq
  simp only [fieldText, List.append_assoc] at heq
  obtain ⟨hkey, hvalue⟩ := eq_of_stringText (List.append_cancel_left heq)
  obtain ⟨hv, hrest⟩ := h g.2 r r' hg hr hr' (List.append_cancel_left hvalue)
  exact ⟨Prod.ext hkey hv, hrest⟩

theorem IsFinite.head_ne {v : Json} (h : v.IsFinite) {layout : Layout} {depth : Nat} {c : Char}
    (hc : Shape.ofChar? c = none) : ∃ d ∈ (v.text layout depth).head?, d ≠ c := by
  obtain ⟨d, hd, hshape⟩ := h.exists_head layout depth
  refine ⟨d, hd, ?_⟩
  rintro rfl
  rw [hc] at hshape
  contradiction

/-- Texts that begin a text together are of one shape. -/
theorem IsFinite.shape_eq {v w : Json} (hv : v.IsFinite) (hw : w.IsFinite) {layout : Layout}
    {depth : Nat} {r r' : List Char} (h : v.text layout depth ++ r = w.text layout depth ++ r') :
    v.shape = w.shape := by
  obtain ⟨c, hc, hshape⟩ := hv.exists_head layout depth
  obtain ⟨d, hd, hshape'⟩ := hw.exists_head layout depth
  have hhead := congrArg List.head? h
  rw [List.head?_append, List.head?_append, hc, hd] at hhead
  cases hhead
  exact Option.some.inj (hshape.symm.trans hshape')

theorem IsFinite.tellsApart_numeral {v : Json} (hv : v.IsFinite) (hshape : v.shape = .number)
    (layout : Layout) (depth : Nat) : TellsApart (text layout depth) IsFinite v := by
  intro w r r' hw hr hr' h
  have hshape' : w.shape = .number := by rw [← hv.shape_eq hw h, hshape]
  obtain ⟨heq, hrest⟩ := eq_of_numeral (hv.numeral hshape layout depth).2
    (hw.numeral hshape' layout depth).2 hr hr' h
  exact ⟨hv.eq_of_numeral_eq hw hshape hshape' heq, hrest⟩

/-- Values with finite numbers whose texts begin a text together are the same. -/
theorem IsFinite.tellsApart {v : Json} (hv : v.IsFinite) (layout : Layout) :
    ∀ depth, TellsApart (text layout depth) IsFinite v := by
  induction hv with
  | integer n => exact (IsFinite.integer n).tellsApart_numeral rfl layout
  | number hx => exact (IsFinite.number hx).tellsApart_numeral rfl layout
  | null =>
    intro depth w r r' hw _ _ h
    have hshape := IsFinite.null.shape_eq hw h
    cases hw <;> simp [shape] at hshape
    exact ⟨rfl, List.append_cancel_left h⟩
  | bool b =>
    intro depth w r r' hw _ _ h
    have hshape := (IsFinite.bool b).shape_eq hw h
    cases hw <;> simp [shape] at hshape
    subst hshape
    exact ⟨rfl, List.append_cancel_left h⟩
  | string s =>
    intro depth w r r' hw _ _ h
    have hshape := (IsFinite.string s).shape_eq hw h
    cases hw <;> simp [shape] at hshape
    rw [text_string, text_string] at h
    obtain ⟨rfl, hr⟩ := eq_of_stringText h
    exact ⟨rfl, hr⟩
  | array hvs ih =>
    intro depth w r r' hw _ _ h
    have hshape := (IsFinite.array hvs).shape_eq hw h
    cases hw <;> simp [shape] at hshape
    next hws =>
      rw [text_array, text_array] at h
      obtain ⟨rfl, hr⟩ := eq_of_bracketed (layout.closes_lineBreak depth rfl (by decide))
        (fun v hv => layout.head_lineBreak _ (hv.head_ne rfl) (by decide)) hvs
        (fun v hv => (ih v hv _).item) hws h
      exact ⟨rfl, hr⟩
  | object hfs ih =>
    intro depth w r r' hw _ _ h
    have hshape := (IsFinite.object hfs).shape_eq hw h
    cases hw <;> simp [shape] at hshape
    next hgs =>
      rw [text_object, text_object] at h
      obtain ⟨rfl, hr⟩ := eq_of_bracketed (layout.closes_lineBreak depth rfl (by decide))
        (fun f _ => by
          simp only [fieldText, List.append_assoc]
          exact layout.head_lineBreak _ ⟨'"', by simp [stringText], by decide⟩ (by decide)) hfs
        (fun f hf => (ih f hf _).field) hgs h
      exact ⟨rfl, hr⟩

/-- In either layout the text tells the value. -/
theorem IsFinite.render_eq_iff {v w : Json} (hv : v.IsFinite) (hw : w.IsFinite) (layout : Layout) :
    v.render layout = w.render layout ↔ v = w := by
  refine ⟨fun h => ?_, fun h => h ▸ rfl⟩
  have htext : v.text layout 0 ++ [] = w.text layout 0 ++ [] := by
    rw [List.append_nil, List.append_nil]
    exact congrArg String.toList h
  exact (hv.tellsApart layout 0 w [] [] hw (by simp [Delimits]) (by simp [Delimits]) htext).1

end Json

end FilterLang
