import FilterLang.Proofs.Agreement

/-! The two layouts of a value. A scan that tells strings from what is outside of them deletes the
spaces and line breaks outside. A text denotes a value if it is put together as the value is, with
such blanks around any of the values and keys in it; what is left of it by the scan is then the
compact layout, so a text denotes one value at most. Both layouts denote the value, but for numbers
that are not finite: these are written `null`. -/
namespace FilterLang

namespace Json

/-! ### Deleting blanks -/

/-- Outside of strings, inside one, or inside one behind a backslash. -/
inductive Scan where
  | outside | inside | escaped
deriving DecidableEq

namespace Scan

def after : Scan → Char → Scan
  | outside, c => if c = '"' then inside else outside
  | inside, c => if c = '"' then outside else if c = '\\' then escaped else inside
  | escaped, _ => inside

end Scan

def isGap (c : Char) : Bool := c == ' ' || c == '\n'

/-- The text without the spaces and line breaks outside of strings. -/
def unspaced (s : Scan) : List Char → List Char
  | [] => []
  | c :: cs =>
    if s = .outside ∧ isGap c then unspaced s cs else c :: unspaced (s.after c) cs

/-- Outside of strings the character is kept and begins no string. -/
def isPlain (c : Char) : Bool := !isGap c && c != '"'

variable {c : Char} {cs u r : List Char} {v w : Json}

theorem unspaced_gap (h : isGap c) : unspaced .outside (c :: r) = unspaced .outside r :=
  if_pos ⟨rfl, h⟩

theorem unspaced_gaps (h : ∀ c ∈ u, isGap c) :
    unspaced .outside (u ++ r) = unspaced .outside r := by
  induction u with
  | nil => rfl
  | cons c u ih =>
    obtain ⟨hc, hu⟩ := List.forall_mem_cons.mp h
    rw [List.cons_append, unspaced_gap hc, ih hu]

theorem unspaced_plain (h : isPlain c) : unspaced .outside (c :: r) = c :: unspaced .outside r := by
  simp only [isPlain, Bool.and_eq_true, Bool.not_eq_true', bne_iff_ne] at h
  simp [unspaced, Scan.after, h.1, h.2]

theorem unspaced_plains (h : ∀ c ∈ u, isPlain c) :
    unspaced .outside (u ++ r) = u ++ unspaced .outside r := by
  induction u with
  | nil => rfl
  | cons c u ih =>
    obtain ⟨hc, hu⟩ := List.forall_mem_cons.mp h
    rw [List.cons_append, unspaced_plain hc, ih hu, List.cons_append]

theorem isPlain_of_isNumeral (h : isNumeral c) : isPlain c := by
  have hne : ∀ d, isNumeral d = false → c ≠ d := by
    rintro _ hd rfl
    rw [hd] at h
    contradiction
  simp [isPlain, isGap, hne ' ' rfl, hne '\n' rfl, hne '"' rfl]

/-! ### Strings in a scan -/

/-- What is behind a backslash neither ends a string nor escapes what follows it. -/
theorem unspaced_escapedChar (c : Char) (r : List Char) :
    unspaced .inside (escapedChar c ++ r) = escapedChar c ++ unspaced .inside r := by
  unfold escapedChar
  split
  case h_8 hquote hslash _ _ _ _ _ =>
    split_ifs
    · simp [unspaced, Scan.after]
    · simp [unspaced, Scan.after, if_neg hquote, if_neg hslash]
  all_goals rfl

/-- A scan leaves a string as it is. -/
theorem unspaced_stringText (s : String) :
    unspaced .outside (stringText s ++ r) = stringText s ++ unspaced .outside r := by
  have hchars : ∀ cs : List Char, unspaced .inside (cs.flatMap escapedChar ++ '"' :: r) =
      cs.flatMap escapedChar ++ '"' :: unspaced .outside r := by
    intro cs
    induction cs with
    | nil => simp [unspaced, Scan.after]
    | cons c cs ih => simp [unspaced_escapedChar, ih]
  simp [stringText, unspaced, Scan.after, hchars, isGap]

/-- The quote behind the backslash does not end the string. -/
example : unspaced .outside "[ \"a \\\" b\",\n  1 ]".toList = "[\"a \\\" b\",1]".toList := by decide

/-! ### Brackets in a scan -/

section Parts

variable {α β : Type} {part part' : α → List Char} {opening closing : Char} {gap : List Char}

theorem bracketed_map (part : β → List Char) (f : α → β) (as : List α) :
    bracketed part opening closing gap (as.map f) =
      bracketed (fun a => part (f a)) opening closing gap as := by
  cases as with
  | nil => rfl
  | cons a as => simp [bracketed, listed, List.flatMap_map]

theorem bracketed_congr {as : List α} (h : ∀ a ∈ as, part a = part' a) :
    bracketed part opening closing gap as = bracketed part' opening closing gap as := by
  cases as with
  | nil => rfl
  | cons a as =>
    obtain ⟨ha, has⟩ := List.forall_mem_cons.mp h
    have hrest : as.flatMap (fun a => ',' :: part a) = as.flatMap (fun a => ',' :: part' a) :=
      List.flatMap_congr fun a ha => by rw [has a ha]
    rw [bracketed, bracketed, listed, listed, ha, hrest]

/-- Parts are scanned one after another. -/
theorem unspaced_listed {as : List α} (hclosing : isPlain closing) (hgap : ∀ c ∈ gap, isGap c)
    (h : ∀ a ∈ as, ∀ r, unspaced .outside (part a ++ r) = part' a ++ unspaced .outside r) :
    unspaced .outside (listed part (gap ++ [closing]) as ++ r) =
      listed part' [closing] as ++ unspaced .outside r := by
  induction as with
  | nil => simp [listed, unspaced_gaps hgap, unspaced_plain hclosing]
  | cons a as ih =>
    obtain ⟨ha, has⟩ := List.forall_mem_cons.mp h
    have hrest := ih has
    simp only [listed, List.append_assoc, List.singleton_append] at hrest
    simp [listed, unspaced_plain (c := ',') rfl, ha, hrest]

theorem unspaced_bracketed {as : List α} (hopening : isPlain opening) (hclosing : isPlain closing)
    (hgap : ∀ c ∈ gap, isGap c)
    (h : ∀ a ∈ as, ∀ r, unspaced .outside (part a ++ r) = part' a ++ unspaced .outside r)
    (r : List Char) : unspaced .outside (bracketed part opening closing gap as ++ r) =
      bracketed part' opening closing [] as ++ unspaced .outside r := by
  cases as with
  | nil => simp [bracketed, unspaced_plain hopening, unspaced_plain hclosing]
  | cons a as =>
    obtain ⟨ha, has⟩ := List.forall_mem_cons.mp h
    simp [bracketed, unspaced_plain hopening, ha, unspaced_listed hclosing hgap has]

end Parts

/-! ### Texts that denote a value -/

/-- A field of an object as it is written, with what stands before and behind its key. -/
structure Field where
  before : List Char
  key : String
  behind : List Char
  text : List Char
  value : Json

def Field.chars (f : Field) : List Char :=
  f.before ++ stringText f.key ++ f.behind ++ ':' :: f.text

/-- The text is JSON for the value. Spaces and line breaks may stand around every value and every
key; words, numbers and strings are spelled as they are written. -/
inductive Denotes : List Char → Json → Prop where
  | null : Denotes ['n', 'u', 'l', 'l'] null
  | bool (b : Bool) :
      Denotes (if b then ['t', 'r', 'u', 'e'] else ['f', 'a', 'l', 's', 'e']) (bool b)
  | integer (n : Int) : Denotes (toString n).toList (integer n)
  | number {x : Binary64} {cs : List Char} (h : x.reportChars? = some cs) : Denotes cs (number x)
  | string (s : String) : Denotes (stringText s) (string s)
  | array {gap : List Char} {items : List (List Char × Json)} (hgap : ∀ c ∈ gap, isGap c)
      (h : ∀ i ∈ items, Denotes i.1 i.2) :
      Denotes (bracketed Prod.fst '[' ']' gap items) (array (items.map Prod.snd))
  | object {gap : List Char} {fields : List Field} (hgap : ∀ c ∈ gap, isGap c)
      (hbefore : ∀ f ∈ fields, ∀ c ∈ f.before, isGap c)
      (hbehind : ∀ f ∈ fields, ∀ c ∈ f.behind, isGap c)
      (h : ∀ f ∈ fields, Denotes f.text f.value) :
      Denotes (bracketed Field.chars '\x7b' '\x7d' gap fields)
        (object (fields.map fun f => (f.key, f.value)))
  | gapBefore {c : Char} {cs : List Char} {v : Json} (hc : isGap c) (h : Denotes cs v) :
      Denotes (c :: cs) v
  | gapBehind {c : Char} {cs : List Char} {v : Json} (hc : isGap c) (h : Denotes cs v) :
      Denotes (cs ++ [c]) v

/-- What a scan leaves of a text is the compact layout of the value that it denotes. -/
theorem Denotes.unspaced_eq (h : Denotes cs v) : ∀ depth r,
    unspaced .outside (cs ++ r) = v.text .compact depth ++ unspaced .outside r := by
  have hnumeral : ∀ {u : List Char}, (∀ c ∈ u, isNumeral c) → ∀ r,
      unspaced .outside (u ++ r) = u ++ unspaced .outside r :=
    fun hu r => unspaced_plains fun c hc => isPlain_of_isNumeral (hu c hc)
  induction h with
  | null =>
    intro depth r
    rw [text_null]
    exact unspaced_plains (List.all_eq_true.mp rfl)
  | bool b =>
    intro depth r
    rw [text_bool]
    cases b <;> exact unspaced_plains (List.all_eq_true.mp rfl)
  | integer n =>
    intro depth r
    rw [text_integer]
    exact hnumeral (fun c => isNumeral_of_mem_integer) r
  | @number x cs hx =>
    intro depth r
    have hfinite := Binary64.isFinite_of_reportChars? hx
    obtain ⟨cs', hcs', -, hmem, -⟩ := Binary64.exists_reportChars hfinite
    obtain rfl : cs = cs' := Option.some.inj (hx.symm.trans hcs')
    rw [text_number, hx, Option.getD_some]
    exact hnumeral hmem r
  | string s =>
    intro depth r
    rw [text_string]
    exact unspaced_stringText s
  | array hgap _ ih =>
    intro depth r
    rw [text_array, bracketed_map]
    refine unspaced_bracketed rfl rfl hgap (fun i hi r => ?_) r
    exact ih i hi (depth + 1) r
  | object hgap hbefore hbehind _ ih =>
    intro depth r
    rw [text_object, bracketed_map]
    refine unspaced_bracketed rfl rfl hgap (fun f hf r => ?_) r
    have hvalue := ih f hf (depth + 1) r
    simp [Field.chars, fieldText, Layout.lineBreak, Layout.colon, unspaced_gaps (hbefore f hf),
      unspaced_stringText, unspaced_gaps (hbehind f hf), unspaced_plain (c := ':') rfl, hvalue]
  | gapBefore hc _ ih =>
    intro depth r
    rw [List.cons_append, unspaced_gap hc, ih]
  | gapBehind hc _ ih =>
    intro depth r
    rw [List.append_assoc, ih, List.singleton_append, unspaced_gap hc]

theorem Denotes.isFinite (h : Denotes cs v) : v.IsFinite := by
  induction h with
  | null => exact .null
  | bool b => exact .bool b
  | integer n => exact .integer n
  | number hx => exact .number (Binary64.isFinite_of_reportChars? hx)
  | string s => exact .string s
  | array _ _ ih => exact .array (List.forall_mem_map.mpr ih)
  | object _ _ _ _ ih => exact .object (List.forall_mem_map.mpr ih)
  | gapBefore _ _ ih => exact ih
  | gapBehind _ _ ih => exact ih

/-- A text denotes one value at most. -/
theorem Denotes.unique (hv : Denotes cs v) (hw : Denotes cs w) : v = w := by
  have hleft := hv.unspaced_eq 0 []
  have hright := hw.unspaced_eq 0 []
  rw [List.append_nil] at hleft hright
  have htext : v.text .compact 0 = w.text .compact 0 :=
    List.append_cancel_right (hleft.symm.trans hright)
  exact (hv.isFinite.render_eq_iff hw.isFinite .compact).mp (String.toList_inj.mp htext)

/-! ### Layouts of a value -/

/-- The value as its text tells it: numbers that are not finite are written `null`. -/
def asWritten : Json → Json
  | number x => if x.isFinite then number x else null
  | array vs => array (vs.map asWritten)
  | object fs => object (fs.map fun f => (f.1, f.2.asWritten))
  | v => v
decreasing_by
  · decreasing_tactic
  · have hfield : sizeOf f < sizeOf fs := List.sizeOf_lt_of_mem ‹f ∈ fs›
    have hvalue : sizeOf f.2 < sizeOf f := by cases f; simp
    simp
    omega

theorem text_asWritten (v : Json) (layout : Layout) :
    ∀ depth, v.asWritten.text layout depth = v.text layout depth := by
  induction v using induction with
  | null | bool | integer | string => simp [asWritten]
  | number x =>
    intro depth
    by_cases hx : x.isFinite
    · simp [asWritten, hx]
    · have hnone : x.reportChars? = none := by simpa [← x.isSome_reportChars?] using hx
      simp [asWritten, hx, text_number, hnone]
  | array vs ih =>
    intro depth
    rw [asWritten, text_array, text_array, bracketed_map]
    exact bracketed_congr fun v hv => by rw [itemText, itemText, ih v hv]
  | object fs ih =>
    intro depth
    rw [asWritten, text_object, text_object, bracketed_map]
    exact bracketed_congr fun f hf => by rw [fieldText, fieldText, ih f hf]

theorem Layout.isGap_of_mem_lineBreak (layout : Layout) (depth : Nat) :
    ∀ c ∈ (layout.lineBreak depth).toList, isGap c := by
  cases layout <;> simp [lineBreak, isGap]

theorem Layout.isGap_of_mem_colon (layout : Layout) :
    ∀ c ∈ layout.colon.toList.tail, isGap c := by
  cases layout <;> simp [colon, isGap]

/-- A field of an object whose brackets stand at the given depth. -/
def Field.laidOut (layout : Layout) (depth : Nat) (f : String × Json) : Field where
  before := (layout.lineBreak (depth + 1)).toList
  key := f.1
  behind := []
  text := layout.colon.toList.tail ++ f.2.text layout (depth + 1)
  value := f.2.asWritten

theorem Field.chars_laidOut (layout : Layout) (depth : Nat) (f : String × Json) :
    (laidOut layout depth f).chars = fieldText layout depth f := by
  cases layout <;> simp [chars, laidOut, fieldText, Layout.colon]

theorem Denotes.gaps (hu : ∀ c ∈ u, isGap c) (h : Denotes cs v) : Denotes (u ++ cs) v := by
  induction u with
  | nil => exact h
  | cons c u ih =>
    obtain ⟨hc, hu⟩ := List.forall_mem_cons.mp hu
    exact .gapBefore hc (ih hu)

/-- The text of a value in either layout denotes the value as it is written. -/
theorem denotes_text (v : Json) (layout : Layout) :
    ∀ depth, Denotes (v.text layout depth) v.asWritten := by
  induction v using induction with
  | null => simpa [asWritten] using Denotes.null
  | bool b => simpa [asWritten] using Denotes.bool b
  | integer n => simpa [asWritten] using Denotes.integer n
  | string s => simpa [asWritten] using Denotes.string s
  | number x =>
    intro depth
    have hfinite := x.isSome_reportChars?
    rw [text_number, asWritten]
    cases hx : x.reportChars? with
    | none =>
      rw [hx, Option.isSome_none] at hfinite
      simpa [← hfinite] using Denotes.null
    | some cs =>
      rw [hx, Option.isSome_some] at hfinite
      simpa [← hfinite] using Denotes.number hx
  | array vs ih =>
    intro depth
    let items := vs.map fun v => (itemText layout depth v, v.asWritten)
    have hitems : ∀ i ∈ items, Denotes i.1 i.2 := List.forall_mem_map.mpr fun v hv =>
      .gaps (layout.isGap_of_mem_lineBreak _) (ih v hv (depth + 1))
    have h := Denotes.array (layout.isGap_of_mem_lineBreak depth) hitems
    rw [text_array, asWritten]
    simpa [items, bracketed_map, Function.comp_def] using h
  | object fs ih =>
    intro depth
    let fields := fs.map (Field.laidOut layout depth)
    have hbefore : ∀ f ∈ fields, ∀ c ∈ f.before, isGap c :=
      List.forall_mem_map.mpr fun f _ => layout.isGap_of_mem_lineBreak _
    have hbehind : ∀ f ∈ fields, ∀ c ∈ f.behind, isGap c :=
      List.forall_mem_map.mpr fun f _ => by simp [Field.laidOut]
    have hfields : ∀ f ∈ fields, Denotes f.text f.value :=
      List.forall_mem_map.mpr fun f hf => .gaps layout.isGap_of_mem_colon (ih f hf (depth + 1))
    have h := Denotes.object (layout.isGap_of_mem_lineBreak depth) hbefore hbehind hfields
    simp only [fields, bracketed_map, Field.chars_laidOut] at h
    rw [text_object, asWritten]
    simpa [Function.comp_def, Field.laidOut] using h

theorem denotes_render_iff (v : Json) (layout : Layout) :
    Denotes (v.render layout).toList w ↔ w = v.asWritten :=
  ⟨fun h => h.unique (v.denotes_text layout 0), fun h => h ▸ v.denotes_text layout 0⟩

/-- The texts are the two layouts of one value. -/
structure Paired (pretty compact : String) (v : Json) : Prop where
  unspaced_eq : unspaced .outside pretty.toList = compact.toList
  pretty_denotes : ∀ w, Denotes pretty.toList w ↔ w = v
  compact_denotes : ∀ w, Denotes compact.toList w ↔ w = v

theorem paired_render (v : Json) : Paired (v.render .pretty) (v.render .compact) v.asWritten where
  unspaced_eq := by
    have hscan := (v.denotes_text .pretty 0).unspaced_eq 0 []
    rw [text_asWritten, List.append_nil] at hscan
    exact hscan.trans (List.append_nil _)
  pretty_denotes _ := denotes_render_iff v _
  compact_denotes _ := denotes_render_iff v _

end Json

/-! ### Commands -/

/-- Deleting the spaces and line breaks outside of strings turns the pretty layout of a value into
the compact one, and both denote the value as it is written and no other. The commands fail alike in
either layout; else the verdict is the same and the two outputs are the layouts of one report. -/
theorem layouts_paired :
    (∀ v : Json, Json.Paired (v.render .pretty) (v.render .compact) v.asWritten) ∧
    ∀ (engine : Engine) (o : Options),
      ((∃ f, check { o with layout := .pretty } engine = .error f ∧
          check { o with layout := .compact } engine = .error f) ∨
        ∃ r r', check { o with layout := .pretty } engine = .ok r ∧
          check { o with layout := .compact } engine = .ok r' ∧ r.verdict = r'.verdict ∧
          Json.Paired r.output r'.output (Verdict.report r.verdict).asWritten) ∧
      ((∃ f, listTokens { o with layout := .pretty } engine = .error f ∧
          listTokens { o with layout := .compact } engine = .error f) ∨
        ∃ ts pretty compact, listTokens { o with layout := .pretty } engine = .ok pretty ∧
          listTokens { o with layout := .compact } engine = .ok compact ∧
          Json.Paired pretty compact (reportTokens ts).asWritten) := by
  refine ⟨Json.paired_render, fun engine o => ?_⟩
  have hprepare : ∀ layout, ({ o with layout } : Options).prepare engine = o.prepare engine :=
    fun _ => rfl
  cases h : o.prepare engine with
  | error f =>
    have hfails : ∀ layout, ({ o with layout } : Options).prepare engine = .error f :=
      fun layout => (hprepare layout).trans h
    exact ⟨.inl ⟨f, check_of_error (hfails _), check_of_error (hfails _)⟩,
      .inl ⟨f, listTokens_of_error (hfails _), listTokens_of_error (hfails _)⟩⟩
  | ok prepared =>
    obtain ⟨text, s⟩ := prepared
    have hready : ∀ layout, ({ o with layout } : Options).prepare engine = .ok (text, s) :=
      fun layout => (hprepare layout).trans h
    refine ⟨.inr ⟨_, _, check_of_prepare (hready _), check_of_prepare (hready _), rfl,
      Json.paired_render _⟩, ?_⟩
    cases htokens : s.tokenize text with
    | error e =>
      exact .inl ⟨_, listTokens_of_unrecognized (hready _) htokens,
        listTokens_of_unrecognized (hready _) htokens⟩
    | ok ts =>
      exact .inr ⟨ts, _, _, listTokens_of_tokens (hready _) htokens,
        listTokens_of_tokens (hready _) htokens, Json.paired_render _⟩

end FilterLang
