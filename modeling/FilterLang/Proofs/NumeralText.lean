import FilterLang.Binary64.Numeral
import FilterLang.Proofs.Rounding
import Mathlib.Data.List.TakeWhile

/-! The text of numbers. A plain numeral is digits, or digits with a point among them; that is how a
finite number that is not negative is displayed, and a plain numeral reads as such a number. A report
has a point or a power of ten in every number. What is displayed or reported reads back as the
number. -/
namespace FilterLang

/-- The text is a plain numeral with these digits before and behind the point. -/
inductive PlainNumeral : List Char → List Char → List Char → Prop where
  | integer {w : List Char} (hne : w ≠ []) (hw : ∀ c ∈ w, c.isDigit) : PlainNumeral w w []
  | point {w f : List Char} (hne : w ≠ []) (hw : ∀ c ∈ w, c.isDigit) (hfne : f ≠ [])
      (hf : ∀ c ∈ f, c.isDigit) : PlainNumeral (w ++ '.' :: f) w f

theorem takeWhile_isDigit_point {w : List Char} (hw : ∀ c ∈ w, c.isDigit) (rest : List Char) :
    (w ++ '.' :: rest).takeWhile Char.isDigit = w := by
  rw [List.takeWhile_append_of_pos hw]
  simp [show Char.isDigit '.' = false from rfl]

theorem dropWhile_isDigit_point {w : List Char} (hw : ∀ c ∈ w, c.isDigit) (rest : List Char) :
    (w ++ '.' :: rest).dropWhile Char.isDigit = '.' :: rest := by
  rw [List.dropWhile_append_of_pos hw]
  simp [show Char.isDigit '.' = false from rfl]

theorem toLower_of_isDigit {c : Char} (h : c.isDigit) : c.toLower = c := by
  simp only [Char.isDigit, Bool.and_eq_true, decide_eq_true_eq] at h
  unfold Char.toLower
  rw [dif_neg]
  rintro ⟨hupper, -⟩
  exact absurd (UInt32.le_trans hupper h.2) (by decide)

namespace Binary64

variable {c : Char} {rest : List Char}

/-- A text that begins with a digit is no word, whatever sign stands before it. -/
theorem ofChars?_sign (hc : c.isDigit) (negative : Bool) : ofChars? (sign negative ++ c :: rest) =
    (Decimal.ofChars? (c :: rest)).map fun d => signed negative (Magnitude.nearest d) := by
  have hne : ∀ d : Char, d.isDigit = false → c ≠ d := by
    rintro d hd rfl
    simp [hc] at hd
  have hword : ∀ (d : Char) (ds : List Char), d.isDigit = false →
      (c :: rest).map Char.toLower ≠ d :: ds := by
    intro d ds hd heq
    rw [List.map_cons, toLower_of_isDigit hc] at heq
    exact hne d hd (List.cons.inj heq).1
  have hnan : (c :: rest).map Char.toLower ≠ "nan".toList := hword 'n' _ rfl
  have hinf : (c :: rest).map Char.toLower ≠ "inf".toList := hword 'i' _ rfl
  have hinfinity : (c :: rest).map Char.toLower ≠ "infinity".toList := hword 'i' _ rfl
  have hsign : ofChars? (sign negative ++ c :: rest) = unsigned? negative (c :: rest) := by
    cases negative with
    | true => rfl
    | false =>
      unfold ofChars?
      split
      next heq => exact absurd (List.cons.inj heq).1 (hne '-' rfl)
      next heq => exact absurd (List.cons.inj heq).1 (hne '+' rfl)
      next => rfl
  rw [hsign, unsigned?, if_neg hnan, if_neg (not_or.mpr ⟨hinf, hinfinity⟩)]

end Binary64

namespace PlainNumeral

variable {cs w f : List Char}

theorem head_isDigit (h : PlainNumeral cs w f) : ∃ c rest, cs = c :: rest ∧ c.isDigit := by
  cases h with
  | integer hne hw =>
    obtain ⟨c, rest, rfl⟩ := List.exists_cons_of_ne_nil hne
    exact ⟨c, rest, rfl, hw c (by simp)⟩
  | point hne hw _ _ =>
    obtain ⟨c, rest, rfl⟩ := List.exists_cons_of_ne_nil hne
    exact ⟨c, _, rfl, hw c (by simp)⟩

theorem mem (h : PlainNumeral cs w f) : ∀ c ∈ cs, c.isDigit ∨ c = '.' := by
  intro c hc
  cases h with
  | integer _ hw => exact .inl (hw c hc)
  | point _ hw _ hf =>
    rcases List.mem_append.mp hc with hc | hc
    · exact .inl (hw c hc)
    · rcases List.mem_cons.mp hc with hc | hc
      · exact .inr hc
      · exact .inl (hf c hc)

/-- The decimal that a plain numeral stands for. -/
theorem ofChars? (h : PlainNumeral cs w f) : Decimal.ofChars? cs =
    some ⟨Nat.ofDigitChars 10 (w ++ f) 0, -(f.length : Int)⟩ := by
  cases h with
  | integer hne hw =>
    have htake : cs.takeWhile Char.isDigit = cs := List.takeWhile_eq_self_iff.mpr hw
    have hdrop : cs.dropWhile Char.isDigit = [] := List.dropWhile_eq_nil_iff.mpr hw
    simp [Decimal.ofChars?, Decimal.exponent?, htake, hdrop, hne]
  | point hne hw hfne hf =>
    have htake := takeWhile_isDigit_point hw f
    have hdrop := dropWhile_isDigit_point hw f
    have hftake : f.takeWhile Char.isDigit = f := List.takeWhile_eq_self_iff.mpr hf
    have hfdrop : f.dropWhile Char.isDigit = [] := List.dropWhile_eq_nil_iff.mpr hf
    simp [Decimal.ofChars?, Decimal.exponent?, htake, hdrop, hftake, hfdrop, hne]

/-- A plain numeral reads as a number without a sign. -/
theorem binary64 (h : PlainNumeral cs w f) : Binary64.ofChars? cs = some (.signed false
    (Magnitude.nearest ⟨Nat.ofDigitChars 10 (w ++ f) 0, -(f.length : Int)⟩)) := by
  obtain ⟨c, rest, rfl, hc⟩ := h.head_isDigit
  have hread : Binary64.ofChars? (c :: rest) = _ := Binary64.ofChars?_sign hc false
  rw [hread, h.ofChars?]
  rfl

end PlainNumeral

/-! ### Display -/

namespace Decimal

theorem isDigit_of_mem_digits (d : Decimal) : ∀ c ∈ d.digits, c.isDigit := fun _ hc =>
  Nat.isDigit_of_mem_toDigits (by decide) (by decide) hc

theorem digits_ne_nil (d : Decimal) : d.digits ≠ [] := Nat.toDigits_ne_nil

theorem isDigit_of_mem_zeros (n : Nat) : ∀ c ∈ zeros n, c.isDigit := by
  intro c hc
  rw [List.eq_of_mem_replicate hc]
  rfl

/-- The text is a plain numeral with the value of the decimal. -/
def PlainText (d : Decimal) (cs : List Char) : Prop :=
  ∃ w f, PlainNumeral cs w f ∧ Same ⟨Nat.ofDigitChars 10 (w ++ f) 0, -(f.length : Int)⟩ d

theorem ofDigitChars_digits (d : Decimal) : Nat.ofDigitChars 10 d.digits 0 = d.coefficient :=
  Nat.ofDigitChars_ten_toDigits

/-- Without a point the exponent is written out in zeros. -/
theorem plainText_zeros (c n : Nat) : PlainText ⟨c, n⟩ (digits ⟨c, n⟩ ++ zeros n) := by
  refine ⟨digits ⟨c, n⟩ ++ zeros n, [], ?_, ?_⟩
  · refine .integer (by simp [digits_ne_nil]) fun a ha => ?_
    rcases List.mem_append.mp ha with ha | ha
    · exact isDigit_of_mem_digits _ a ha
    · exact isDigit_of_mem_zeros n a ha
  · have hshift := same_shift c n 0
    rw [List.append_nil, Nat.ofDigitChars_append, ofDigitChars_digits, zeros,
      Nat.ofDigitChars_replicate_zero]
    simp only [Same, Int.zero_add, Nat.mul_comm c] at hshift
    exact hshift.symm

/-- The point may stand among the digits. -/
theorem plainText_among {c n : Nat} {ds : List Char} (hds : ds = digits ⟨c, .negSucc n⟩)
    (h : n + 1 < ds.length) : PlainText ⟨c, .negSucc n⟩
      (ds.take (ds.length - (n + 1)) ++ '.' :: ds.drop (ds.length - (n + 1))) := by
  have hmem := isDigit_of_mem_digits ⟨c, .negSucc n⟩
  rw [← hds] at hmem
  refine ⟨_, _, .point ?_ (fun a ha => hmem a (List.mem_of_mem_take ha)) ?_
    (fun a ha => hmem a (List.mem_of_mem_drop ha)), ?_⟩
  · exact fun hnil => absurd (congrArg List.length hnil) (by simp; omega)
  · exact fun hnil => absurd (congrArg List.length hnil) (by simp; omega)
  · have hexp : (-((ds.drop (ds.length - (n + 1))).length : Int)) = .negSucc n := by
      rw [List.length_drop]
      omega
    rw [List.take_append_drop, hexp, hds, ofDigitChars_digits]
    rfl

/-- Behind a zero and the point as many zeros stand as there are digits missing. -/
theorem plainText_below {c n : Nat} {ds : List Char} (hds : ds = digits ⟨c, .negSucc n⟩)
    (h : ds.length ≤ n + 1) :
    PlainText ⟨c, .negSucc n⟩ ('0' :: '.' :: zeros (n + 1 - ds.length) ++ ds) := by
  have hmem := isDigit_of_mem_digits ⟨c, .negSucc n⟩
  have hne := digits_ne_nil ⟨c, .negSucc n⟩
  rw [← hds] at hmem hne
  refine ⟨['0'], zeros (n + 1 - ds.length) ++ ds, ?_, ?_⟩
  · refine .point (w := ['0']) (by simp) (by simp) (by simp [hne]) fun a ha => ?_
    rcases List.mem_append.mp ha with ha | ha
    · exact isDigit_of_mem_zeros _ a ha
    · exact hmem a ha
  · have hexp : (-((zeros (n + 1 - ds.length) ++ ds).length : Int)) = .negSucc n := by
      have hpos := List.length_pos_iff.mpr hne
      rw [List.length_append, zeros, List.length_replicate]
      omega
    have hvalue : Nat.ofDigitChars 10 (['0'] ++ (zeros (n + 1 - ds.length) ++ ds)) 0 = c := by
      rw [Nat.ofDigitChars_append, Nat.ofDigitChars_append, zeros,
        Nat.ofDigitChars_replicate_zero, hds]
      exact ofDigitChars_digits ⟨c, .negSucc n⟩
    rw [hvalue, hexp]
    rfl

/-- The positional text of a decimal is a plain numeral of the same value. -/
theorem positional_plain (d : Decimal) : d.PlainText (d.positional []) := by
  obtain ⟨c, e⟩ := d
  cases e with
  | ofNat n =>
    simp only [positional, List.append_nil]
    exact plainText_zeros c n
  | negSucc n =>
    simp only [positional]
    split_ifs with hlt
    · exact plainText_among rfl hlt
    · exact plainText_below rfl (by omega)

end Decimal

namespace Binary64

/-- A finite number that is not negative is displayed as a plain numeral that reads back. -/
theorem displayChars_plain {m : Magnitude} (h : m.isFinite) :
    ∃ w f, PlainNumeral (signed false m).displayChars w f ∧
      ofChars? (signed false m).displayChars = some (.signed false m) := by
  have hchars : (signed false m).displayChars = (m.shortest .up).positional [] := by
    simp [displayChars, sign, h, NumberStyle.magnitude, NumberStyle.display]
  obtain ⟨w, f, hplain, hsame⟩ := (m.shortest .up).positional_plain
  rw [hchars]
  refine ⟨w, f, hplain, ?_⟩
  rw [hplain.binary64, Magnitude.nearest_congr hsame, Magnitude.nearest_shortest]

end Binary64

/-! ### Reports -/

/-- The characters that numbers are written with. -/
def isNumeral (c : Char) : Bool := c.isDigit || c ∈ ['.', 'e', '+', '-']

theorem isNumeral_of_isDigit {c : Char} (h : c.isDigit) : isNumeral c := by simp [isNumeral, h]

namespace Decimal

/-- An integer in a report has a zero behind its point. -/
theorem positional_report_plain (d : Decimal) : d.PlainText (d.positional ['.', '0']) := by
  obtain ⟨c, e⟩ := d
  cases e with
  | ofNat n =>
    refine ⟨digits ⟨c, n⟩ ++ zeros n, ['0'], ?_, ?_⟩
    · refine .point (by simp [digits_ne_nil]) (fun a ha => ?_) (by simp) (by simp)
      rcases List.mem_append.mp ha with ha | ha
      · exact isDigit_of_mem_digits _ a ha
      · exact isDigit_of_mem_zeros n a ha
    · have hzeros : zeros n ++ ['0'] = zeros (n + 1) := List.replicate_succ'.symm
      have hshift := same_shift c (n + 1) (-1)
      have hexp : (-1 : Int) + (n + 1 : Nat) = n := by omega
      rw [List.append_assoc, hzeros, Nat.ofDigitChars_append, ofDigitChars_digits, zeros,
        Nat.ofDigitChars_replicate_zero, Nat.mul_comm]
      rw [hexp] at hshift
      exact hshift.symm
  | negSucc n => exact positional_plain ⟨c, .negSucc n⟩

/-- The sign and the digits of a power of ten. -/
def power : Int → List Char
  | .ofNat n => '+' :: Nat.toDigits 10 n
  | .negSucc n => '-' :: Nat.toDigits 10 (n + 1)

theorem exponent?_power (n : Int) : exponent? ('e' :: power n) = some n := by
  have hdigits : ∀ k : Nat, (Nat.toDigits 10 k).all Char.isDigit = true := fun k =>
    List.all_eq_true.mpr fun _ hc => Nat.isDigit_of_mem_toDigits (by decide) (by decide) hc
  cases n with
  | ofNat n => simp [exponent?, power, hdigits, Nat.ofDigitChars_ten_toDigits, Nat.toDigits_ne_nil]
  | negSucc n =>
    simp [exponent?, power, hdigits, Nat.ofDigitChars_ten_toDigits, Nat.toDigits_ne_nil]
    omega

theorem scientific_eq (d : Decimal) : ∃ c ds, d.digits = c :: ds ∧
    d.scientific = c :: (if ds = [] then [] else '.' :: ds) ++ 'e' :: power d.order := by
  obtain ⟨c, ds, hds⟩ := List.exists_cons_of_ne_nil d.digits_ne_nil
  refine ⟨c, ds, hds, ?_⟩
  cases ds <;> simp only [scientific, hds] <;> cases d.order <;> rfl

/-- What is written with a power of ten reads as the very decimal. -/
theorem ofChars?_scientific (d : Decimal) : ofChars? d.scientific = some d := by
  obtain ⟨c, ds, hds, htext⟩ := d.scientific_eq
  have hdigit : ∀ a ∈ c :: ds, a.isDigit := by
    rw [← hds]
    exact d.isDigit_of_mem_digits
  have hvalue : Nat.ofDigitChars 10 (c :: ds) 0 = d.coefficient := by
    rw [← hds]
    exact d.ofDigitChars_digits
  have horder : d.order - ds.length = d.exponent := by
    simp only [order, hds, List.length_cons]
    omega
  have he : Char.isDigit 'e' = false := rfl
  have hpoint : Char.isDigit '.' = false := rfl
  have hmore : ∀ a ∈ ds, a.isDigit := fun a ha => hdigit a (List.mem_cons_of_mem c ha)
  have hc : c.isDigit := hdigit c List.mem_cons_self
  have hself : (⟨Nat.ofDigitChars 10 (c :: ds) 0, d.order - ds.length⟩ : Decimal) = d := by
    rw [hvalue, horder]
  rw [htext]
  cases ds with
  | nil => simpa [ofChars?, hc, he, exponent?_power] using hself
  | cons a as =>
    have htake : (a :: as ++ 'e' :: power d.order).takeWhile Char.isDigit = a :: as := by
      rw [List.takeWhile_append_of_pos hmore]
      simp [he]
    have hdrop : (a :: as ++ 'e' :: power d.order).dropWhile Char.isDigit = 'e' :: power d.order := by
      rw [List.dropWhile_append_of_pos hmore]
      simp [he]
    rw [if_neg (List.cons_ne_nil a as), List.cons_append, List.cons_append]
    simp only [ofChars?, List.takeWhile_cons_of_pos hc, List.dropWhile_cons_of_pos hc, hpoint,
      List.takeWhile_cons_of_neg, List.dropWhile_cons_of_neg, Bool.false_eq_true, not_false_eq_true,
      htake, hdrop, exponent?_power]
    simpa using hself

/-- A report has this for an unsigned number: it begins with a digit, reads as a decimal of the same
value, and has a point or a power of ten, which an integer has not. -/
structure ReportText (d : Decimal) (cs : List Char) : Prop where
  head : ∃ c rest, cs = c :: rest ∧ c.isDigit
  value : ∃ d', ofChars? cs = some d' ∧ d'.Same d
  numeral : ∀ c ∈ cs, isNumeral c
  marked : '.' ∈ cs ∨ 'e' ∈ cs

theorem reportText_positional (d : Decimal) : d.ReportText (d.positional ['.', '0']) := by
  obtain ⟨w, f, hplain, hsame⟩ := d.positional_report_plain
  refine ⟨hplain.head_isDigit, ⟨_, hplain.ofChars?, hsame⟩, fun c hc => ?_, .inl ?_⟩
  · rcases hplain.mem c hc with hc | rfl
    · exact isNumeral_of_isDigit hc
    · rfl
  · unfold positional
    split
    · simp
    · dsimp only
      split_ifs <;> simp

theorem isNumeral_of_mem_power {n : Int} {c : Char} (h : c ∈ power n) : isNumeral c := by
  have hdigits : ∀ k : Nat, c ∈ Nat.toDigits 10 k → isNumeral c := fun k hc =>
    isNumeral_of_isDigit (Nat.isDigit_of_mem_toDigits (by decide) (by decide) hc)
  cases n with
  | ofNat n | negSucc n =>
    rcases List.mem_cons.mp h with rfl | h
    · rfl
    · exact hdigits _ h

theorem reportText_scientific (d : Decimal) : d.ReportText d.scientific := by
  obtain ⟨c, ds, hds, htext⟩ := d.scientific_eq
  have hdigit : ∀ a ∈ c :: ds, a.isDigit := by
    rw [← hds]
    exact d.isDigit_of_mem_digits
  refine ⟨⟨c, _, htext, hdigit c List.mem_cons_self⟩, ⟨d, d.ofChars?_scientific, rfl⟩,
    fun a ha => ?_, .inr (by simp [htext])⟩
  have hmem : a ∈ c :: ds ∨ a = '.' ∨ a = 'e' ∨ a ∈ power d.order := by
    rw [htext] at ha
    split_ifs at ha <;> simp at ha ⊢ <;> tauto
  rcases hmem with ha | rfl | rfl | ha
  · exact isNumeral_of_isDigit (hdigit a ha)
  · rfl
  · rfl
  · exact isNumeral_of_mem_power ha

end Decimal

namespace Binary64

theorem isSome_reportChars? (x : Binary64) : x.reportChars?.isSome = x.isFinite := by
  cases x with
  | nan => rfl
  | signed negative m =>
    change (if m.isFinite then some _ else none).isSome = m.isFinite
    cases m.isFinite <;> rfl

theorem isFinite_of_reportChars? {x : Binary64} {cs : List Char} (h : x.reportChars? = some cs) :
    x.isFinite := by
  rw [← isSome_reportChars?, h, Option.isSome_some]

/-- A finite number reads back from its report. -/
theorem exists_reportChars {x : Binary64} (h : x.isFinite) : ∃ cs, x.reportChars? = some cs ∧
    ofChars? cs = some x ∧ (∀ c ∈ cs, isNumeral c) ∧ ('.' ∈ cs ∨ 'e' ∈ cs) := by
  cases x with
  | nan => contradiction
  | signed negative m =>
    have hm : m.isFinite := h
    obtain ⟨hhead, ⟨d', hd', hsame⟩, hnumeral, hmarked⟩ :
        (m.shortest .even).ReportText (NumberStyle.report.magnitude m) := by
      unfold NumberStyle.magnitude
      dsimp only
      split
      · exact Decimal.reportText_positional _
      · exact Decimal.reportText_scientific _
    refine ⟨sign negative ++ NumberStyle.report.magnitude m, if_pos hm, ?_, fun c hc => ?_, ?_⟩
    · obtain ⟨c, rest, htext, hc⟩ := hhead
      rw [htext] at hd' ⊢
      rw [ofChars?_sign hc, hd', Option.map_some, Magnitude.nearest_congr hsame,
        Magnitude.nearest_shortest]
    · rcases List.mem_append.mp hc with hc | hc
      · cases negative <;> simp [sign] at hc
        subst hc
        rfl
      · exact hnumeral c hc
    · exact hmarked.imp (List.mem_append_right _) (List.mem_append_right _)

end Binary64

end FilterLang
