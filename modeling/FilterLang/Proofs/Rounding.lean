import FilterLang.Binary64.Shortest
import Mathlib.Algebra.Order.Ring.Nat
import Mathlib.Tactic.Ring

/-! Rounding decimals to magnitudes. The magnitude nearest to a decimal depends on the value of the
decimal alone (`nearest_congr`); the shortcuts for exponents far out of range agree with the general
rule. Every finite magnitude is the nearest one to its exact decimal and to its shortest decimal. -/
namespace FilterLang

/-! ### Ratios -/

theorem roundHalfEven_mul {k : Nat} (hk : 0 < k) (num den : Nat) :
    roundHalfEven (k * num) (k * den) = roundHalfEven num den := by
  have hlow : 2 * (k * (num % den)) < k * den ↔ 2 * (num % den) < den := by
    rw [Nat.mul_left_comm, Nat.mul_lt_mul_left hk]
  have hhigh : k * den < 2 * (k * (num % den)) ↔ den < 2 * (num % den) := by
    rw [Nat.mul_left_comm, Nat.mul_lt_mul_left hk]
  simp only [roundHalfEven, Nat.mul_div_mul_left _ _ hk, Nat.mul_mod_mul_left, hlow, hhigh]

/-- A multiple of the denominator is rounded to the quotient. -/
theorem roundHalfEven_mul_self {den : Nat} (hd : 0 < den) (q : Nat) :
    roundHalfEven (q * den) den = q := by
  simp [roundHalfEven, Nat.mul_div_cancel q hd, hd]

/-- Less than half of the denominator is rounded to zero. -/
theorem roundHalfEven_of_lt {num den : Nat} (h : 2 * num < den) : roundHalfEven num den = 0 := by
  have hlt : num < den := by omega
  simp [roundHalfEven, Nat.div_eq_of_lt hlt, Nat.mod_eq_of_lt hlt, h]

namespace Magnitude

theorem nearestUnits_mul {k : Nat} (hk : 0 < k) (num den : Nat) :
    nearestUnits (k * num) (k * den) = nearestUnits num den := by
  simp only [nearestUnits, Nat.mul_div_mul_left _ _ hk, Nat.mul_assoc k, roundHalfEven_mul hk]

theorem nearestRatio_mul {k : Nat} (hk : 0 < k) (num den : Nat) :
    nearestRatio (k * num) (k * den) = nearestRatio num den := by
  rw [nearestRatio, Nat.mul_assoc, nearestUnits_mul hk, nearestRatio]

/-- Ratios of equal value have the same nearest magnitude. -/
theorem nearestRatio_congr {a b c d : Nat} (hb : 0 < b) (hd : 0 < d) (h : a * d = c * b) :
    nearestRatio a b = nearestRatio c d := by
  rw [← nearestRatio_mul hd a b, ← nearestRatio_mul hb c d, Nat.mul_comm d a, h, Nat.mul_comm c b,
    Nat.mul_comm d b]

end Magnitude

/-! ### Decimals -/

namespace Decimal

/-- The value of a decimal is `num / den`. -/
def num (d : Decimal) : Nat := d.coefficient * 10 ^ d.exponent.toNat

def den (d : Decimal) : Nat := 10 ^ (-d.exponent).toNat

theorem den_pos (d : Decimal) : 0 < d.den := Nat.pow_pos (by decide)

/-- Equality of values. -/
def Same (d d' : Decimal) : Prop := d.num * d'.den = d'.num * d.den

/-- Powers of ten may move between the coefficient and the exponent. -/
theorem same_shift (c n : Nat) (e : Int) : Same ⟨c, e + n⟩ ⟨c * 10 ^ n, e⟩ := by
  have hexp : (e + n).toNat + (-e).toNat = n + e.toNat + (-(e + n)).toNat := by omega
  simp only [Same, num, den]
  rw [Nat.mul_assoc, ← Nat.pow_add, hexp, Nat.mul_assoc c, ← Nat.pow_add, Nat.mul_assoc c,
    ← Nat.pow_add]

end Decimal

namespace Magnitude

/-- A quotient of 2100 bits is beyond the largest number. -/
theorem nearestUnits_of_le_log2 {num : Nat} (h : 2099 ≤ num.log2) :
    nearestUnits num 1 = ⟨top, by decide⟩ := by
  have htop : top = 2047 * 2 ^ 52 := rfl
  apply Fin.ext
  simp only [nearestUnits, Nat.div_one]
  omega

/-- A quotient below one half is rounded to zero. -/
theorem nearestUnits_of_lt {num den : Nat} (h : 2 * num < den) :
    nearestUnits num den = ⟨0, by decide⟩ := by
  have hdiv : num / den = 0 := Nat.div_eq_of_lt (by omega)
  apply Fin.ext
  simp only [nearestUnits, hdiv, Nat.log2_zero, Nat.zero_sub, Nat.zero_mul, Nat.pow_zero,
    Nat.mul_one, Nat.zero_add, roundHalfEven_of_lt h, Nat.zero_min]

theorem nearestRatio_zero {den : Nat} (hd : 0 < den) : nearestRatio 0 den = ⟨0, by decide⟩ := by
  simp only [nearestRatio, Nat.zero_mul]
  exact nearestUnits_of_lt hd

theorem nearestRatio_huge {c e : Nat} (hc : c ≠ 0) (he : 310 < e) :
    nearestRatio (c * 10 ^ e) 1 = ⟨top, by decide⟩ := by
  have hten : 2 ^ 1025 ≤ 10 ^ 311 := by decide +kernel
  have hmul : ∀ n, n ≤ e → 10 ^ n ≤ c * 10 ^ e := fun n hn =>
    (Nat.pow_le_pow_right (by decide) hn).trans (Nat.le_mul_of_pos_left _ (Nat.pos_of_ne_zero hc))
  have hne : c * 10 ^ e ≠ 0 := Nat.mul_ne_zero hc (Nat.pow_pos (by decide)).ne'
  have hshift : ∀ m n, 2 ^ m ≤ c * 10 ^ e → m + n ≤ (c * 10 ^ e * 2 ^ n).log2 := by
    intro m n h
    rw [Nat.le_log2 (Nat.mul_ne_zero hne (Nat.two_pow_pos n).ne'), Nat.pow_add]
    exact Nat.mul_le_mul_right _ h
  rw [nearestRatio]
  -- Behind a variable the power is not computed.
  generalize hn : 1074 = n
  have hbits : 2099 ≤ 1025 + n := by omega
  exact nearestUnits_of_le_log2 (hbits.trans (hshift 1025 n (hten.trans (hmul 311 he))))

theorem nearestRatio_tiny {c n : Nat} (h : c.log2 + 1 + 330 < n) :
    nearestRatio c (10 ^ n) = ⟨0, by decide⟩ := by
  obtain ⟨k, rfl⟩ : ∃ k, n = k + 331 := ⟨n - 331, by omega⟩
  have hc : c < 10 ^ k := by
    calc c < 2 ^ (c.log2 + 1) := Nat.lt_log2_self
      _ ≤ 2 ^ k := Nat.pow_le_pow_right (by decide) (by omega)
      _ ≤ 10 ^ k := Nat.pow_le_pow_left (by decide) k
  have hlt : ∀ u v, 0 < v → 2 * u ≤ v → 2 * (c * u) < 10 ^ k * v := by
    intro u v hv huv
    calc 2 * (c * u) = c * (2 * u) := Nat.mul_left_comm ..
      _ ≤ c * v := Nat.mul_le_mul_left c huv
      _ < 10 ^ k * v := Nat.mul_lt_mul_of_pos_right hc hv
  refine nearestUnits_of_lt ?_
  rw [Nat.pow_add]
  exact hlt _ _ (by decide +kernel) (by decide +kernel)

/-- The exponents that are far out of range are settled as the value tells. -/
theorem nearest_eq (d : Decimal) : nearest d = nearestRatio d.num d.den := by
  obtain ⟨c, e⟩ := d
  unfold nearest
  simp only [Decimal.num, Decimal.den]
  split_ifs with hc hhigh hlow
  · rw [hc, Nat.zero_mul, nearestRatio_zero (Nat.pow_pos (by decide))]
  · have hneg : (-e).toNat = 0 := by omega
    rw [hneg, Nat.pow_zero, nearestRatio_huge hc (by omega)]
  · have hpos : e.toNat = 0 := by omega
    rw [hpos, Nat.pow_zero, Nat.mul_one, nearestRatio_tiny (by omega)]
  · split
    next n =>
      have hneg : (-(n : Int)).toNat = 0 := by omega
      change _ = nearestRatio (c * 10 ^ n) (10 ^ (-(n : Int)).toNat)
      rw [hneg, Nat.pow_zero]
    next n =>
      have hpos : (Int.negSucc n).toNat = 0 := rfl
      rw [hpos, Nat.pow_zero, Nat.mul_one]
      rfl

/-- Decimals of equal value have the same nearest magnitude. -/
theorem nearest_congr {d d' : Decimal} (h : d.Same d') : nearest d = nearest d' := by
  rw [nearest_eq, nearest_eq]
  exact nearestRatio_congr d.den_pos d'.den_pos h

/-! ### Reading back -/

theorem significand_lt (m : Magnitude) : m.significand < 2 ^ 53 := by
  unfold significand
  split_ifs
  · omega
  · have := Nat.mod_lt m.val (show 0 < 2 ^ 52 by decide)
    omega

/-- Above the subnormal numbers the significand has all its bits. -/
theorem le_significand {m : Magnitude} (h : 0 < m.scale) : 2 ^ 52 ≤ m.significand := by
  unfold scale at h
  unfold significand
  rw [if_neg (by omega)]
  omega

theorem scale_add_significand (m : Magnitude) : m.scale * 2 ^ 52 + m.significand = m.val := by
  unfold scale significand
  split_ifs <;> omega

/-- The value of a magnitude is cut to its own significand. -/
theorem log2_value (m : Magnitude) : (m.significand * 2 ^ m.scale).log2 - 52 = m.scale := by
  have hlt := m.significand_lt
  rcases Nat.eq_zero_or_pos m.scale with hz | hpos
  · rw [hz, Nat.pow_zero, Nat.mul_one]
    rcases Nat.eq_zero_or_pos m.significand with h0 | h0
    · simp [h0]
    · have := (Nat.log2_lt h0.ne').mpr hlt
      omega
  · have hle := le_significand hpos
    have hpow : 0 < 2 ^ m.scale := Nat.two_pow_pos _
    have hne : m.significand * 2 ^ m.scale ≠ 0 := (Nat.mul_pos (by omega) hpow).ne'
    have hlog : (m.significand * 2 ^ m.scale).log2 = 52 + m.scale := by
      rw [Nat.log2_eq_iff hne, Nat.add_right_comm, Nat.pow_add, Nat.pow_add]
      exact ⟨Nat.mul_le_mul_right _ hle, Nat.mul_lt_mul_of_pos_right hlt hpow⟩
    rw [hlog]
    omega

theorem nearestUnits_value (m : Magnitude) {den : Nat} (hd : 0 < den) :
    nearestUnits (m.significand * 2 ^ m.scale * den) den = m := by
  have hden : m.significand * 2 ^ m.scale * den = m.significand * (den * 2 ^ m.scale) := by ring
  apply Fin.ext
  simp only [nearestUnits, Nat.mul_div_cancel _ hd, log2_value]
  rw [hden, roundHalfEven_mul_self (Nat.mul_pos hd (Nat.two_pow_pos _)), scale_add_significand]
  have := m.isLt
  omega

/-- The exact decimal of a magnitude reads back. -/
theorem nearest_exact (m : Magnitude) : nearest m.exact = m := by
  have hsplit : ∀ a b c : Nat, a * 2 ^ b * 2 ^ c = a * 2 ^ (b + c) * 1 := by
    intro a b c
    rw [Nat.mul_assoc, ← Nat.pow_add, Nat.mul_one]
  have hten : ∀ a b c n : Nat, n = b + c → a * 5 ^ c * 2 ^ n = a * 2 ^ b * 10 ^ c := by
    rintro a b c n rfl
    rw [Nat.pow_add, show 10 = 5 * 2 from rfl, Nat.mul_pow]
    ring
  rw [nearest_eq]
  unfold exact
  split_ifs with hs
  · obtain ⟨k, hk⟩ : ∃ k, 1074 - m.scale = k := ⟨_, rfl⟩
    have hscale : 1074 = m.scale + k := by omega
    have hexp : (-((k : Nat) : Int)).toNat = 0 := by omega
    simp only [hk, Decimal.num, Decimal.den, hexp, Nat.pow_zero, Nat.mul_one, Int.neg_neg,
      Int.toNat_natCast, nearestRatio]
    rw [hten m.significand m.scale k 1074 hscale]
    exact nearestUnits_value m (Nat.pow_pos (by decide))
  · obtain ⟨k, hk⟩ : ∃ k, m.scale - 1074 = k := ⟨_, rfl⟩
    have hscale : m.scale = k + 1074 := by omega
    simp only [hk, Decimal.num, Decimal.den, Int.toNat_zero, Int.neg_zero, Nat.pow_zero,
      Nat.mul_one, nearestRatio]
    rw [hsplit, ← hscale]
    exact nearestUnits_value m (by decide)

end Magnitude

namespace Decimal

theorem nearest_stripZeros (n : Nat) (d : Decimal) :
    Magnitude.nearest (d.stripZeros n) = Magnitude.nearest d := by
  induction n generalizing d with
  | zero => rfl
  | succ n ih =>
    rw [stripZeros]
    split_ifs with h
    · have hshift := same_shift (d.coefficient / 10) 1 d.exponent
      have hten : d.coefficient / 10 * 10 ^ 1 = d.coefficient := by omega
      rw [hten] at hshift
      rw [ih]
      exact Magnitude.nearest_congr hshift
    · rfl

end Decimal

namespace Magnitude

/-- A point that is found on a grid reads back. -/
theorem nearest_of_onGrid? {tie : Tie} {m : Magnitude} {d d' : Decimal} {n : Nat}
    (h : onGrid? tie m d n = some d') : nearest d' = m := by
  unfold onGrid? at h
  split at h
  next hb ha =>
    cases h
    have : d.nearer tie n = d.below n ∨ d.nearer tie n = d.above n := by
      unfold Decimal.nearer
      cases tie <;> simp only <;> split_ifs <;> simp
    rcases this with he | he
    · rw [he]
      exact beq_iff_eq.mp hb
    · rw [he]
      exact beq_iff_eq.mp ha
  next hb _ => cases h; exact beq_iff_eq.mp hb
  next _ ha => cases h; exact beq_iff_eq.mp ha
  next => contradiction

/-- The shortest decimal of a magnitude reads back. -/
theorem nearest_shortest (tie : Tie) (m : Magnitude) : nearest (m.shortest tie) = m := by
  unfold shortest
  split_ifs with hz
  · have hzero : m = ⟨0, by decide⟩ := Fin.ext hz
    rw [hzero]
    rfl
  · simp only [Decimal.nearest_stripZeros]
    cases hf : (List.range 17).findSome?
        fun n => onGrid? tie m m.exact (m.exact.digits.length - (n + 1)) with
    | none => exact nearest_exact m
    | some d =>
      obtain ⟨n, -, hn⟩ := List.exists_of_findSome?_eq_some hf
      exact nearest_of_onGrid? hn

end Magnitude

end FilterLang
