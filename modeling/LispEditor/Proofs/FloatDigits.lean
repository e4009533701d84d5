import Mathlib.Algebra.Order.Field.Power
import Mathlib.Tactic.FieldSimp
import Mathlib.Tactic.Linarith
import Mathlib.Tactic.NormNum
import Mathlib.Tactic.Positivity
import Mathlib.Tactic.Ring
import LispEditor.Number.Layout

/-!
# Floating-point numbers and their digits

A decimal is read to the nearest floating-point number. Which one that is depends on the value of
the decimal alone, so zeros may be put behind its digits. A number is written with the fewest digits
that read back as it. There always are such digits, because 17 of them suffice.

* `Binary64.ofRatio_eq`: what a quotient is rounded to, told by its value.
* `Binary64.ofDecimal_mul_pow`: zeros behind the digits of a decimal do not matter.
* `Binary64.exact_ofDecimal`: what is read is a number that there is.
* `Binary64.ofRatio_of_near`: a quotient that differs in the 17th digit only is rounded back.
* `Binary64.ofDecimal_shortest`: the shortest digits of a number read back as it.
-/

namespace LispEditor.Binary64

theorem twoPow_eq (k : Nat) : twoPow k = 2 ^ k := rfl

/-! ### Quotients by a power -/

theorem ratio_of_scaled (base : Nat) {n d : Nat} (positive : 0 < base) (divides : 0 < d) (e : Int)
    {scaled : Nat × Nat}
    (same : scaled = if e < 0 then (n * base ^ (-e).toNat, d) else (n, d * base ^ e.toNat)) :
    0 < scaled.2 ∧ (scaled.1 : ℚ) / scaled.2 = n / d / (base : ℚ) ^ e := by
  have base_ne : (base : ℚ) ≠ 0 := Nat.cast_ne_zero.mpr (Nat.ne_of_gt positive)
  have d_ne : (d : ℚ) ≠ 0 := Nat.cast_ne_zero.mpr (Nat.ne_of_gt divides)
  subst same
  split
  next negative =>
    refine ⟨divides, ?_⟩
    obtain ⟨k, rfl⟩ : ∃ k : Nat, e = -k := ⟨(-e).toNat, by omega⟩
    rw [neg_neg, Int.toNat_natCast, zpow_neg, zpow_natCast, div_inv_eq_mul]
    push_cast
    ring
  next =>
    obtain ⟨k, rfl⟩ : ∃ k : Nat, e = k := ⟨e.toNat, by omega⟩
    refine ⟨Nat.mul_pos divides (Nat.pow_pos positive), ?_⟩
    rw [Int.toNat_natCast, zpow_natCast]
    push_cast
    rw [div_div]

theorem ratio_scaleDown (n : Nat) {d : Nat} (divides : 0 < d) (e : Int) :
    0 < (scaleDown n d e).2 ∧
      ((scaleDown n d e).1 : ℚ) / (scaleDown n d e).2 = n / d / 2 ^ e :=
  ratio_of_scaled 2 Nat.two_pos divides e rfl

theorem ratio_divPowTen (n : Nat) {d : Nat} (divides : 0 < d) (e : Int) :
    0 < (divPowTen n d e).2 ∧
      ((divPowTen n d e).1 : ℚ) / (divPowTen n d e).2 = n / d / 10 ^ e :=
  ratio_of_scaled 10 (Nat.succ_pos 9) divides e rfl

/-! ### Rounding -/

/-- A whole number is the nearest one, or one of two that are equally near and then even. -/
structure Nearest (q : ℚ) (m : Nat) : Prop where
  near : |q - m| ≤ 1 / 2
  even : |q - m| = 1 / 2 → m % 2 = 0

theorem Nearest.eq {q : ℚ} {m k : Nat} (first : Nearest q m) (second : Nearest q k) : m = k := by
  have ordered {m k : Nat} (first : Nearest q m) (second : Nearest q k) : ¬ m < k := by
    intro less
    have step : (m : ℚ) + 1 ≤ k := by exact_mod_cast less
    have below := (abs_le.mp first.near).2
    have above := (abs_le.mp second.near).1
    have half : q - m = 1 / 2 := by linarith
    have half' : q - k = -(1 / 2) := by linarith
    have next : (k : ℚ) = (m + 1 : Nat) := by push_cast; linarith
    have even := first.even (by rw [half]; norm_num)
    have even' := second.even (by rw [half']; norm_num)
    have same : k = m + 1 := by exact_mod_cast next
    omega
  exact Nat.le_antisymm (Nat.le_of_not_lt (ordered second first))
    (Nat.le_of_not_lt (ordered first second))

theorem nearest_of_lt {q : ℚ} {m : Nat} (near : |q - m| < 1 / 2) : Nearest q m :=
  ⟨near.le, fun half => absurd half near.ne⟩

/-- How far a quotient lies above the whole number below it. -/
theorem sub_quotient (n : Nat) {d : Nat} (positive : 0 < d) :
    (n : ℚ) / d - (n / d : Nat) = (n % d : Nat) / d := by
  have d_ne : (d : ℚ) ≠ 0 := Nat.cast_ne_zero.mpr (Nat.ne_of_gt positive)
  have division : ((n / d : Nat) : ℚ) * d + (n % d : Nat) = n := by
    exact_mod_cast Nat.div_add_mod' n d
  rw [← division]
  field_simp
  ring

theorem abs_sub_quotient (n : Nat) {d : Nat} (positive : 0 < d) :
    |(n : ℚ) / d - (n / d : Nat)| = (n % d : Nat) / d ∧
      |(n : ℚ) / d - (n / d + 1 : Nat)| = 1 - (n % d : Nat) / d := by
  have d_pos : (0 : ℚ) < d := Nat.cast_pos.mpr positive
  have part_nonneg : (0 : ℚ) ≤ (n % d : Nat) / d := by positivity
  have part_lt : ((n % d : Nat) : ℚ) / d < 1 := by
    rw [div_lt_one d_pos]
    exact_mod_cast Nat.mod_lt n positive
  have part := sub_quotient n positive
  constructor
  · rw [part, abs_of_nonneg part_nonneg]
  · have gap : (n : ℚ) / d - (n / d + 1 : Nat) = -(1 - (n % d : Nat) / d) := by
      push_cast at part ⊢
      linarith
    rw [gap, abs_neg, abs_of_pos (by linarith)]

/-- The part of a quotient behind the point, against a half. -/
theorem half_le_part_iff (n : Nat) {d : Nat} (positive : 0 < d) :
    1 / 2 ≤ ((n % d : Nat) : ℚ) / d ↔ d ≤ 2 * (n % d) := by
  have d_pos : (0 : ℚ) < d := Nat.cast_pos.mpr positive
  rw [div_le_div_iff₀ two_pos d_pos, one_mul, mul_comm]
  exact_mod_cast Iff.rfl

theorem part_le_half_iff (n : Nat) {d : Nat} (positive : 0 < d) :
    ((n % d : Nat) : ℚ) / d ≤ 1 / 2 ↔ 2 * (n % d) ≤ d := by
  have d_pos : (0 : ℚ) < d := Nat.cast_pos.mpr positive
  rw [div_le_div_iff₀ d_pos two_pos, one_mul, mul_comm]
  exact_mod_cast Iff.rfl

theorem nearest_divNearest (n : Nat) {d : Nat} (positive : 0 < d) :
    Nearest ((n : ℚ) / d) (divNearest n d) := by
  obtain ⟨below, above⟩ := abs_sub_quotient n positive
  have large := half_le_part_iff n positive
  have small := part_le_half_iff n positive
  unfold divNearest
  dsimp only
  split
  next up =>
    refine ⟨?_, fun half => ?_⟩
    · rw [above]
      have := large.mpr (by omega)
      linarith
    · rw [above] at half
      have := small.mp (by linarith)
      omega
  next down =>
    refine ⟨?_, fun half => ?_⟩
    · rw [below]
      exact small.mpr (by omega)
    · rw [below] at half
      have := large.mp half.ge
      omega

/-! ### The exponent of a quotient -/

/-- The exponent that gives a value 53 significant bits, or the least one. -/
structure IsExponent (q : ℚ) (e : Int) : Prop where
  least : minExponent ≤ e
  below : q < 2 ^ 53 * 2 ^ e
  above : 2 ^ 52 * 2 ^ e ≤ q ∨ e = minExponent

theorem IsExponent.eq {q : ℚ} {e f : Int} (first : IsExponent q e) (second : IsExponent q f) :
    e = f := by
  have ordered {e f : Int} (first : IsExponent q e) (second : IsExponent q f) : ¬ e < f := by
    intro less
    rcases second.above with above | least
    · have doubled : (2 : ℚ) * 2 ^ e ≤ 2 ^ f := by
        rw [mul_comm, ← zpow_add_one₀ two_ne_zero]
        exact zpow_le_zpow_right₀ one_le_two less
      have below := first.below
      linarith
    · have bound := first.least
      omega
  exact le_antisymm (not_lt.mp (ordered second first)) (not_lt.mp (ordered first second))

theorem log2_bounds {n : Nat} (positive : 0 < n) :
    (2 : ℚ) ^ (n.log2 : Int) ≤ n ∧ (n : ℚ) < 2 * 2 ^ (n.log2 : Int) := by
  have low : 2 ^ n.log2 ≤ n := Nat.log2_self_le (Nat.ne_of_gt positive)
  have high : n < 2 ^ (n.log2 + 1) := Nat.lt_log2_self
  rw [zpow_natCast]
  constructor
  · exact_mod_cast low
  · rw [← pow_succ']
    exact_mod_cast high

/-- The logarithms of a numerator and a denominator tell the size of the quotient. -/
theorem ratio_bounds {n d : Nat} (positive : 0 < n) (divides : 0 < d) :
    (2 : ℚ) ^ ((n.log2 : Int) - d.log2) / 2 < n / d ∧
      (n : ℚ) / d < 2 * 2 ^ ((n.log2 : Int) - d.log2) := by
  obtain ⟨low, high⟩ := log2_bounds positive
  obtain ⟨low', high'⟩ := log2_bounds divides
  have d_pos : (0 : ℚ) < d := Nat.cast_pos.mpr divides
  have power : (0 : ℚ) < 2 ^ (d.log2 : Int) := by positivity
  rw [zpow_sub₀ two_ne_zero]
  constructor
  · rw [div_div, div_lt_div_iff₀ (by positivity) d_pos]
    calc (2 : ℚ) ^ (n.log2 : Int) * d ≤ n * d := by gcongr
      _ < n * (2 ^ (d.log2 : Int) * 2) := by
          gcongr
          linarith
  · rw [← mul_div_assoc, div_lt_div_iff₀ d_pos power]
    calc (n : ℚ) * 2 ^ (d.log2 : Int) ≤ n * d := by gcongr
      _ < 2 * 2 ^ (n.log2 : Int) * d := by gcongr

theorem isExponent_exponentOf {n d : Nat} (positive : 0 < n) (divides : 0 < d) :
    IsExponent ((n : ℚ) / d) (exponentOf n d) := by
  obtain ⟨low, high⟩ := ratio_bounds positive divides
  have fits {e : Int} (below : (n : ℚ) / d < 2 ^ 53 * 2 ^ e) (above : (2 : ℚ) ^ 52 * 2 ^ e ≤ n / d) :
      IsExponent ((n : ℚ) / d) (max minExponent e) := by
    rcases le_total e minExponent with small | large
    · rw [max_eq_left small]
      refine ⟨le_refl _, below.trans_le ?_, .inr rfl⟩
      have grows := zpow_le_zpow_right₀ (one_le_two : (1 : ℚ) ≤ 2) small
      gcongr
    · rw [max_eq_right large]
      exact ⟨large, below, .inl above⟩
  unfold exponentOf
  dsimp only
  obtain ⟨scaled_pos, scaled⟩ := ratio_scaleDown n divides ((n.log2 : Int) - d.log2 - 52)
  generalize scaleDown n d ((n.log2 : Int) - d.log2 - 52) = pair at scaled_pos scaled
  obtain ⟨a, b⟩ := pair
  have b_pos : (0 : ℚ) < b := Nat.cast_pos.mpr scaled_pos
  have power : (0 : ℚ) < 2 ^ ((n.log2 : Int) - d.log2 - 52) := by positivity
  have order : a < b * twoPow 52 ↔ (n : ℚ) / d < 2 ^ 52 * 2 ^ ((n.log2 : Int) - d.log2 - 52) := by
    rw [← div_lt_iff₀ power, ← scaled, div_lt_iff₀ b_pos, mul_comm b]
    norm_cast
  have guess : (2 : ℚ) ^ ((n.log2 : Int) - d.log2) =
      2 ^ 52 * 2 ^ ((n.log2 : Int) - d.log2 - 52) := by
    rw [zpow_sub₀ two_ne_zero _ 52, zpow_ofNat, mul_div_cancel₀ _ (by positivity)]
  have half : (2 : ℚ) ^ ((n.log2 : Int) - d.log2 - 52 - 1) =
      2 ^ ((n.log2 : Int) - d.log2 - 52) / 2 := zpow_sub_one₀ two_ne_zero _
  rw [guess] at low high
  split
  next small =>
    have below := order.mp small
    refine fits ?_ ?_
    · rw [half]
      linarith
    · rw [half]
      linarith
  next large =>
    have above := le_of_not_gt (mt order.mpr large)
    refine fits ?_ above
    linarith

/-! ### What a quotient is rounded to -/

/-- **What a quotient is rounded to depends on its value alone.** -/
theorem ofRatio_eq (negative : Bool) {n d : Nat} (positive : 0 < n) (divides : 0 < d) {e : Int}
    {significand : Nat} (exponent : IsExponent ((n : ℚ) / d) e)
    (nearest : Nearest ((n : ℚ) / d / 2 ^ e) significand) :
    ofRatio negative n d = ofRounded negative significand e := by
  have same : exponentOf n d = e := (isExponent_exponentOf positive divides).eq exponent
  obtain ⟨scaled_pos, scaled⟩ := ratio_scaleDown n divides e
  have rounded := nearest_divNearest (scaleDown n d e).1 scaled_pos
  rw [scaled] at rounded
  have bits : divNearest (scaleDown n d e).1 (scaleDown n d e).2 = significand :=
    rounded.eq nearest
  rw [ofRatio, same, bits]

/-- Equal quotients are rounded to the same number. -/
theorem ofRatio_congr (negative : Bool) {n d n' d' : Nat} (positive : 0 < n) (divides : 0 < d)
    (positive' : 0 < n') (divides' : 0 < d') (same : (n : ℚ) / d = n' / d') :
    ofRatio negative n d = ofRatio negative n' d' := by
  have exponent := isExponent_exponentOf positive divides
  obtain ⟨scaled_pos, scaled⟩ := ratio_scaleDown n divides (exponentOf n d)
  have nearest := nearest_divNearest (scaleDown n d (exponentOf n d)).1 scaled_pos
  rw [scaled] at nearest
  rw [ofRatio_eq negative positive divides exponent nearest]
  rw [same] at exponent nearest
  exact (ofRatio_eq negative positive' divides' exponent nearest).symm

/-! ### The numbers that there are -/

/-- A finite number has an exponent within the bounds and 53 significant bits, or fewer with the
least exponent. -/
def Exact : Binary64 → Prop
  | finite _ significand exponent =>
      minExponent ≤ exponent ∧ exponent ≤ maxExponent ∧ significand < 2 ^ 53 ∧
        (2 ^ 52 ≤ significand ∨ exponent = minExponent)
  | _ => True

theorem exact_ofRatio (negative : Bool) {n d : Nat} (positive : 0 < n) (divides : 0 < d) :
    (ofRatio negative n d).Exact := by
  have exponent := isExponent_exponentOf positive divides
  obtain ⟨scaled_pos, scaled⟩ := ratio_scaleDown n divides (exponentOf n d)
  have nearest := nearest_divNearest (scaleDown n d (exponentOf n d)).1 scaled_pos
  rw [scaled] at nearest
  rw [ofRatio_eq negative positive divides exponent nearest]
  generalize divNearest (scaleDown n d (exponentOf n d)).1 (scaleDown n d (exponentOf n d)).2 = m at *
  generalize exponentOf n d = e at *
  have power : (0 : ℚ) < 2 ^ e := by positivity
  obtain ⟨low, high⟩ := abs_le.mp nearest.near
  have most : m ≤ 2 ^ 53 := by
    have below := exponent.below
    rw [← div_lt_iff₀ power] at below
    have : (m : ℚ) < (2 ^ 53 + 1 : Nat) := by
      push_cast
      linarith
    exact Nat.lt_succ_iff.mp (by exact_mod_cast this)
  have least : 2 ^ 52 ≤ m ∨ e = minExponent := by
    refine exponent.above.imp_left fun above => ?_
    rw [← le_div_iff₀ power] at above
    have : ((2 ^ 52 : Nat) : ℚ) < (m + 1 : Nat) := by
      push_cast
      linarith
    exact Nat.lt_succ_iff.mp (by exact_mod_cast this)
  have bounded_exact {m : Nat} {e : Int} (least : minExponent ≤ e) (short : m < 2 ^ 53)
      (long : 2 ^ 52 ≤ m ∨ e = minExponent) : (bounded negative m e).Exact := by
    unfold bounded
    split
    · trivial
    · next small => exact ⟨least, not_lt.mp small, short, long⟩
  unfold ofRounded
  rw [twoPow_eq, twoPow_eq]
  split
  next =>
    have up : minExponent ≤ e + 1 := exponent.least.trans (Int.le_add_one (le_refl e))
    exact bounded_exact up (Nat.pow_lt_pow_right (Nat.lt_succ_self 1) (by decide)) (.inl (le_refl _))
  next short => exact bounded_exact exponent.least (Nat.lt_of_le_of_ne most short) least

/-! ### Quotients near a number -/

theorem ofRounded_of_lt (negative : Bool) {significand : Nat} {exponent : Int}
    (short : significand < 2 ^ 53) (most : exponent ≤ maxExponent) :
    ofRounded negative significand exponent = finite negative significand exponent := by
  rw [ofRounded, twoPow_eq, if_neg (Nat.ne_of_lt short), bounded, if_neg (not_lt.mpr most)]

theorem ofRounded_full (negative : Bool) {exponent : Int} (most : exponent ≤ maxExponent) :
    ofRounded negative (2 ^ 53) (exponent - 1) = finite negative (2 ^ 52) exponent := by
  rw [ofRounded, twoPow_eq, if_pos rfl, twoPow_eq, sub_add_cancel, bounded, if_neg (not_lt.mpr most)]

/-- **A quotient that is near enough to a number is rounded to it.** It may differ from it by half a
unit in the 17th digit. -/
theorem ofRatio_of_near {negative : Bool} {significand : Nat} {exponent : Int}
    (exact : (finite negative significand exponent).Exact) {n d : Nat} (positive : 0 < n)
    (divides : 0 < d) (close : |(n : ℚ) / d - significand * 2 ^ exponent| ≤
      significand * 2 ^ exponent / (2 * 10 ^ 16)) :
    ofRatio negative n d = finite negative significand exponent := by
  obtain ⟨least, most, short, long⟩ := exact
  have power : (0 : ℚ) < 2 ^ exponent := by positivity
  obtain ⟨r, ratio⟩ : ∃ r : ℚ, (n : ℚ) / d = r * 2 ^ exponent :=
    ⟨(n : ℚ) / d / 2 ^ exponent, (div_mul_cancel₀ _ power.ne').symm⟩
  have close' : |r - significand| ≤ significand / (2 * 10 ^ 16) := by
    rw [ratio, ← sub_mul, abs_mul, abs_of_pos power, mul_div_right_comm] at close
    exact le_of_mul_le_mul_right close power
  have size : (significand : ℚ) ≤ 2 ^ 53 - 1 := by
    have : (significand : ℚ) + 1 ≤ (2 ^ 53 : Nat) := by exact_mod_cast short
    push_cast at this
    linarith
  have near : |r - significand| < 1 / 2 := by
    refine close'.trans_lt ?_
    rw [div_lt_div_iff₀ (by norm_num) two_pos]
    linarith
  obtain ⟨low, high⟩ := abs_lt.mp near
  by_cases stays : 2 ^ 52 ≤ r ∨ exponent = minExponent
  · have fits : IsExponent ((n : ℚ) / d) exponent := by
      rw [ratio]
      refine ⟨least, ?_, stays.imp_left fun above => ?_⟩
      · gcongr
        linarith
      · gcongr
    have nearest : Nearest ((n : ℚ) / d / 2 ^ exponent) significand := by
      rw [ratio, mul_div_cancel_right₀ _ power.ne']
      exact nearest_of_lt near
    rw [ofRatio_eq negative positive divides fits nearest, ofRounded_of_lt negative short most]
  -- Just below a power of two the quotient has one exponent less, and is rounded up to the power.
  · obtain ⟨below, larger⟩ := not_or.mp stays
    have below := not_le.mp below
    have bits : significand = 2 ^ 52 := by
      have : (significand : ℚ) < (2 ^ 52 + 1 : Nat) := by
        push_cast
        linarith
      have : significand < 2 ^ 52 + 1 := by exact_mod_cast this
      have := long.resolve_right larger
      omega
    subst bits
    push_cast at close' low
    have halved : (2 : ℚ) ^ exponent = 2 * 2 ^ (exponent - 1) := by
      rw [zpow_sub_one₀ two_ne_zero]
      ring
    have power' : (0 : ℚ) < 2 ^ (exponent - 1) := by positivity
    have doubled : (n : ℚ) / d = 2 * r * 2 ^ (exponent - 1) := by
      rw [ratio, halved]
      ring
    have fits : IsExponent ((n : ℚ) / d) (exponent - 1) := by
      rw [doubled]
      refine ⟨Int.le_sub_one_of_lt (lt_of_le_of_ne least (Ne.symm larger)), ?_, .inl ?_⟩
      · gcongr
        linarith
      · gcongr
        linarith
    have nearest : Nearest ((n : ℚ) / d / 2 ^ (exponent - 1)) (2 ^ 53) := by
      rw [doubled, mul_div_cancel_right₀ _ power'.ne']
      obtain ⟨low', high'⟩ := abs_le.mp close'
      refine nearest_of_lt (abs_lt.mpr ⟨?_, ?_⟩)
      · push_cast
        linarith
      · push_cast
        linarith
    rw [ofRatio_eq negative positive divides fits nearest, ofRounded_full negative most]

/-! ### Decimals -/

theorem digitCount_le_iff {n k : Nat} (positive : 0 < k) : digitCount n ≤ k ↔ n < 10 ^ k :=
  Nat.length_toDigits_le_iff (by decide) positive

theorem digitCount_pos (n : Nat) : 0 < digitCount n :=
  Nat.length_toDigits_pos

theorem lt_pow_digitCount (n : Nat) : n < 10 ^ digitCount n :=
  (digitCount_le_iff (digitCount_pos n)).mp (le_refl _)

theorem pow_digitCount_le {n : Nat} (positive : 0 < n) : 10 ^ (digitCount n - 1) ≤ n := by
  by_contra less
  have count := digitCount_pos n
  rcases Nat.eq_zero_or_pos (digitCount n - 1) with single | several
  · rw [single] at less
    omega
  · have := (digitCount_le_iff several).mpr (Nat.lt_of_not_le less)
    omega

/-- Each zero behind the digits of a number is one digit more. -/
theorem digitCount_mul_pow {n : Nat} (positive : 0 < n) (k : Nat) :
    digitCount (n * 10 ^ k) = digitCount n + k := by
  have count := digitCount_pos n
  apply le_antisymm
  · rw [digitCount_le_iff (by omega), pow_add]
    exact Nat.mul_lt_mul_of_pos_right (lt_pow_digitCount n) (by positivity)
  · by_contra fewer
    have above : n * 10 ^ k < 10 ^ (digitCount n - 1 + k) := by
      rw [← digitCount_le_iff (by have := digitCount_pos (n * 10 ^ k); omega)]
      omega
    rw [pow_add] at above
    exact absurd (pow_digitCount_le positive)
      (Nat.not_le_of_lt (Nat.lt_of_mul_lt_mul_right above))

/-- A decimal that is not far beyond the range of exponents is rounded by its value. -/
theorem ofDecimal_eq_ofRatio (negative : Bool) {digits : Nat} {exponent : Int}
    (nonzero : 0 < digits) (high : exponent + digitCount digits ≤ 400)
    (low : -400 ≤ exponent + digitCount digits) {n d : Nat} (positive : 0 < n) (divides : 0 < d)
    (value : (n : ℚ) / d = digits * 10 ^ exponent) :
    ofDecimal negative digits exponent = ofRatio negative n d := by
  rw [ofDecimal, if_neg (Nat.ne_of_gt nonzero), if_neg (not_lt.mpr high), if_neg (not_lt.mpr low)]
  have tenPow_pos (k : Nat) : 0 < tenPow k := Nat.pow_pos (Nat.succ_pos 9)
  have cast_tenPow (k : Nat) : (tenPow k : ℚ) = 10 ^ k := Nat.cast_pow 10 k
  split
  next below =>
    refine ofRatio_congr negative nonzero (tenPow_pos _) positive divides ?_
    obtain ⟨k, rfl⟩ : ∃ k : Nat, exponent = -k := ⟨(-exponent).toNat, by omega⟩
    rw [value, neg_neg, Int.toNat_natCast, cast_tenPow, zpow_neg, zpow_natCast]
    rfl
  next =>
    refine ofRatio_congr negative (Nat.mul_pos nonzero (tenPow_pos _)) Nat.one_pos positive divides ?_
    obtain ⟨k, rfl⟩ : ∃ k : Nat, exponent = k := ⟨exponent.toNat, by omega⟩
    rw [value, Int.toNat_natCast, Nat.cast_mul, cast_tenPow, zpow_natCast, Nat.cast_one, div_one]

/-- Any decimal above zero is the value of a quotient. -/
theorem exists_ratio {digits : Nat} (nonzero : 0 < digits) (exponent : Int) :
    ∃ n d : Nat, 0 < n ∧ 0 < d ∧ (n : ℚ) / d = digits * 10 ^ exponent := by
  obtain ⟨divides, value⟩ := ratio_divPowTen digits Nat.one_pos (-exponent)
  rw [Nat.cast_one, div_one, zpow_neg, div_inv_eq_mul] at value
  have digits_pos : (0 : ℚ) < digits := Nat.cast_pos.mpr nonzero
  refine ⟨_, _, Nat.pos_of_ne_zero fun zero => ?_, divides, value⟩
  rw [zero, Nat.cast_zero, zero_div] at value
  exact absurd value (by positivity)

/-- **Zeros behind the digits of a decimal do not matter.** -/
theorem ofDecimal_mul_pow (negative : Bool) (digits k : Nat) (exponent : Int) :
    ofDecimal negative (digits * 10 ^ k) (exponent - k) = ofDecimal negative digits exponent := by
  rcases Nat.eq_zero_or_pos digits with rfl | nonzero
  · rw [Nat.zero_mul, ofDecimal, ofDecimal, if_pos rfl, if_pos rfl]
  have nonzero' : 0 < digits * 10 ^ k := by positivity
  have magnitude : exponent - k + digitCount (digits * 10 ^ k) = exponent + digitCount digits := by
    rw [digitCount_mul_pow nonzero]
    push_cast
    ring
  by_cases high : exponent + digitCount digits > 400
  · rw [ofDecimal, ofDecimal, if_neg (Nat.ne_of_gt nonzero'), if_neg (Nat.ne_of_gt nonzero),
      magnitude, if_pos high, if_pos high]
  by_cases low : exponent + digitCount digits < -400
  · rw [ofDecimal, ofDecimal, if_neg (Nat.ne_of_gt nonzero'), if_neg (Nat.ne_of_gt nonzero),
      magnitude, if_neg high, if_neg high, if_pos low, if_pos low]
  obtain ⟨n, d, positive, divides, value⟩ := exists_ratio nonzero exponent
  have value' : (n : ℚ) / d = (digits * 10 ^ k : Nat) * 10 ^ (exponent - k) := by
    rw [value, zpow_sub₀ (by norm_num), zpow_natCast]
    push_cast
    field_simp
  rw [ofDecimal_eq_ofRatio negative nonzero (not_lt.mp high) (not_lt.mp low) positive divides value,
    ofDecimal_eq_ofRatio negative nonzero' (magnitude ▸ not_lt.mp high) (magnitude ▸ not_lt.mp low)
      positive divides value']

/-- **What is read is a number that there is.** -/
theorem exact_ofDecimal (negative : Bool) (digits : Nat) (exponent : Int) :
    (ofDecimal negative digits exponent).Exact := by
  have exact_zero : (zero negative).Exact :=
    ⟨le_refl _, by decide, by positivity, .inr rfl⟩
  rcases Nat.eq_zero_or_pos digits with rfl | nonzero
  · exact exact_zero
  by_cases high : exponent + digitCount digits > 400
  · rw [ofDecimal, if_neg (Nat.ne_of_gt nonzero), if_pos high]
    trivial
  by_cases low : exponent + digitCount digits < -400
  · rw [ofDecimal, if_neg (Nat.ne_of_gt nonzero), if_neg high, if_pos low]
    exact exact_zero
  obtain ⟨n, d, positive, divides, value⟩ := exists_ratio nonzero exponent
  rw [ofDecimal_eq_ofRatio negative nonzero (not_lt.mp high) (not_lt.mp low) positive divides value]
  exact exact_ofRatio negative positive divides

/-! ### The leading digit -/

theorem powTenBelow_le {n d : Nat} (divides : 0 < d) {low : Int} (steps : Nat)
    (below : (10 : ℚ) ^ low ≤ n / d) : (10 : ℚ) ^ powTenBelow n d low steps ≤ n / d := by
  induction steps generalizing low with
  | zero => exact below
  | succ steps ih =>
      obtain ⟨scaled_pos, scaled⟩ := ratio_divPowTen n divides (low + 1)
      rw [powTenBelow]
      generalize divPowTen n d (low + 1) = pair at scaled_pos scaled
      obtain ⟨a, b⟩ := pair
      dsimp only at scaled_pos scaled ⊢
      split
      next more =>
        refine ih ?_
        have one_le : (1 : ℚ) ≤ a / b := by
          rw [one_le_div (Nat.cast_pos.mpr scaled_pos)]
          exact_mod_cast more
        rwa [scaled, one_le_div (by positivity)] at one_le
      next => exact below

/-- Three decimal digits are less than ten binary ones. -/
theorem ten_pow_le_two_pow {k m : Nat} (fits : 10 * k ≤ 3 * m) : 10 ^ k ≤ 2 ^ m := by
  refine le_of_pow_le_pow_left₀ (Nat.succ_ne_zero 2) (Nat.zero_le _) ?_
  calc (10 ^ k) ^ 3 = (10 ^ 3) ^ k := by rw [← pow_mul, ← pow_mul, mul_comm]
    _ ≤ (2 ^ 10) ^ k := Nat.pow_le_pow_left (by norm_num) k
    _ = 2 ^ (10 * k) := by rw [← pow_mul]
    _ ≤ 2 ^ (3 * m) := Nat.pow_le_pow_right Nat.two_pos fits
    _ = (2 ^ m) ^ 3 := by rw [← pow_mul, mul_comm]

/-- 93 binary digits are less than 28 decimal ones. -/
theorem two_pow_le_ten_pow {k m : Nat} (fits : 28 * m ≤ 93 * k) : 2 ^ m ≤ 10 ^ k := by
  refine le_of_pow_le_pow_left₀ (by decide : 28 ≠ 0) (Nat.zero_le _) ?_
  calc (2 ^ m) ^ 28 = 2 ^ (28 * m) := by rw [← pow_mul, mul_comm]
    _ ≤ 2 ^ (93 * k) := Nat.pow_le_pow_right Nat.two_pos fits
    _ = (2 ^ 93) ^ k := by rw [← pow_mul]
    _ ≤ (10 ^ 28) ^ k := Nat.pow_le_pow_left (by norm_num) k
    _ = (10 ^ k) ^ 28 := by rw [← pow_mul, ← pow_mul, mul_comm]

/-- The first guess at the leading exponent is low enough within the range of exponents. -/
theorem ten_pow_guess_le {log : Int} (low : -1100 ≤ log) (high : log ≤ 1030) :
    (10 : ℚ) ^ (log * 30103 / 100000 - 2) ≤ 2 ^ log / 2 := by
  rcases le_or_gt 0 log with nonneg | negative
  · obtain ⟨m, rfl⟩ : ∃ m : Nat, log = m := ⟨log.toNat, by omega⟩
    obtain ⟨k, guess⟩ : ∃ k : Nat, (m : Int) * 30103 / 100000 = k :=
      ⟨((m : Int) * 30103 / 100000).toNat, by omega⟩
    have bound : (10 : ℚ) ^ k ≤ 2 ^ (m + 5) := by
      exact_mod_cast ten_pow_le_two_pow (k := k) (m := m + 5) (by omega)
    rw [guess, zpow_sub₀ (by norm_num), zpow_natCast, zpow_natCast]
    have power : (0 : ℚ) < 2 ^ m := by positivity
    rw [pow_add] at bound
    norm_num at bound ⊢
    linarith
  · obtain ⟨m, rfl⟩ : ∃ m : Nat, log = -m := ⟨(-log).toNat, by omega⟩
    obtain ⟨k, guess⟩ : ∃ k : Nat, (-m : Int) * 30103 / 100000 = -k :=
      ⟨(-((-m : Int) * 30103 / 100000)).toNat, by omega⟩
    have bound : (2 : ℚ) ^ (m + 1) ≤ 10 ^ (k + 2) := by
      exact_mod_cast two_pow_le_ten_pow (k := k + 2) (m := m + 1) (by omega)
    have flipped : (-k : Int) - 2 = -((k + 2 : Nat) : Int) := by
      push_cast
      ring
    rw [guess, flipped, zpow_neg, zpow_natCast, zpow_neg, zpow_natCast, inv_eq_one_div,
      inv_eq_one_div, div_div, ← pow_succ]
    exact one_div_le_one_div_of_le (by positivity) bound

/-- The power of ten of the leading digit is no more than the quotient. -/
theorem ten_pow_leadingExponent_le {n d : Nat} (positive : 0 < n) (divides : 0 < d)
    (low : -1100 ≤ (n.log2 : Int) - d.log2) (high : (n.log2 : Int) - d.log2 ≤ 1030) :
    (10 : ℚ) ^ leadingExponent n d ≤ n / d := by
  obtain ⟨above, -⟩ := ratio_bounds positive divides
  exact powTenBelow_le divides 5 ((ten_pow_guess_le low high).trans above.le)

/-! ### Digits that read back -/

/-- The value of a finite number above zero lies within these bounds. -/
theorem value_bounds {negative : Bool} {significand : Nat} {exponent : Int}
    (exact : (finite negative significand exponent).Exact) (nonzero : 0 < significand) :
    (2 : ℚ) ^ (-1074 : Int) ≤ significand * 2 ^ exponent ∧
      (significand : ℚ) * 2 ^ exponent < 2 ^ (1024 : Int) := by
  obtain ⟨least, most, short, -⟩ := exact
  have one_le : (1 : ℚ) ≤ significand := by exact_mod_cast nonzero
  have size : (significand : ℚ) < 2 ^ 53 := by exact_mod_cast short
  have low : (2 : ℚ) ^ (-1074 : Int) ≤ 2 ^ exponent := zpow_le_zpow_right₀ one_le_two least
  have high : (2 : ℚ) ^ exponent ≤ 2 ^ (971 : Int) := zpow_le_zpow_right₀ one_le_two most
  constructor
  · calc (2 : ℚ) ^ (-1074 : Int) ≤ 2 ^ exponent := low
      _ = 1 * 2 ^ exponent := (one_mul _).symm
      _ ≤ significand * 2 ^ exponent := by gcongr
  · calc (significand : ℚ) * 2 ^ exponent ≤ significand * 2 ^ (971 : Int) := by gcongr
      _ < 2 ^ 53 * 2 ^ (971 : Int) := by gcongr
      _ = 2 ^ (1024 : Int) := by rw [← zpow_natCast, ← zpow_add₀ two_ne_zero]; rfl

/-- A decimal within the range of exponents has a magnitude for which its value is computed. -/
theorem magnitude_bounds {digits : Nat} {exponent : Int} (nonzero : 0 < digits)
    (low : (2 : ℚ) ^ (-1075 : Int) ≤ digits * 10 ^ exponent)
    (high : (digits : ℚ) * 10 ^ exponent < 2 ^ (1025 : Int)) :
    -400 ≤ exponent + digitCount digits ∧ exponent + digitCount digits ≤ 400 := by
  have ten : (1 : ℚ) < 10 := by norm_num
  have count := digitCount_pos digits
  have power : (0 : ℚ) < 10 ^ exponent := by positivity
  have above : (10 : ℚ) ^ (exponent + digitCount digits - 1) ≤ digits * 10 ^ exponent := by
    have split : exponent + digitCount digits - 1 = ((digitCount digits - 1 : Nat) : Int) + exponent := by
      omega
    have least : ((10 ^ (digitCount digits - 1) : Nat) : ℚ) ≤ digits :=
      Nat.cast_le.mpr (pow_digitCount_le nonzero)
    rw [split, zpow_add₀ (by norm_num), zpow_natCast]
    push_cast at least
    gcongr
  have below : (digits : ℚ) * 10 ^ exponent < 10 ^ (exponent + digitCount digits) := by
    have most : (digits : ℚ) < (10 ^ digitCount digits : Nat) :=
      Nat.cast_lt.mpr (lt_pow_digitCount digits)
    rw [add_comm, zpow_add₀ (by norm_num), zpow_natCast]
    push_cast at most
    gcongr
  constructor
  · have bottom : (10 : ℚ) ^ (-400 : Int) ≤ 2 ^ (-1075 : Int) := by
      have : (2 : ℚ) ^ 1075 ≤ 10 ^ 400 := by
        exact_mod_cast two_pow_le_ten_pow (k := 400) (m := 1075) (by decide)
      rw [zpow_neg, zpow_neg]
      exact inv_anti₀ (by positivity) this
    have := (zpow_lt_zpow_iff_right₀ ten).mp ((bottom.trans low).trans_lt below)
    omega
  · have top : (2 : ℚ) ^ (1025 : Int) ≤ 10 ^ (400 : Int) := by
      exact_mod_cast two_pow_le_ten_pow (k := 400) (m := 1025) (by decide)
    have := (zpow_lt_zpow_iff_right₀ ten).mp ((above.trans_lt high).trans_le top)
    omega

/-- **A decimal that differs from a number by half a unit in the 17th digit reads back as it.** -/
theorem ofDecimal_of_near {negative : Bool} {significand : Nat} {exponent : Int}
    (exact : (finite negative significand exponent).Exact) (nonzero : 0 < significand)
    {digits : Nat} {place : Int}
    (close : |(digits : ℚ) * 10 ^ place - significand * 2 ^ exponent| ≤
      significand * 2 ^ exponent / (2 * 10 ^ 16)) :
    ofDecimal negative digits place = finite negative significand exponent := by
  obtain ⟨low, high⟩ := value_bounds exact nonzero
  have value_pos : (0 : ℚ) < significand * 2 ^ exponent := lt_of_lt_of_le (by positivity) low
  obtain ⟨under, above⟩ := abs_le.mp close
  have lower : (significand : ℚ) * 2 ^ exponent / 2 ≤ digits * 10 ^ place := by
    norm_num at under
    linarith
  have upper : (digits : ℚ) * 10 ^ place ≤ 2 * (significand * 2 ^ exponent) := by
    norm_num at above
    linarith
  have digits_pos : 0 < digits := by
    refine Nat.pos_of_ne_zero fun zero => ?_
    rw [zero, Nat.cast_zero, zero_mul] at lower
    linarith
  have least_value : (2 : ℚ) ^ (-1075 : Int) ≤ digits * 10 ^ place :=
    calc (2 : ℚ) ^ (-1075 : Int) = 2 ^ (-1074 : Int) / 2 := zpow_sub_one₀ two_ne_zero (-1074)
      _ ≤ significand * 2 ^ exponent / 2 := by gcongr
      _ ≤ digits * 10 ^ place := lower
  have most_value : (digits : ℚ) * 10 ^ place < 2 ^ (1025 : Int) :=
    calc (digits : ℚ) * 10 ^ place ≤ 2 * (significand * 2 ^ exponent) := upper
      _ < 2 * 2 ^ (1024 : Int) := by gcongr
      _ = 2 ^ (1025 : Int) := (zpow_one_add₀ two_ne_zero 1024).symm
  obtain ⟨least, most⟩ := magnitude_bounds digits_pos least_value most_value
  obtain ⟨n, d, positive, divides, value⟩ := exists_ratio digits_pos place
  rw [ofDecimal_eq_ofRatio negative digits_pos most least positive divides value]
  rw [← value] at close
  exact ofRatio_of_near exact positive divides close

theorem ofDecimal_of_readingBack {x : Binary64} {negative : Bool} {n d : Nat} {place : Int}
    {decimal : Decimal} (found : readingBack x negative n d place = some decimal) :
    ofDecimal negative decimal.digits decimal.exponent = x := by
  unfold readingBack at found
  have reads := List.find?_some found
  exact beq_iff_eq.mp reads

/-- The nearer one of the two decimals of 17 digits around a number reads back as it. -/
theorem exists_readingBack {negative : Bool} {significand : Nat} {exponent : Int}
    (exact : (finite negative significand exponent).Exact) (nonzero : 0 < significand) {n d : Nat}
    (divides : 0 < d) (value : (n : ℚ) / d = significand * 2 ^ exponent) {place : Int}
    (leads : (10 : ℚ) ^ (place + 16) ≤ n / d) :
    ∃ decimal, readingBack (finite negative significand exponent) negative n d place =
      some decimal := by
  obtain ⟨scaled_pos, scaled⟩ := ratio_divPowTen n divides place
  unfold readingBack
  generalize divPowTen n d place = pair at scaled_pos scaled
  obtain ⟨a, b⟩ := pair
  dsimp only at scaled_pos scaled ⊢
  have power : (0 : ℚ) < 10 ^ place := by positivity
  have unit : (10 : ℚ) ^ place ≤ significand * 2 ^ exponent / 10 ^ 16 := by
    rw [zpow_add₀ (by norm_num), value] at leads
    rw [le_div_iff₀ (by norm_num)]
    exact_mod_cast leads
  have reads {digits : Nat} (near : |(a : ℚ) / b - digits| ≤ 1 / 2) :
      (ofDecimal negative digits place == finite negative significand exponent) = true := by
    refine beq_iff_eq.mpr (ofDecimal_of_near exact nonzero ?_)
    have gap : (digits : ℚ) * 10 ^ place - significand * 2 ^ exponent =
        -((a / b - digits) * 10 ^ place) := by
      rw [scaled, ← value, sub_mul, div_mul_cancel₀ _ power.ne']
      ring
    rw [gap, abs_neg, abs_mul, abs_of_pos power]
    calc |(a : ℚ) / b - digits| * 10 ^ place
        ≤ 1 / 2 * (significand * 2 ^ exponent / 10 ^ 16) := by gcongr
      _ = significand * 2 ^ exponent / (2 * 10 ^ 16) := by ring
  obtain ⟨below, above⟩ := abs_sub_quotient a scaled_pos
  by_cases nearer : nearerBelow a b = true
  · rw [if_pos nearer]
    have near : |(a : ℚ) / b - (a / b : Nat)| ≤ 1 / 2 := by
      rw [below, part_le_half_iff a scaled_pos]
      have := of_decide_eq_true nearer
      omega
    exact ⟨_, List.find?_cons_of_pos (reads near)⟩
  · rw [if_neg nearer]
    have near : |(a : ℚ) / b - (a / b + 1 : Nat)| ≤ 1 / 2 := by
      have := (half_le_part_iff a scaled_pos).mpr (by
        have := mt decide_eq_true nearer
        omega)
      rw [above]
      linarith
    exact ⟨_, List.find?_cons_of_pos (reads near)⟩

/-- Fewer digits than 17 are taken only if they read back, and 17 always do. -/
theorem ofDecimal_shortestFrom {negative : Bool} {significand : Nat} {exponent : Int}
    (exact : (finite negative significand exponent).Exact) (nonzero : 0 < significand) {n d : Nat}
    (divides : 0 < d) (value : (n : ℚ) / d = significand * 2 ^ exponent) {leading : Int}
    (leads : (10 : ℚ) ^ leading ≤ n / d) {count left : Nat} (most : count + left = 16) :
    let decimal := shortestFrom (finite negative significand exponent) negative n d leading count
      (left + 1)
    ofDecimal negative decimal.digits decimal.exponent = finite negative significand exponent := by
  induction left generalizing count with
  | zero =>
      have last : leading - count + 16 = leading := by omega
      obtain ⟨decimal, found⟩ :=
        exists_readingBack exact nonzero divides value (last.symm ▸ leads)
      simp only [shortestFrom, found]
      exact ofDecimal_of_readingBack found
  | succ left ih =>
      rw [shortestFrom]
      cases found : readingBack (finite negative significand exponent) negative n d
          (leading - count) with
      | some decimal => exact ofDecimal_of_readingBack found
      | none => exact ih (by omega)

theorem ofDecimal_dropZeros (negative : Bool) (steps : Nat) (decimal : Decimal) :
    ofDecimal negative (decimal.dropZeros steps).digits (decimal.dropZeros steps).exponent =
      ofDecimal negative decimal.digits decimal.exponent := by
  induction steps generalizing decimal with
  | zero => rfl
  | succ steps ih =>
      rw [Decimal.dropZeros]
      split
      next zeros =>
        rw [ih]
        have digits : decimal.digits / 10 * 10 ^ 1 = decimal.digits := by omega
        have exponent : decimal.exponent + 1 - ((1 : Nat) : Int) = decimal.exponent := by omega
        have same := ofDecimal_mul_pow negative (decimal.digits / 10) 1 (decimal.exponent + 1)
        rw [digits, exponent] at same
        exact same.symm
      next => rfl

/-- **The shortest digits of a number read back as it.** -/
theorem ofDecimal_shortest {negative : Bool} {significand : Nat} {exponent : Int}
    (exact : (finite negative significand exponent).Exact) (nonzero : 0 < significand) :
    ofDecimal negative (shortest negative significand exponent).digits
      (shortest negative significand exponent).exponent =
        finite negative significand exponent := by
  obtain ⟨divides, value⟩ := ratio_scaleDown significand Nat.one_pos (-exponent)
  rw [Nat.cast_one, div_one, zpow_neg, div_inv_eq_mul] at value
  obtain ⟨low, high⟩ := value_bounds exact nonzero
  unfold shortest
  generalize scaleDown significand 1 (-exponent) = pair at divides value
  obtain ⟨n, d⟩ := pair
  dsimp only at divides value ⊢
  rw [ofDecimal_dropZeros]
  rw [← value] at low high
  have positive : 0 < n := by
    refine Nat.pos_of_ne_zero fun zero => ?_
    rw [zero, Nat.cast_zero, zero_div] at low
    exact absurd low (not_le.mpr (by positivity))
  obtain ⟨above, below⟩ := ratio_bounds positive divides
  refine ofDecimal_shortestFrom exact nonzero divides value
    (ten_pow_leadingExponent_le positive divides ?_ ?_) (Nat.zero_add 16)
  · have doubled := low.trans_lt below
    rw [mul_comm, ← zpow_add_one₀ two_ne_zero] at doubled
    have := (zpow_lt_zpow_iff_right₀ one_lt_two).mp doubled
    omega
  · have halved := above.trans high
    rw [div_eq_mul_inv, ← zpow_sub_one₀ two_ne_zero] at halved
    have := (zpow_lt_zpow_iff_right₀ one_lt_two).mp halved
    omega

end LispEditor.Binary64
