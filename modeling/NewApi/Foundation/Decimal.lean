import Mathlib.Data.Rat.Floor
import NewApi.Foundation.GoTime

/-!
# Exact decimals

A decimal number is a rational.  `truncate` and `roundAway` are its two ways to
an integer; `intPart` is the truncation kept in 64 bits.
-/

namespace NewApi.Foundation

open Int

def truncate (x : ℚ) : Int := if 0 ≤ x then ⌊x⌋ else -⌊-x⌋

def roundAway (x : ℚ) : Int := if 0 ≤ x then ⌊x + 1 / 2⌋ else -⌊-x + 1 / 2⌋

def intPart (x : ℚ) : Int := wrap64 (truncate x)

theorem truncate_neg (x : ℚ) : truncate (-x) = -truncate x := by
  unfold truncate
  rcases lt_trichotomy x 0 with hneg | rfl | hpos
  · rw [if_pos (by linarith), if_neg (by linarith), neg_neg]
  · simp
  · rw [if_neg (by linarith), if_pos hpos.le, neg_neg]

variable {x y : ℚ}

theorem truncate_of_nonneg (h : 0 ≤ x) : truncate x = ⌊x⌋ := if_pos h

theorem truncate_intCast (n : Int) : truncate n = n := by
  rcases le_total 0 n with hpos | hneg
  · rw [truncate_of_nonneg (by exact_mod_cast hpos), floor_intCast]
  have hflip := truncate_neg (-(n : ℚ))
  rw [neg_neg] at hflip
  rw [hflip, truncate_of_nonneg (by simpa using hneg), ← cast_neg, floor_intCast, neg_neg]

theorem truncate_lt {n : Int} (hn : 0 < n) (h : x < n) : truncate x < n := by
  unfold truncate
  split
  · exact floor_lt.mpr h
  next hneg =>
  have hfloor : 0 ≤ ⌊-x⌋ := floor_nonneg.mpr (by linarith)
  omega

theorem le_truncate {n : Int} (hn : n ≤ 0) (h : n ≤ x) : n ≤ truncate x := by
  unfold truncate
  split
  · next hpos => exact hn.trans (floor_nonneg.mpr hpos)
  have hfloor : ⌊-x⌋ < -n + 1 := by
    apply floor_lt.mpr
    push_cast
    linarith
  omega

theorem intPart_intCast (n : Int) : intPart n = wrap64 n := by
  rw [intPart, truncate_intCast]

def Fits64 (x : Int) : Prop := -2 ^ 63 ≤ x ∧ x < 2 ^ 63

instance (x : Int) : Decidable (Fits64 x) := by
  unfold Fits64
  infer_instance

theorem wrap64_of_fits {x : Int} (h : Fits64 x) : wrap64 x = x := by
  obtain ⟨hlo, hhi⟩ := h
  unfold wrap64
  omega

theorem fits64_wrap64 (x : Int) : Fits64 (wrap64 x) := by
  unfold Fits64 wrap64
  omega

theorem add_wrap64_eq_of_fits {base x : Int} (hx : Fits64 (base + x))
    (hwrap : Fits64 (base + wrap64 x)) : wrap64 x = x := by
  obtain ⟨_, _⟩ := hx
  obtain ⟨_, _⟩ := hwrap
  unfold wrap64 at *
  omega

theorem roundAway_of_nonneg (h : 0 ≤ x) : roundAway x = ⌊x + 1 / 2⌋ := if_pos h

theorem roundAway_nonneg (h : 0 ≤ x) : 0 ≤ roundAway x := by
  rw [roundAway_of_nonneg h]
  exact floor_nonneg.mpr (by linarith)

theorem roundAway_nonpos (h : x ≤ 0) : roundAway x ≤ 0 := by
  obtain rfl | hneg := h.eq_or_lt
  · decide +kernel
  · rw [roundAway, if_neg (not_le.mpr hneg), neg_nonpos]
    exact floor_nonneg.mpr (by linarith)

theorem roundAway_mono (hxy : x ≤ y) : roundAway x ≤ roundAway y := by
  obtain hx | hx := le_total 0 x
  · rw [roundAway_of_nonneg hx, roundAway_of_nonneg (hx.trans hxy)]
    exact floor_mono (by linarith)
  · obtain hy | hy := le_or_gt 0 y
    · exact (roundAway_nonpos hx).trans (roundAway_nonneg hy)
    · rw [roundAway, roundAway, if_neg (not_le.mpr (hxy.trans_lt hy)), if_neg (not_le.mpr hy)]
      exact neg_le_neg (floor_mono (by linarith))

theorem roundAway_neg (x : ℚ) : roundAway (-x) = -roundAway x := by
  unfold roundAway
  rcases lt_trichotomy x 0 with hneg | rfl | hpos
  · rw [if_pos (by linarith), if_neg (by linarith), neg_neg]
  · decide +kernel
  · rw [if_neg (by linarith), if_pos hpos.le, neg_neg]

theorem abs_roundAway_sub_le (x : ℚ) : |(roundAway x : ℚ) - x| ≤ 1 / 2 := by
  have hnonneg {y : ℚ} (hy : 0 ≤ y) : |(roundAway y : ℚ) - y| ≤ 1 / 2 := by
    have hlow := floor_le (y + 1 / 2)
    have hhigh := lt_floor_add_one (y + 1 / 2)
    rw [roundAway_of_nonneg hy, abs_le]
    constructor <;> linarith
  rcases le_total 0 x with hx | hx
  · exact hnonneg hx
  have hflip := hnonneg (neg_nonneg.mpr hx)
  rw [roundAway_neg, cast_neg, ← neg_sub', abs_neg] at hflip
  exact hflip

theorem roundAway_intCast (n : Int) : roundAway n = n := by
  have hclose := abs_le.mp (abs_roundAway_sub_le n)
  have hlow : (n : ℚ) < roundAway n + 1 := by linarith
  have hhigh : (roundAway n : ℚ) < n + 1 := by linarith
  norm_cast at hlow hhigh
  omega

def decimalDiv (x y : ℚ) : ℚ := roundAway (x / y * 10 ^ 16) / 10 ^ 16

theorem abs_decimalDiv_sub_le (x y : ℚ) : |decimalDiv x y - x / y| ≤ 1 / (2 * 10 ^ 16) := by
  have hround := abs_roundAway_sub_le (x / y * 10 ^ 16)
  have hscale : decimalDiv x y - x / y =
      ((roundAway (x / y * 10 ^ 16) : ℚ) - x / y * 10 ^ 16) / 10 ^ 16 := by
    rw [decimalDiv, sub_div, mul_div_cancel_right₀ _ (by norm_num)]
  rw [hscale, abs_div, abs_of_pos (by norm_num : (0 : ℚ) < 10 ^ 16), div_le_iff₀ (by norm_num)]
  linarith

theorem decimalDiv_nonneg (h : 0 ≤ x / y) : 0 ≤ decimalDiv x y := by
  have hround := roundAway_nonneg (x := x / y * 10 ^ 16) (by linarith)
  unfold decimalDiv
  apply div_nonneg
  · exact_mod_cast hround
  · norm_num

theorem decimalDiv_intCast_mul (n : Int) (hy : y ≠ 0) : decimalDiv (n * y) y = n := by
  have hwhole : (n : ℚ) * y / y * 10 ^ 16 = ((n * 10 ^ 16 : Int) : ℚ) := by
    rw [mul_div_cancel_right₀ _ hy, cast_mul, cast_pow, cast_ofNat]
  rw [decimalDiv, hwhole, roundAway_intCast, cast_mul, cast_pow, cast_ofNat,
    mul_div_cancel_right₀ _ (by norm_num)]

def charge (atLeastOne : Bool) (x : ℚ) : Int :=
  if atLeastOne = true then max 1 (roundAway x) else roundAway x

theorem charge_mono (atLeastOne : Bool) (hxy : x ≤ y) :
    charge atLeastOne x ≤ charge atLeastOne y := by
  have hround := roundAway_mono hxy
  unfold charge
  split
  · exact max_le_max_left 1 hround
  · exact hround

theorem one_le_charge (x : ℚ) : 1 ≤ charge true x := le_max_left 1 (roundAway x)

theorem charge_nonneg {atLeastOne : Bool} (h : atLeastOne = false → 0 ≤ x) :
    0 ≤ charge atLeastOne x := by
  cases atLeastOne with
  | true => exact le_trans (by decide) (one_le_charge x)
  | false => exact roundAway_nonneg (h rfl)

end NewApi.Foundation
