import Mathlib.Algebra.Order.BigOperators.GroupWithZero.List
import Mathlib.RingTheory.Coprime.Lemmas
import Mathlib.Tactic.LinearCombination
import NewApi.Foundation.Decimal

/-!
# Scaling whole numbers

A whole number times a ratio, cut off toward zero.  Scalings by several ratios
may depend on their order.  Two scalings commute exactly if one of the ratios is
1, if they are equal, if both are whole, or if both are reciprocals of whole
numbers.
-/

namespace NewApi.Foundation

open List Int

/-! ## Fractions rounded down -/

/-- Multiplying by `p / q` and by `u / v` and rounding down gives the same in either order. -/
def FloorsCommute (p q u v : Int) : Prop := ∀ n : Int, u * (p * n / q) / v = p * (u * n / v) / q

namespace FloorsCommute

variable {p q u v : Int}

theorem symm (h : FloorsCommute p q u v) : FloorsCommute u v p q := fun n => (h n).symm

theorem of_nonneg (hq : 0 < q) (hv : 0 < v)
    (h : ∀ n : Int, 0 ≤ n → u * (p * n / q) / v = p * (u * n / v) / q) : FloorsCommute p q u v := by
  intro n
  have hshift (a b c d m : Int) (hb : 0 < b) (hd : 0 < d) :
      c * (a * (n + b * d * m) / b) / d = c * (a * n / b) / d + c * a * m := by
    rw [show a * (n + b * d * m) = a * n + b * (a * d * m) by ring,
      add_mul_ediv_left _ _ hb.ne',
      show c * (a * n / b + a * d * m) = c * (a * n / b) + d * (c * a * m) by ring,
      add_mul_ediv_left _ _ hd.ne']
  have hpos : 0 ≤ n + q * v * |n| := by
    have hone : 1 ≤ q * v := mul_pos hq hv
    have habs := neg_abs_le n
    nlinarith [abs_nonneg n]
  have hlater := h _ hpos
  rw [hshift p q u v _ hq hv, show q * v * |n| = v * q * |n| by ring,
    hshift u v p q _ hv hq] at hlater
  linear_combination hlater

theorem le_floor_iff (hp : 0 < p) (hq : 0 < q) (k n : Int) : k ≤ p * n / q ↔ -n ≤ q * -k / p := by
  rw [Int.le_ediv_iff_mul_le hq, Int.le_ediv_iff_mul_le hp]
  constructor <;> intro h <;> linarith

theorem inverse (hp : 0 < p) (hq : 0 < q) (hu : 0 < u) (hv : 0 < v)
    (h : FloorsCommute p q u v) : FloorsCommute q p v u := by
  -- a bound from below on one composition is a bound from below on the inverse one
  have hadjoint {a b c d : Int} (ha : 0 < a) (hb : 0 < b) (hc : 0 < c) (hd : 0 < d) (k n : Int) :
      k ≤ c * (a * n / b) / d ↔ -n ≤ b * (d * -k / c) / a := by
    rw [le_floor_iff hc hd, show -(a * n / b) ≤ d * -k / c ↔ -(d * -k / c) ≤ a * n / b by
      constructor <;> intro hle <;> linarith, le_floor_iff ha hb, neg_neg]
  have hle {a b c d : Int} (ha : 0 < a) (hb : 0 < b) (hc : 0 < c) (hd : 0 < d)
      (h : FloorsCommute a b c d) (n : Int) : d * (b * n / a) / c ≤ b * (d * n / c) / a := by
    have hleft := (hadjoint hc hd ha hb (-n) (-(d * (b * n / a) / c))).mpr
    rw [neg_neg, neg_neg, ← h] at hleft
    have hright := (hadjoint ha hb hc hd (-n) (-(d * (b * n / a) / c))).mp (hleft le_rfl)
    simpa only [neg_neg] using hright
  exact fun n => le_antisymm (hle hp hq hu hv h n) (hle hu hv hp hq h.symm n)

theorem mul_emod_le (hq : 0 < q) (hv : 0 < v) (h : FloorsCommute p q u v) (t : Int) :
    p * (u * q * t % v) ≤ q * (u * p * t % v) := by
  have hcommute := h (q * t)
  rw [show p * (q * t) = q * (p * t) by ring, mul_ediv_cancel_left _ hq.ne',
    show u * (p * t) = u * p * t by ring, show u * (q * t) = u * q * t by ring] at hcommute
  have hfirst := mul_ediv_add_emod (u * p * t) v
  have hsecond := mul_ediv_add_emod (u * q * t) v
  have hfloor := mul_ediv_self_le (x := p * (u * q * t / v)) hq.ne'
  rw [← hcommute] at hfloor
  have hscaled := mul_le_mul_of_nonneg_left hfloor hv.le
  linear_combination hscaled - q * hfirst + p * hsecond

theorem exists_emod {g q' w : Int} (hg : 0 < g) (hw : 1 < w) (hu : IsCoprime u (g * w))
    (hp : IsCoprime p g) (hqw : IsCoprime q' w) :
    ∃ t : Int, u * (g * q') * t % (g * w) = g * (w - 1) ∧ u * p * t % (g * w) < w := by
  obtain ⟨a, b, hab⟩ := (hu.of_mul_right_right.mul_left hqw : IsCoprime (u * q') w)
  obtain ⟨c, d, hcd⟩ := (hu.of_mul_right_left.mul_left hp : IsCoprime (u * p) g)
  have hsplit := mul_ediv_add_emod (u * p * -a) w
  have hsmall := emod_lt_of_pos (u * p * -a) (by omega : 0 < w)
  have hnonneg := emod_nonneg (u * p * -a) (by omega : w ≠ 0)
  generalize u * p * -a / w = y at hsplit
  generalize u * p * -a % w = z at hsplit hsmall hnonneg
  have hgw : 0 < g * w := mul_pos hg (by omega)
  refine ⟨-a - w * (y * c), ?_, ?_⟩
  · have hvalue : u * (g * q') * (-a - w * (y * c)) =
        g * (w - 1) + g * w * (b - 1 - u * q' * (y * c)) := by
      linear_combination -g * hab
    rw [hvalue, add_mul_emod_self_left]
    apply emod_eq_of_lt
    · exact mul_nonneg hg.le (by omega)
    · exact mul_lt_mul_of_pos_left (by omega) hg
  · have hvalue : u * p * (-a - w * (y * c)) = z + g * w * (y * d) := by
      linear_combination -hsplit - w * y * hcd
    have hlt : z < g * w := by nlinarith
    rw [hvalue, add_mul_emod_self_left, emod_eq_of_lt hnonneg hlt]
    exact hsmall

/-- The denominator of a fraction divides that of a fraction above 1 that commutes with it,
or the numerator is bounded. -/
theorem dvd_or_mul_le (hq : 0 < q) (hv : 0 < v) (hpq : IsCoprime p q) (huv : IsCoprime u v)
    (h : FloorsCommute p q u v) : v ∣ q ∨ p * Int.gcd q v ≤ q := by
  have hgpos : 0 < (Int.gcd q v : Int) := by
    exact_mod_cast Int.gcd_pos_of_ne_zero_left v hq.ne'
  obtain ⟨q', hq'⟩ := Int.gcd_dvd_left q v
  obtain ⟨w, hw'⟩ := Int.gcd_dvd_right q v
  have hw : 0 < w := by
    by_contra hle
    nlinarith
  have hcoprime : IsCoprime q' w := by
    rw [isCoprime_iff_gcd_eq_one]
    have hdiv := Int.gcd_div_gcd_div_gcd (i := q) (j := v) (by exact_mod_cast hgpos)
    rwa [Int.ediv_eq_of_eq_mul_right hgpos.ne' hq', Int.ediv_eq_of_eq_mul_right hgpos.ne' hw']
      at hdiv
  generalize (Int.gcd q v : Int) = g at hgpos hq' hw'
  subst hq' hw'
  by_cases hone : w = 1
  · left
    subst hone
    simp
  right
  obtain ⟨t, hlarge, hsmall⟩ := exists_emod hgpos (by omega) huv hpq.of_mul_right_left hcoprime
  have hle := mul_emod_le hq hv h t
  rw [hlarge] at hle
  have hbound : u * p * t % (g * w) ≤ w - 1 := by omega
  have hscaled := mul_le_mul_of_nonneg_left hbound hq.le
  have hfactor : 0 < w - 1 := by omega
  nlinarith

theorem not_lt_of_same (hp : 0 < p) (hq : 1 < q) (hpq : IsCoprime p q) (huq : IsCoprime u q)
    (h : FloorsCommute p q u q) : ¬ p < u := by
  intro hlt
  obtain ⟨a, c, hac⟩ := hpq
  obtain ⟨x, y, hxy⟩ := (huq.mul_left ⟨a, c, hac⟩ : IsCoprime (u * p) q)
  generalize hk : x * (-1 - u * (c - 1)) = k
  have hsum := h (-a + q * k)
  have hX : p * (-a + q * k) / q = c - 1 + p * k := by
    rw [show p * (-a + q * k) = q - 1 + q * (c - 1 + p * k) by linear_combination -hac,
      add_mul_ediv_left _ _ (by omega), ediv_eq_zero_of_lt (by omega) (by omega)]
    omega
  have hY : u * (c - 1 + p * k) = q - 1 + q * (-1 + y * (1 + u * (c - 1))) := by
    rw [← hk]
    linear_combination (-1 - u * (c - 1)) * hxy
  rw [hX, hY, add_mul_ediv_left _ _ (by omega : q ≠ 0),
    ediv_eq_zero_of_lt (by omega) (by omega), zero_add] at hsum
  have hZ := mul_ediv_add_emod (u * (-a + q * k)) q
  have he := emod_lt_of_pos (u * (-a + q * k)) (by omega : 0 < q)
  generalize u * (-a + q * k) / q = Z at hZ hsum
  generalize u * (-a + q * k) % q = e at hZ he
  have hW := mul_ediv_add_emod (p * Z) q
  have hf := emod_lt_of_pos (p * Z) (by omega : 0 < q)
  rw [← hsum] at hW
  generalize p * Z % q = f at hW hf
  -- the two ways to take `u * p * n` apart
  have htotal : q * (q - 1) + u * (q - 1) = q * f + p * e := by
    linear_combination -q * hW - p * hZ + u * hac - q * hY
  have hfirst : q * f ≤ q * (q - 1) := mul_le_mul_of_nonneg_left (by omega) (by omega)
  have hsecond : p * e ≤ p * (q - 1) := mul_le_mul_of_nonneg_left (by omega) hp.le
  have hstrict : p * (q - 1) < u * (q - 1) := mul_lt_mul_of_pos_right hlt (by omega)
  omega

theorem dvd_of_lt (hq : 0 < q) (hv : 0 < v) (hpq : IsCoprime p q) (huv : IsCoprime u v)
    (h : FloorsCommute p q u v) (hlt : q < p) : v ∣ q := by
  have hgpos : 0 < (Int.gcd q v : Int) := by
    exact_mod_cast Int.gcd_pos_of_ne_zero_left v hq.ne'
  rcases dvd_or_mul_le hq hv hpq huv h with hdvd | hle
  · exact hdvd
  · have hp : p ≤ p * Int.gcd q v := by nlinarith
    omega

theorem num_of_mixed (hp : 0 < p) (hq : 0 < q) (hv : 0 < v) (hpq : IsCoprime p q)
    (huv : IsCoprime u v) (h : FloorsCommute p q u v) (hplt : p < q) (hugt : v < u) :
    p = 1 ∧ q ∣ v := by
  have hqv := dvd_of_lt hv hq huv hpq h.symm hugt
  refine ⟨?_, hqv⟩
  rcases dvd_or_mul_le hq hv hpq huv h with hvq | hle
  · obtain rfl : q = v := dvd_antisymm hq.le hv.le hqv hvq
    exact absurd (by omega) (not_lt_of_same hp (by omega) hpq huv h)
  · rw [Int.gcd_eq_left hq.le hqv] at hle
    by_contra hne
    have htwo : 2 * q ≤ p * q := mul_le_mul_of_nonneg_right (by omega) hq.le
    omega

section

variable (hp : 0 < p) (hq : 0 < q) (hu : 0 < u) (hv : 0 < v) (hpq : IsCoprime p q)
  (huv : IsCoprime u v) (h : FloorsCommute p q u v)

include hp hq hu hv hpq huv h

theorem of_one_lt (hpgt : q < p) (hugt : v < u) : q = 1 ∧ v = 1 ∨ p = u ∧ q = v := by
  have hvq := dvd_of_lt hq hv hpq huv h hpgt
  have hqv := dvd_of_lt hv hq huv hpq h.symm hugt
  obtain rfl : q = v := dvd_antisymm hq.le hv.le hqv hvq
  by_cases hone : q = 1
  · exact .inl ⟨hone, hone⟩
  right
  have hge := not_lt_of_same hp (by omega) hpq huv h
  have hle := not_lt_of_same hu (by omega) huv hpq h.symm
  exact ⟨by omega, rfl⟩

theorem not_mixed (hplt : p < q) (hugt : v < u) : False := by
  obtain ⟨-, hqv⟩ := num_of_mixed hp hq hv hpq huv h hplt hugt
  have hinverse := (inverse hp hq hu hv h).symm
  obtain ⟨hone, -⟩ := num_of_mixed hv hu hp huv.symm hpq.symm hinverse hugt hplt
  rw [hone] at hqv
  have hle := le_of_dvd (by omega) hqv
  omega

theorem fractions : p = q ∨ u = v ∨ p = u ∧ q = v ∨ q = 1 ∧ v = 1 ∨ p = 1 ∧ u = 1 := by
  rcases lt_trichotomy p q with hplt | hpeq | hpgt
  · rcases lt_trichotomy u v with hult | hueq | hugt
    · have hinverse := inverse hp hq hu hv h
      have hcases := of_one_lt hq hp hv hu hpq.symm huv.symm hinverse hplt hult
      tauto
    · exact .inr (.inl hueq)
    · exact (not_mixed hp hq hu hv hpq huv h hplt hugt).elim
  · exact .inl hpeq
  · rcases lt_trichotomy u v with hult | hueq | hugt
    · exact (not_mixed hu hv hp hq huv hpq h.symm hult hpgt).elim
    · exact .inr (.inl hueq)
    · have hcases := of_one_lt hp hq hu hv hpq huv h hpgt hugt
      tauto

end

end FloorsCommute

/-! ## Scaling -/

def scale (r : ℚ) (n : Int) : Int := truncate (n * r)

theorem scale_neg (r : ℚ) (n : Int) : scale r (-n) = -scale r n := by
  rw [scale, scale, ← truncate_neg]
  push_cast
  rw [neg_mul]

@[simp]
theorem scale_one (n : Int) : scale 1 n = n := by
  rw [scale, mul_one, truncate_intCast]

variable {r s : ℚ} {rs : List ℚ} {a b : Int} {n : Int}

theorem scale_nonneg (hr : 0 < r) (hn : 0 ≤ n) : 0 ≤ scale r n := by
  have hprod : 0 ≤ (n : ℚ) * r := mul_nonneg (by exact_mod_cast hn) hr.le
  rw [scale, truncate_of_nonneg hprod]
  exact floor_nonneg.mpr hprod

theorem scale_eq_ediv (hr : 0 < r) (hn : 0 ≤ n) : scale r n = r.num * n / r.den := by
  have hprod : 0 ≤ (n : ℚ) * r := mul_nonneg (by exact_mod_cast hn) hr.le
  have hfraction : (n : ℚ) * r = ((r.num * n : Int) : ℚ) / (r.den : ℚ) := by
    nth_rewrite 1 [← Rat.num_div_den r]
    push_cast
    ring
  rw [scale, truncate_of_nonneg hprod, hfraction, Rat.floor_intCast_div_natCast]

def ScalesCommute (r s : ℚ) : Prop := ∀ n : Int, scale s (scale r n) = scale r (scale s n)

theorem scalesCommute_iff_floors (hr : 0 < r) (hs : 0 < s) :
    ScalesCommute r s ↔ FloorsCommute r.num r.den s.num s.den := by
  have hrden : 0 < (r.den : Int) := by exact_mod_cast r.den_pos
  have hsden : 0 < (s.den : Int) := by exact_mod_cast s.den_pos
  have hequation {n : Int} (hn : 0 ≤ n) : scale s (scale r n) = scale r (scale s n) ↔
      s.num * (r.num * n / r.den) / s.den = r.num * (s.num * n / s.den) / r.den := by
    rw [scale_eq_ediv hs (scale_nonneg hr hn), scale_eq_ediv hr hn,
      scale_eq_ediv hr (scale_nonneg hs hn), scale_eq_ediv hs hn]
  constructor
  · intro h
    exact FloorsCommute.of_nonneg hrden hsden fun n hn => (hequation hn).mp (h n)
  · intro h n
    rcases le_total 0 n with hn | hn
    · exact (hequation hn).mpr (h n)
    · have hflip := (hequation (neg_nonneg.mpr hn)).mpr (h (-n))
      simpa only [scale_neg, neg_inj] using hflip

/-- The ratios are equal, both whole or both reciprocals of whole numbers, or one of them is 1. -/
def Compatible (r s : ℚ) : Prop :=
  r = 1 ∨ s = 1 ∨ r = s ∨ r.den = 1 ∧ s.den = 1 ∨ r.num = 1 ∧ s.num = 1

instance (r s : ℚ) : Decidable (Compatible r s) := by
  unfold Compatible
  infer_instance

theorem Compatible.refl (r : ℚ) : Compatible r r := .inr (.inr (.inl rfl))

instance : Std.Symm Compatible where
  symm r s h := by
    unfold Compatible at h ⊢
    tauto

theorem eq_one_of_num_eq_den (h : r.num = r.den) : r = 1 := by
  rw [← Rat.num_div_den r, h, cast_natCast]
  exact div_self (by exact_mod_cast r.den_ne_zero)

theorem scalesCommute_iff (hr : 0 < r) (hs : 0 < s) : ScalesCommute r s ↔ Compatible r s := by
  have hcoprime (x : ℚ) : IsCoprime x.num (x.den : Int) := by
    rw [isCoprime_iff_gcd_eq_one]
    exact x.reduced
  have hden (x : ℚ) : 0 < (x.den : Int) := by exact_mod_cast x.den_pos
  constructor
  · intro h
    rw [scalesCommute_iff_floors hr hs] at h
    rcases h.fractions (Rat.num_pos.mpr hr) (hden r) (Rat.num_pos.mpr hs) (hden s) (hcoprime r)
        (hcoprime s) with hone | hone | ⟨hnum, hden⟩ | ⟨hr, hs⟩ | hnum
    · exact .inl (eq_one_of_num_eq_den hone)
    · exact .inr (.inl (eq_one_of_num_eq_den hone))
    · exact .inr (.inr (.inl (Rat.ext hnum (by exact_mod_cast hden))))
    · exact .inr (.inr (.inr (.inl ⟨by exact_mod_cast hr, by exact_mod_cast hs⟩)))
    · exact .inr (.inr (.inr (.inr hnum)))
  · rintro (rfl | rfl | rfl | ⟨hr', hs'⟩ | ⟨hr', hs'⟩)
    · intro n
      rw [scale_one, scale_one]
    · intro n
      rw [scale_one, scale_one]
    · intro n
      rfl
    · rw [scalesCommute_iff_floors hr hs]
      intro n
      rw [hr', hs']
      simp only [Nat.cast_one, ediv_one]
      ring
    · rw [scalesCommute_iff_floors hr hs]
      intro n
      rw [hr', hs']
      simp only [one_mul]
      rw [ediv_ediv_of_nonneg (hden r).le, ediv_ediv_of_nonneg (hden s).le, mul_comm]

/-! ## Scaling by a list of ratios -/

def scaleAll (rs : List ℚ) (n : Int) : Int := rs.foldl (fun n r => scale r n) n

@[simp]
theorem scaleAll_nil (n : Int) : scaleAll [] n = n := rfl

@[simp]
theorem scaleAll_cons (r : ℚ) (rs : List ℚ) (n : Int) :
    scaleAll (r :: rs) n = scaleAll rs (scale r n) := rfl

@[simp]
theorem scaleAll_append (rs ss : List ℚ) (n : Int) :
    scaleAll (rs ++ ss) n = scaleAll ss (scaleAll rs n) := foldl_append

theorem scaleAll_neg (rs : List ℚ) (n : Int) : scaleAll rs (-n) = -scaleAll rs n := by
  induction rs generalizing n with
  | nil => rfl
  | cons r rs ih => rw [scaleAll_cons, scaleAll_cons, scale_neg, ih]

theorem scaleAll_nonneg (hpos : ∀ r ∈ rs, 0 < r) (hn : 0 ≤ n) : 0 ≤ scaleAll rs n := by
  induction rs generalizing n with
  | nil => exact hn
  | cons r rs ih =>
    rw [forall_mem_cons] at hpos
    exact ih hpos.2 (scale_nonneg hpos.1 hn)

/-! ### The order of the ratios -/

@[simp]
theorem scale_zero (r : ℚ) : scale r 0 = 0 := by
  rw [scale, cast_zero, zero_mul]
  exact truncate_intCast 0

theorem scale_lt_of_nonneg (h : 1 ≤ r) (ha : 0 ≤ a) (hab : a < b) : scale r a < scale r b := by
  have hstep : (a : ℚ) + 1 ≤ b := by exact_mod_cast hab
  have ha' : (0 : ℚ) ≤ a := by exact_mod_cast ha
  have hgap : (a : ℚ) * r + 1 ≤ b * r := by nlinarith
  rw [scale, scale, truncate_of_nonneg (by positivity), truncate_of_nonneg (by nlinarith)]
  have hfloor := floor_le_floor hgap
  rw [floor_add_one] at hfloor
  omega

theorem scale_injective (h : 1 ≤ r) (heq : scale r a = scale r b) : a = b := by
  have hr : 0 < r := by linarith
  have hnonneg {a b : Int} (ha : 0 ≤ a) (hb : 0 ≤ b) (heq : scale r a = scale r b) : a = b := by
    rcases lt_trichotomy a b with hab | rfl | hab
    · exact absurd heq (scale_lt_of_nonneg h ha hab).ne
    · rfl
    · exact absurd heq (scale_lt_of_nonneg h hb hab).ne'
  wlog ha : 0 ≤ a
  · have hflip := @this r (-a) (-b) h (by rw [scale_neg, scale_neg, heq]) hr hnonneg (by omega)
    omega
  rcases le_total 0 b with hb | hb
  · exact hnonneg ha hb heq
  have hleft := scale_nonneg hr ha
  have hright := scale_nonneg hr (neg_nonneg.mpr hb)
  rw [scale_neg] at hright
  have hzero := hnonneg ha le_rfl (by rw [scale_zero]; omega)
  have hzero' := hnonneg (neg_nonneg.mpr hb) le_rfl (by rw [scale_neg, scale_zero]; omega)
  omega

theorem exists_scale_of_nonneg (hr : 0 < r) (h : r ≤ 1) {m : Int} (hm : 0 ≤ m) :
    ∃ n, scale r n = m := by
  refine ⟨⌈(m : ℚ) / r⌉, ?_⟩
  have hm' : (0 : ℚ) ≤ m := by exact_mod_cast hm
  have hlow : (m : ℚ) ≤ ⌈(m : ℚ) / r⌉ * r := by
    rw [← div_le_iff₀ hr]
    exact le_ceil _
  have hhigh : (⌈(m : ℚ) / r⌉ : ℚ) * r < m + r := by
    have hceil := mul_lt_mul_of_pos_right (ceil_lt_add_one ((m : ℚ) / r)) hr
    rwa [add_mul, div_mul_cancel₀ _ hr.ne', one_mul] at hceil
  rw [scale, truncate_of_nonneg (by linarith), floor_eq_iff]
  constructor <;> linarith

theorem exists_scale (hr : 0 < r) (h : r ≤ 1) (m : Int) : ∃ n, scale r n = m := by
  rcases le_total 0 m with hm | hm
  · exact exists_scale_of_nonneg hr h hm
  · obtain ⟨n, hn⟩ := exists_scale_of_nonneg hr h (neg_nonneg.mpr hm)
    exact ⟨-n, by rw [scale_neg, hn, neg_neg]⟩

theorem scaleAll_injective (h : ∀ r ∈ rs, 1 ≤ r) (heq : scaleAll rs a = scaleAll rs b) : a = b := by
  induction rs generalizing a b with
  | nil => exact heq
  | cons r rs ih =>
    rw [forall_mem_cons] at h
    apply scale_injective h.1
    exact ih h.2 heq

theorem exists_scaleAll (h : ∀ r ∈ rs, 0 < r ∧ r ≤ 1) (m : Int) : ∃ n, scaleAll rs n = m := by
  induction rs generalizing m with
  | nil => exact ⟨m, rfl⟩
  | cons r rs ih =>
    rw [forall_mem_cons] at h
    obtain ⟨k, hk⟩ := ih h.2 m
    obtain ⟨n, hn⟩ := exists_scale h.1.1 h.1.2 k
    exact ⟨n, by rw [scaleAll_cons, hn, hk]⟩

def OrderFree (rs : List ℚ) : Prop :=
  ∀ first second : List ℚ, first.Perm rs → second.Perm rs →
    ∀ n, scaleAll first n = scaleAll second n

/-- The small ratios go before the two and the large ones after them, so that neither hides
what the exchange of the two does. -/
theorem OrderFree.commute (hpos : ∀ r ∈ rs, 0 < r) (h : OrderFree rs) (hsub : [r, s].Sublist rs) :
    ScalesCommute r s := by
  obtain ⟨rest, hrest⟩ := hsub.exists_perm_append
  let small := rest.filter (· ≤ 1)
  let large := rest.filter fun t => !decide (t ≤ 1)
  have hsplit : (small ++ large).Perm rest := filter_append_perm _ rest
  have horder {pair : List ℚ} (hpair : pair.Perm [r, s]) : (small ++ (pair ++ large)).Perm rs := by
    have hfront : (small ++ (pair ++ large)).Perm (pair ++ (small ++ large)) := by
      rw [← append_assoc, ← append_assoc]
      exact perm_append_comm.append_right large
    exact hfront.trans ((hpair.append hsplit).trans hrest.symm)
  have hmem {t : ℚ} (ht : t ∈ rest) : 0 < t := hpos t (hrest.mem_iff.mpr (mem_append_right _ ht))
  intro m
  have hsmall : ∀ t ∈ small, 0 < t ∧ t ≤ 1 := by
    intro t ht
    rw [mem_filter, decide_eq_true_iff] at ht
    exact ⟨hmem ht.1, ht.2⟩
  have hlarge : ∀ t ∈ large, 1 ≤ t := by
    intro t ht
    rw [mem_filter, Bool.not_eq_true', decide_eq_false_iff_not, not_le] at ht
    exact ht.2.le
  obtain ⟨n, rfl⟩ := exists_scaleAll hsmall m
  have hequal := h _ _ (horder (List.Perm.refl _)) (horder (List.Perm.swap r s [])) n
  simp only [scaleAll_append, scaleAll_cons, scaleAll_nil] at hequal
  exact scaleAll_injective hlarge hequal

theorem orderFree_iff (hpos : ∀ r ∈ rs, 0 < r) : OrderFree rs ↔ rs.Pairwise Compatible := by
  constructor
  · intro h
    rw [pairwise_iff_forall_sublist]
    intro r s hsub
    have hr := hpos r (hsub.subset (by simp))
    have hs := hpos s (hsub.subset (by simp))
    exact (scalesCommute_iff hr hs).mp (h.commute hpos hsub)
  · intro h first second hfirst hsecond n
    apply (hfirst.trans hsecond.symm).foldl_eq'
    intro r hr s hs m
    have hr := hfirst.mem_iff.mp hr
    have hs := hfirst.mem_iff.mp hs
    have hcompatible := h.forall_of_forall (fun t _ => Compatible.refl t) hr hs
    exact (scalesCommute_iff (hpos r hr) (hpos s hs)).mpr hcompatible m

/-! ### Nothing cut off -/

def NothingCut : List ℚ → Int → Prop
  | [], _ => True
  | r :: rs, n => ((n : ℚ) * r).den = 1 ∧ NothingCut rs (scale r n)

instance decidableNothingCut : (rs : List ℚ) → (n : Int) → Decidable (NothingCut rs n)
  | [], _ => .isTrue trivial
  | r :: rs, n =>
    have := decidableNothingCut rs (scale r n)
    inferInstanceAs (Decidable (((n : ℚ) * r).den = 1 ∧ NothingCut rs (scale r n)))

theorem cast_truncate_eq_iff (x : ℚ) : (truncate x : ℚ) = x ↔ x.den = 1 := by
  constructor
  · intro h
    rw [← h]
    exact Rat.den_intCast _
  · intro h
    rw [← Rat.coe_int_num_of_den_eq_one h, truncate_intCast]

theorem nothingCut_neg (rs : List ℚ) (n : Int) : NothingCut rs (-n) ↔ NothingCut rs n := by
  induction rs generalizing n with
  | nil => exact Iff.rfl
  | cons r rs ih =>
    rw [NothingCut, NothingCut, scale_neg, ih, cast_neg, neg_mul, Rat.den_neg_eq_den]

theorem cast_scale_le (hr : 0 < r) (hn : 0 ≤ n) : (scale r n : ℚ) ≤ n * r := by
  have hprod : 0 ≤ (n : ℚ) * r := mul_nonneg (by exact_mod_cast hn) hr.le
  rw [scale, truncate_of_nonneg hprod]
  exact floor_le _

section

variable {rs : List ℚ} (hpos : ∀ r ∈ rs, 0 < r)

include hpos

theorem cast_scaleAll_le (hn : 0 ≤ n) : (scaleAll rs n : ℚ) ≤ n * rs.prod := by
  induction rs generalizing n with
  | nil => simp
  | cons r rs ih =>
    rw [forall_mem_cons] at hpos
    rw [scaleAll_cons, prod_cons, ← mul_assoc]
    calc (scaleAll rs (scale r n) : ℚ) ≤ scale r n * rs.prod := ih hpos.2 (scale_nonneg hpos.1 hn)
      _ ≤ n * r * rs.prod :=
          mul_le_mul_of_nonneg_right (cast_scale_le hpos.1 hn) (prod_pos hpos.2).le

theorem cast_scaleAll_eq_iff_of_nonneg (hn : 0 ≤ n) :
    (scaleAll rs n : ℚ) = n * rs.prod ↔ NothingCut rs n := by
  induction rs generalizing n with
  | nil => simp [NothingCut]
  | cons r rs ih =>
    rw [forall_mem_cons] at hpos
    have hrest := prod_pos hpos.2
    have hnext := scale_nonneg hpos.1 hn
    rw [scaleAll_cons, prod_cons, ← mul_assoc, NothingCut, ← ih hpos.2 hnext,
      ← cast_truncate_eq_iff]
    constructor
    · intro h
      -- a cut in the first step cannot be made up for later
      have hlater := cast_scaleAll_le hpos.2 hnext
      have hfirst : (scale r n : ℚ) = n * r := by
        apply le_antisymm (cast_scale_le hpos.1 hn)
        rw [h] at hlater
        exact le_of_mul_le_mul_right hlater hrest
      exact ⟨hfirst, by rw [h, hfirst]⟩
    · rintro ⟨hfirst, hlater⟩
      rw [hlater]
      exact congrArg (· * rs.prod) hfirst

theorem cast_scaleAll_eq_iff (n : Int) : (scaleAll rs n : ℚ) = n * rs.prod ↔ NothingCut rs n := by
  rcases le_total 0 n with hn | hn
  · exact cast_scaleAll_eq_iff_of_nonneg hpos hn
  have hflip := cast_scaleAll_eq_iff_of_nonneg hpos (neg_nonneg.mpr hn)
  rw [nothingCut_neg, scaleAll_neg] at hflip
  rw [← hflip]
  push_cast
  rw [neg_mul, neg_inj]

end

/-! ### Dividing out again -/

section

variable {rs ds : List ℚ} (hrs : ∀ r ∈ rs, 0 < r) (hds : ∀ d ∈ ds, 0 < d)
  (hinverse : rs.prod * ds.prod = 1)

include hrs hds hinverse

theorem scaleAll_back_iff (n : Int) :
    scaleAll ds (scaleAll rs n) = n ↔ NothingCut rs n ∧ NothingCut ds (scaleAll rs n) := by
  wlog hn : 0 ≤ n
  · have hflip := this hrs hds hinverse (-n) (by omega)
    rwa [scaleAll_neg, scaleAll_neg, neg_inj, nothingCut_neg, nothingCut_neg] at hflip
  rw [← cast_scaleAll_eq_iff hrs, ← cast_scaleAll_eq_iff hds]
  have hback (x : ℚ) : x * rs.prod * ds.prod = x := by rw [mul_assoc, hinverse, mul_one]
  have hdsprod := prod_pos hds
  have hthere := cast_scaleAll_le hrs hn
  have hhere := cast_scaleAll_le hds (scaleAll_nonneg hrs hn)
  constructor
  · intro h
    rw [h] at hhere
    have hexact : (scaleAll rs n : ℚ) = n * rs.prod := by
      apply le_antisymm hthere
      apply le_of_mul_le_mul_right _ hdsprod
      rw [hback]
      exact hhere
    refine ⟨hexact, ?_⟩
    rw [h, hexact, hback]
  · rintro ⟨hrs', hds'⟩
    rw [hrs', hback] at hds'
    exact_mod_cast hds'

/-- Divided by ratios that were never applied, the number stays and is its own product only
if it is 0 or the ratios cancel. -/
theorem scaleAll_unapplied_iff (n : Int) :
    scaleAll ds n = n ∧ truncate (n * rs.prod) = n ↔ n = 0 ∨ rs.prod = 1 ∧ NothingCut ds n := by
  wlog hn : 0 ≤ n
  · have hflip := this hrs hds hinverse (-n) (by omega)
    rwa [scaleAll_neg, neg_inj, nothingCut_neg, neg_eq_zero, cast_neg, neg_mul,
      truncate_neg, neg_inj] at hflip
  have hrsprod := prod_pos hrs
  have hn' : (0 : ℚ) ≤ n := by exact_mod_cast hn
  rw [← cast_scaleAll_eq_iff hds]
  constructor
  · rintro ⟨hkept, hproduct⟩
    rcases eq_or_lt_of_le hn with hzero | hpos
    · exact .inl hzero.symm
    right
    have hpos' : (0 : ℚ) < n := by exact_mod_cast hpos
    have hdown := cast_scaleAll_le hds hn
    have hup : (truncate (n * rs.prod) : ℚ) ≤ n * rs.prod := by
      rw [truncate_of_nonneg (by positivity)]
      exact floor_le _
    rw [hkept] at hdown
    rw [hproduct] at hup
    have hds1 : 1 ≤ ds.prod := by nlinarith
    have hrs1 : 1 ≤ rs.prod := by nlinarith
    have hone : rs.prod = 1 := by nlinarith
    rw [hone, one_mul] at hinverse
    exact ⟨hone, by rw [hkept, hinverse, mul_one]⟩
  · rintro (rfl | ⟨hone, hkept⟩)
    · constructor
      · have hzero := scaleAll_neg ds 0
        rw [neg_zero] at hzero
        omega
      · rw [cast_zero, zero_mul]
        exact truncate_intCast 0
    · rw [hone, one_mul] at hinverse
      rw [hinverse, mul_one] at hkept
      refine ⟨by exact_mod_cast hkept, ?_⟩
      rw [hone, mul_one, truncate_intCast]

end

end NewApi.Foundation
