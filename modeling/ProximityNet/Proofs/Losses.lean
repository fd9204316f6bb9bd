import ProximityNet.Proofs.Waning

/-!
# Losses within their bound

A loss in proportion to the distance is worked out as a product, which is then divided by the range.
Within the range the exact quotient stays below the greatest loss, and it does so by more than the
product can gain when it is rounded, as long as the product keeps all its bits.  A product that is
too large is taken for infinite, and the loss with it; one that is too small may be rounded up by
more than there is room for, though not where half a percent or more may be lost.

* `nearest_value` — a double is nearest to its own value;
* `Nearest.rounded`, `Nearest.gain_le`, `Nearest.gain_le_of_small` — how much is gained by rounding;
* `succ_value_le` — how much is left up to a larger double;
* `product_le_of_normal`, `product_le` — what a rounded product with something smaller stays below;
* `KeepsBits` — the product is a finite number with all its bits, or may do without them;
* `linearLoss_within` — the loss of every distance within the range;
* `loss_passes_bound` — products that are too large, and one that is too small.
-/

namespace ProximityNet

open Float.Model (Format UnpackedFloat)
open Float.Model.UnpackedFloat

variable {a b c p : UnpackedFloat} {x : ℚ}

/-! ### What rounding gains -/

/-- A double is the one that is nearest to its own value. -/
theorem nearest_value (h : Upright a) (hfinite : a.isInf = false) : Nearest (value a) a := by
  obtain ⟨m, e, ⟨hbits, hleast, hnormal⟩, hmost, hvalue, hheight⟩ := h.exists_fitting hfinite
  refine ⟨h, height a, ⟨e, ⟨m, false, false⟩, ⟨hleast, ?_, ?_⟩, ?_, hheight⟩, ?_⟩
  · have hbits' : (m : ℚ) < 2 ^ (53 : ℤ) := by exact_mod_cast hbits
    rw [hvalue, add_comm, zpow_add₀ (by norm_num)]
    exact mul_lt_mul_of_pos_right hbits' (by positivity)
  · refine hnormal.symm.imp_right fun hfull => ?_
    have hfull' : (2 : ℚ) ^ (52 : ℤ) ≤ m := by exact_mod_cast hfull
    rw [hvalue, add_comm, zpow_add₀ (by norm_num)]
    exact mul_le_mul_of_nonneg_right hfull' (by positivity)
  · rw [hvalue]
    exact mul_div_cancel_right₀ _ (by positivity)
  · rw [hheight]
    omega

/-- Going to the nearest mantissa gains a half at most. -/
theorem Cuts.roundedMantissa_le_half {em : ExtendedMantissa} (h : Cuts em x) :
    em.roundedMantissa ≤ x + 1 / 2 := by
  obtain ⟨m, r, s⟩ := em
  cases r <;> cases s <;>
    simp only [Cuts, ExtendedMantissa.roundedMantissa, ExtendedMantissa.accuracy,
      Accuracy.roundToNearestEven] at h ⊢
  · linarith
  · linarith [h.1]
  · have hone : m % 2 ≤ 1 := by omega
    have hone' : ((m % 2 : ℕ) : ℚ) ≤ 1 := by exact_mod_cast hone
    push_cast
    linarith
  · push_cast
    linarith [h.1]

/-- The value of a double, read off where it stands. -/
theorem value_of_height {t : ℤ} {r : ℕ} (hp : Upright p) (hfinite : p.isInf = false)
    (hleast : -1074 ≤ t) (hbits : r ≤ 2 ^ 53) (hnormal : t = -1074 ∨ 2 ^ 52 ≤ r)
    (h : height p = (t + 1074) * 2 ^ 52 + r) : value p = r * 2 ^ t := by
  obtain ⟨m, e, ⟨hbits', hleast', hnormal'⟩, -, hvalue, hheight⟩ := hp.exists_fitting hfinite
  rw [hheight] at h
  rw [hvalue]
  by_cases hcarry : r = 2 ^ 53
  · obtain rfl : e = t + 1 := by omega
    obtain rfl : m = 2 ^ 52 := by omega
    rw [hcarry, zpow_add₀ (by norm_num)]
    push_cast
    ring
  · obtain rfl : e = t := by omega
    obtain rfl : m = r := by omega
    rfl

/-- A finite double is a mantissa rounded by a half at most, which has all its bits unless it is one of
the smallest. -/
theorem Nearest.rounded (h : Nearest x p) (hfinite : p.isInf = false) :
    ∃ (t : ℤ) (r : ℕ), value p = r * 2 ^ t ∧ r ≤ x / 2 ^ t + 1 / 2 ∧ -1074 ≤ t ∧
      (t = -1074 ∨ 2 ^ 52 ≤ r) := by
  obtain ⟨hup, _, ⟨t, em, hspaced, hcuts, rfl⟩, hheight⟩ := h
  have hnormal : t = -1074 ∨ 2 ^ 52 ≤ em.roundedMantissa :=
    or_iff_not_imp_left.mpr fun hfar => hcuts.le_roundedMantissa (hspaced.le_scaled hfar)
  refine ⟨t, em.roundedMantissa, ?_, hcuts.roundedMantissa_le_half, hspaced.least, hnormal⟩
  refine value_of_height hup hfinite hspaced.least
    (hcuts.roundedMantissa_le hspaced.scaled_lt) hnormal ?_
  rw [hheight]
  refine min_eq_left ?_
  by_contra hpast
  rw [min_eq_right (not_le.mp hpast).le] at hheight
  obtain ⟨m, e, ⟨hbits, -, -⟩, hmost, -, hplace⟩ := hup.exists_fitting hfinite
  omega

/-- A double with all its bits has gained less by rounding than its last bit is worth. -/
theorem Nearest.gain_le (h : Nearest x p) (hfinite : p.isInf = false)
    (hnormal : 2 ^ (-1022 : ℤ) ≤ value p) : value p * (2 ^ 53 - 1) ≤ x * 2 ^ 53 := by
  obtain ⟨t, r, hvalue, hround, -, hbits⟩ := h.rounded hfinite
  have hfull : (2 : ℚ) ^ 52 ≤ r := by
    rcases hbits with rfl | hfull
    · rw [hvalue, show (-1022 : ℤ) = 52 + -1074 by norm_num, zpow_add₀ (by norm_num)] at hnormal
      exact_mod_cast le_of_mul_le_mul_right hnormal (by positivity)
    · exact_mod_cast hfull
  have hgain : (r : ℚ) * (2 ^ 53 - 1) ≤ x / 2 ^ t * 2 ^ 53 := by linarith
  calc value p * (2 ^ 53 - 1) = r * (2 ^ 53 - 1) * 2 ^ t := by rw [hvalue]; ring
    _ ≤ x / 2 ^ t * 2 ^ 53 * 2 ^ t := mul_le_mul_of_nonneg_right hgain (by positivity)
    _ = x * 2 ^ 53 := by field_simp

/-- One of the smallest doubles has gained half of the smallest one at most. -/
theorem Nearest.gain_le_of_small (h : Nearest x p) (hfinite : p.isInf = false)
    (hsmall : value p < 2 ^ (-1022 : ℤ)) : value p ≤ x + 2 ^ (-1074 : ℤ) / 2 := by
  obtain ⟨t, r, hvalue, hround, hleast, hbits⟩ := h.rounded hfinite
  obtain rfl : t = -1074 := by
    refine hbits.resolve_right fun hfull => ?_
    have hfull' : (2 : ℚ) ^ (52 : ℤ) ≤ r := by exact_mod_cast hfull
    have hfar : (2 : ℚ) ^ (-1022 : ℤ) ≤ r * 2 ^ t :=
      calc (2 : ℚ) ^ (-1022 : ℤ) ≤ 2 ^ (52 + t) := zpow_le_zpow_right₀ (by norm_num) (by omega)
        _ = 2 ^ (52 : ℤ) * 2 ^ t := zpow_add₀ (by norm_num) _ _
        _ ≤ r * 2 ^ t := mul_le_mul_of_nonneg_right hfull' (by positivity)
    rw [hvalue] at hsmall
    exact absurd hfar hsmall.not_ge
  have hpos : (0 : ℚ) < 2 ^ (-1074 : ℤ) := by positivity
  calc value p = r * 2 ^ (-1074 : ℤ) := hvalue
    _ ≤ (x / 2 ^ (-1074 : ℤ) + 1 / 2) * 2 ^ (-1074 : ℤ) := mul_le_mul_of_nonneg_right hround hpos.le
    _ = x + 2 ^ (-1074 : ℤ) / 2 := by field_simp

/-! ### What is left up to a larger double -/

/-- Between two doubles there is room for the last bit of the smaller one. -/
theorem succ_value_le (hb : Upright b) (hc : Upright c) (hfinite : c.isInf = false)
    (hlt : b.compare c = some .lt) :
    ∃ (m : ℕ) (e : ℤ), value b = m * 2 ^ e ∧ m < 2 ^ 53 ∧ -1074 ≤ e ∧ (m + 1) * 2 ^ e ≤ value c := by
  rw [lt_iff_not_le hb.isNaN hc.isNaN, le_iff_height hc hb, not_le] at hlt
  have hbf := isInf_of_le hb hfinite ((le_iff_height hb hc).mpr hlt.le)
  obtain ⟨m, e, hfit, -, hvalue, hheight⟩ := hb.exists_fitting hbf
  obtain ⟨m', e', hfit', -, hvalue', hheight'⟩ := hc.exists_fitting hfinite
  rw [hheight, hheight'] at hlt
  have hroom := hfit.add_le (k := 1) hfit' le_rfl hlt
  rw [Nat.cast_one, ← hvalue'] at hroom
  exact ⟨m, e, hvalue, hfit.bits, hfit.least, hroom⟩

/-! ### Products that are rounded -/

section Products

variable {r : ℚ}

/-- A product with something smaller that is rounded with all its bits does not pass the exact one. -/
theorem product_le_of_normal (hb : Upright b) (hc : Upright c) (hfinite : c.isInf = false)
    (hlt : b.compare c = some .lt) (hp : Nearest (value a * value b) p) (hpf : p.isInf = false)
    (hnormal : 2 ^ (-1022 : ℤ) ≤ value p) : value p ≤ value a * value c := by
  have hvalue := value_nonneg a
  obtain ⟨m, e, hbvalue, hbits, -, hroom⟩ := succ_value_le hb hc hfinite hlt
  -- rounding gains a part in `2 ^ 53`, and `b` is by as much smaller than `c`
  have hgain := hp.gain_le hpf hnormal
  have hbits' : (m : ℚ) + 1 ≤ 2 ^ 53 := by exact_mod_cast hbits
  have hpart : (m : ℚ) * 2 ^ 53 ≤ (m + 1) * (2 ^ 53 - 1) := by linarith
  have hless : value b * 2 ^ 53 ≤ value c * (2 ^ 53 - 1) :=
    calc value b * 2 ^ 53 = (m : ℚ) * 2 ^ 53 * 2 ^ e := by rw [hbvalue]; ring
      _ ≤ ((m : ℚ) + 1) * (2 ^ 53 - 1) * 2 ^ e := mul_le_mul_of_nonneg_right hpart (by positivity)
      _ = ((m : ℚ) + 1) * 2 ^ e * (2 ^ 53 - 1) := by ring
      _ ≤ value c * (2 ^ 53 - 1) := mul_le_mul_of_nonneg_right hroom (by norm_num)
  have hscaled : value p * (2 ^ 53 - 1) ≤ value a * value c * (2 ^ 53 - 1) :=
    calc value p * (2 ^ 53 - 1) ≤ value a * (value b * 2 ^ 53) := by linarith
      _ ≤ value a * (value c * (2 ^ 53 - 1)) := mul_le_mul_of_nonneg_left hless hvalue
      _ = value a * value c * (2 ^ 53 - 1) := by ring
  exact le_of_mul_le_mul_right hscaled (by norm_num)

/-- One of the smallest products gains half a step, and half of what is left up to `c` makes up for it. -/
theorem product_le_of_small (hb : Upright b) (hc : Upright c) (hfinite : c.isInf = false)
    (hlt : b.compare c = some .lt) (hp : Nearest (value a * value b) p) (hpf : p.isInf = false)
    (hsmall : value p < 2 ^ (-1022 : ℤ)) (hhalf : 1 / 2 ≤ r) (hr : value a ≤ r) :
    value p ≤ r * value c := by
  obtain ⟨m, e, hbvalue, -, hleast, hroom⟩ := succ_value_le hb hc hfinite hlt
  have hgain := hp.gain_le_of_small hpf hsmall
  have hstep : (2 : ℚ) ^ (-1074 : ℤ) ≤ 2 ^ e := zpow_le_zpow_right₀ (by norm_num) hleast
  have hnonneg : 0 ≤ r := (by norm_num : (0 : ℚ) ≤ 1 / 2).trans hhalf
  calc value p ≤ value a * value b + 1 / 2 * 2 ^ (-1074 : ℤ) := by linarith
    _ ≤ r * value b + r * 2 ^ e :=
      add_le_add (mul_le_mul_of_nonneg_right hr (value_nonneg b))
        (mul_le_mul hhalf hstep (by positivity) hnonneg)
    _ = r * (((m : ℚ) + 1) * 2 ^ e) := by rw [hbvalue]; ring
    _ ≤ r * value c := mul_le_mul_of_nonneg_left hroom hnonneg

/-- With a half or more in place of its factor no finite product passes the exact one. -/
theorem product_le (hb : Upright b) (hc : Upright c) (hfinite : c.isInf = false)
    (hlt : b.compare c = some .lt) (hp : Nearest (value a * value b) p) (hpf : p.isInf = false)
    (hhalf : 1 / 2 ≤ r) (hr : value a ≤ r) : value p ≤ r * value c := by
  rcases le_or_gt (2 ^ (-1022 : ℤ)) (value p) with hnormal | hsmall
  · exact (product_le_of_normal hb hc hfinite hlt hp hpf hnormal).trans
      (mul_le_mul_of_nonneg_right hr (value_nonneg c))
  · exact product_le_of_small hb hc hfinite hlt hp hpf hsmall hhalf hr

end Products

/-! ### Quotients -/

theorem zero_le (h : Upright c) (s : Sign) : UnpackedFloat.le (.zero s) c = true := by
  cases h <;> rfl

/-- A quotient by what the dividend does not pass `a` times does not pass `a`. -/
theorem div_le_of_product (hp : Upright p) (hpf : p.isInf = false) (hc : Upright c)
    (hpos : ∀ s, c ≠ .zero s) (ha : Upright a) (haf : a.isInf = false)
    (hle : c.isInf = false → value p ≤ value a * value c) :
    Upright (Float.Model.pack (UnpackedFloat.div .binary64 p c)).unpack ∧
      (Float.Model.pack (UnpackedFloat.div .binary64 p c)).unpack.le a = true := by
  cases hcf : c.isInf with
  | true =>
    cases hc with
    | infinity =>
      obtain ⟨s, hs⟩ := div_infinity hpf hp.isNaN
      rw [hs, unpack_pack_zero]
      exact ⟨.zero s, zero_le ha s⟩
    | _ => cases hcf
  | false =>
    have hvalue := value_pos hc hcf hpos
    have hquotient := nearest_div hp hc hpf hcf hvalue
    exact ⟨hquotient.1,
      hquotient.mono (nearest_value ha haf) ((div_le_iff₀ hvalue).mpr (hle hcf))⟩

/-- Infinity by infinity is not a number, and by anything else it is infinity again. -/
theorem infinity_div (hc : Upright c) (hpos : ∀ s, c ≠ .zero s) :
    UnpackedFloat.div .binary64 (.infinity .positive) c =
      if c.isInf then .notANumber else .infinity .positive := by
  cases hc with
  | zero s => exact absurd rfl (hpos s)
  | _ => rfl

/-! ### Losses -/

/-- The smallest double that has all its bits. -/
def leastNormal : Float := .ofBits 0x0010000000000000

theorem value_leastNormal : value leastNormal.toModel.unpack = 2 ^ (-1022 : ℤ) := by
  show ((2 ^ 52 : ℕ) : ℚ) * 2 ^ (-1074 : ℤ) = 2 ^ (-1022 : ℤ)
  rw [show (-1022 : ℤ) = 52 + -1074 by norm_num, zpow_add₀ (by norm_num)]
  norm_num

theorem value_half : value (0.5 : Float).toModel.unpack = 1 / 2 := by
  show ((2 ^ 52 : ℕ) : ℚ) * 2 ^ (-53 : ℤ) = 1 / 2
  norm_num

/-- A loss that is a number from zero up to a bound. -/
structure LossWithin (bound loss : Float) : Prop where
  number : loss.isNaN = false
  least : 0.0 ≤ loss
  most : loss ≤ bound

namespace LinkModel

variable {initial : Shaping} {maxRange maxLoss : Float} {m : LinkModel} {d : Distance}

/-- The greatest loss times the distance is finite, and has all its bits or may do without them. -/
structure KeepsBits (maxLoss : Float) (d : Distance) : Prop where
  finite : (maxLoss * d.value).isInf = false
  bits : maxLoss * d.value ≤ 0.0 ∨ leastNormal ≤ maxLoss * d.value ∨ 0.5 ≤ maxLoss

namespace Proportional

variable (h : Proportional maxRange maxLoss d)

include h

theorem product : Nearest (value maxLoss.toModel.unpack * value d.parts)
    (maxLoss * d.value).toModel.unpack :=
  nearest_mul h.loss h.distance h.loss_finite h.distance_finite

/-- A loss keeps within a bound if the product does not pass the range that many times. -/
theorem lossWithin {bound : Float} (hfinite : (maxLoss * d.value).isInf = false)
    (hbound : Upright bound.toModel.unpack) (hboundf : bound.toModel.unpack.isInf = false)
    (hle : maxRange.toModel.unpack.isInf = false → value (maxLoss * d.value).toModel.unpack ≤
      value bound.toModel.unpack * value maxRange.toModel.unpack) :
    LossWithin bound (maxLoss * d.value / maxRange) := by
  obtain ⟨hupright, hmost⟩ := div_le_of_product h.product.1 hfinite h.range
    (ne_zero_of_pos h.positive) hbound hboundf hle
  exact ⟨hupright.isNaN, float_le_iff.mpr (zero_le hupright .positive), float_le_iff.mpr hmost⟩

/-- A loss whose product keeps its bits is within the greatest one. -/
theorem loss_of_keepsBits (hkeeps : KeepsBits maxLoss d) :
    LossWithin maxLoss (maxLoss * d.value / maxRange) := by
  obtain ⟨hfinite, hbits⟩ := hkeeps
  refine h.lossWithin hfinite h.loss h.loss_finite fun hlimit => ?_
  have hnear := float_lt_iff.mp h.near
  rcases hbits with hnone | hfull | hhalf
  · have hzero := value_le h.product.1 (.zero .positive) rfl (float_le_iff.mp hnone)
    exact hzero.trans (mul_nonneg (value_nonneg _) (value_nonneg _))
  · have hnormal := value_le (upright_unpack (by decide +kernel) (by decide +kernel)) h.product.1
      hfinite (float_le_iff.mp hfull)
    rw [value_leastNormal] at hnormal
    exact product_le_of_normal h.distance h.range hlimit hnear h.product hfinite hnormal
  · have hhalves := value_le (upright_unpack (by decide) (by decide)) h.loss h.loss_finite
      (float_le_iff.mp hhalf)
    rw [value_half] at hhalves
    exact product_le h.distance h.range hlimit hnear h.product hfinite hhalves le_rfl

/-- Half a percent is not exceeded for want of bits. -/
theorem loss_of_small (hfinite : (maxLoss * d.value).isInf = false) (hsmall : maxLoss < 0.5) :
    LossWithin 0.5 (maxLoss * d.value / maxRange) := by
  have hhalf : Upright (0.5 : Float).toModel.unpack := upright_unpack (by decide) (by decide)
  refine h.lossWithin hfinite hhalf (by decide) fun hlimit => ?_
  have hless := value_le h.loss hhalf (by decide) (float_le_iff.mp (float_le_of_lt hsmall))
  exact product_le h.distance h.range hlimit (float_lt_iff.mp h.near) h.product hfinite
    value_half.ge hless

theorem product_of_infinite (hinf : (maxLoss * d.value).isInf = true) :
    (maxLoss * d.value).toModel.unpack = .infinity .positive := by
  have hupright := h.product.1
  change (maxLoss * d.value).toModel.unpack.isInf = true at hinf
  generalize (maxLoss * d.value).toModel.unpack = p at hinf hupright
  cases hupright with
  | infinity => rfl
  | _ => cases hinf

/-- The loss of an infinite product is infinite or not a number. -/
theorem loss_of_infinite (hinf : (maxLoss * d.value).isInf = true) :
    (if maxRange.isInf then (maxLoss * d.value / maxRange).isNaN
      else (maxLoss * d.value / maxRange).isInf) = true ∧
      ¬ maxLoss * d.value / maxRange ≤ maxLoss := by
  have hquotient : (maxLoss * d.value / maxRange).toModel.unpack =
      (Float.Model.pack (if maxRange.isInf then .notANumber else .infinity .positive)).unpack := by
    show (Float.Model.pack (UnpackedFloat.div .binary64 _ _)).unpack = _
    rw [h.product_of_infinite hinf, infinity_div h.range (ne_zero_of_pos h.positive)]
    rfl
  rw [float_le_iff]
  show (if maxRange.isInf then (maxLoss * d.value / maxRange).toModel.unpack.isNaN
    else (maxLoss * d.value / maxRange).toModel.unpack.isInf) = true ∧ _
  rw [hquotient]
  cases hlimit : maxRange.isInf with
  | true => exact ⟨rfl, fun hle => by cases (isNaN_of_le hle).1⟩
  | false =>
    rw [if_neg Bool.false_ne_true, if_neg Bool.false_ne_true, unpack_pack_infinity]
    exact ⟨rfl, fun hle => absurd (isInf_of_le .infinity h.loss_finite hle) (by decide)⟩

end Proportional

/-- Within the range the loss is a number from zero up to the greatest one as long as the product of
the greatest loss and the distance keeps its bits.  It passes a greatest loss of less than half a
percent by no more than up to half a percent, unless the product is infinite.  Then the loss is infinite
as well, or not a number if the range is unlimited. -/
theorem linearLoss_within (h : build initial (.linearLoss maxRange maxLoss) = .ok m)
    (hd : (m.decide d).connected = true) :
    ∃ loss, (m.decide d).shaping = .loss loss ∧
      (KeepsBits maxLoss d → LossWithin maxLoss loss) ∧
      ((maxLoss * d.value).isInf = false → LossWithin maxLoss loss ∨
        maxLoss < 0.5 ∧ LossWithin 0.5 loss) ∧
      ((maxLoss * d.value).isInf = true →
        (if maxRange.isInf then loss.isNaN else loss.isInf) = true ∧ ¬ loss ≤ maxLoss) := by
  cases build_eq_ok_iff.mp h with
  | linearLoss hrange hloss =>
    obtain ⟨hnear, hshaping⟩ := shaping_linearLoss d hd
    have hparts := proportional_of_near hrange hloss hnear
    refine ⟨_, hshaping, hparts.loss_of_keepsBits, fun hfinite => ?_, hparts.loss_of_infinite⟩
    by_cases hsmall : maxLoss < 0.5
    · exact .inr ⟨hsmall, hparts.loss_of_small hfinite hsmall⟩
    · have hnumber := (float_isNaN_of_le hloss.1).2
      rw [float_lt_iff_not_le hnumber (by decide), not_not] at hsmall
      exact .inl (hparts.loss_of_keepsBits ⟨hfinite, .inr (.inr hsmall)⟩)

/-- Half way up to the range the loss is a number, and at most the greatest one. -/
theorem halfway_within :
    build .none (.linearLoss 100.0 50.0) = .ok (linearLoss 100.0 50.0 .none) ∧
      ((linearLoss 100.0 50.0 .none).decide ⟨50.0, by decide⟩).connected = true ∧
      ∃ loss, ((linearLoss 100.0 50.0 .none).decide ⟨50.0, by decide⟩).shaping = .loss loss ∧
        LossWithin 50.0 loss := by
  have hbuild : build .none (.linearLoss 100.0 50.0) = .ok (linearLoss 100.0 50.0 .none) := rfl
  obtain ⟨loss, hshaping, hkeeps, -, -⟩ := linearLoss_within (d := ⟨50.0, by decide⟩) hbuild rfl
  exact ⟨hbuild, rfl, loss, hshaping, hkeeps ⟨by decide, .inr (.inl (by decide +kernel))⟩⟩

/-- All losses within the range are numbers from zero up to a bound. -/
def KeepsLosses (m : LinkModel) (bound : Float) : Prop :=
  ∀ d, (m.decide d).connected = true →
    ∃ loss, (m.decide d).shaping = .loss loss ∧ LossWithin bound loss

theorem not_keepsLosses (hnear : ¬ d.value ≥ maxRange)
    (hpast : ¬ maxLoss * d.value / maxRange ≤ maxLoss) :
    ¬ (linearLoss maxRange maxLoss initial).KeepsLosses maxLoss := by
  intro hkeeps
  have hd : ((linearLoss maxRange maxLoss initial).decide d).connected = true := by
    simp only [linearLoss, if_neg hnear, LinkDecision.connected_up]
  obtain ⟨loss, hloss, hwithin⟩ := hkeeps d hd
  rw [(shaping_linearLoss d hd).2] at hloss
  cases hloss
  exact hpast hwithin.most

/-- A product that is too large has an infinite loss, or one that is not a number if the range is
unlimited, and one that is too small may have more than the greatest loss. -/
theorem loss_passes_bound :
    (build .none (.linearLoss 1.7e308 100.0) = .ok (linearLoss 1.7e308 100.0 .none) ∧
      ¬ (linearLoss 1.7e308 100.0 .none).KeepsLosses 100.0) ∧
    (build .none (.linearLoss (1.0 / 0.0) 100.0) = .ok (linearLoss (1.0 / 0.0) 100.0 .none) ∧
      ¬ (linearLoss (1.0 / 0.0) 100.0 .none).KeepsLosses 100.0) ∧
    (build .none (.linearLoss 1.5e-323 0.3) = .ok (linearLoss 1.5e-323 0.3 .none) ∧
      ¬ (linearLoss 1.5e-323 0.3 .none).KeepsLosses 0.3) := by
  refine ⟨⟨build_eq_ok_iff.mpr (.linearLoss ?_ ?_), not_keepsLosses (d := ⟨1e308, ?_⟩) ?_ ?_⟩,
    ⟨build_eq_ok_iff.mpr (.linearLoss ?_ ?_), not_keepsLosses (d := ⟨1e308, ?_⟩) ?_ ?_⟩,
    build_eq_ok_iff.mpr (.linearLoss ?_ ?_), not_keepsLosses (d := ⟨1e-323, ?_⟩) ?_ ?_⟩ <;>
    decide +kernel

end LinkModel

end ProximityNet
