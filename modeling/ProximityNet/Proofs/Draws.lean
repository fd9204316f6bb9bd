import ProximityNet.Proofs.Sums
import ProximityNet.Proofs.Validation

/-!
# What is drawn at random

A draw stretches a fraction over a range.  The factor is found among the bit patterns from that of a
first guess downwards; patterns of doubles that are not negative go up with the doubles, so the factor is
as moderate as the guess.

* `Moderate` — finite and not negative;
* `upright_of_bits`, `bits_of_upright` — patterns of bits and the doubles that they stand for;
* `moderate_fraction`, `moderate_rangeScale` — the fraction and the factor;
* `longestSide`, `stretchable_iff` — which sides have places to draw;
* `longestStep`, `finite_span_iff` — which steps can be drawn;
* `RandomWalk.moderate_of_draw_side`, `RandomWalk.isNaN_of_draw_step` — what is drawn.
-/

namespace ProximityNet

open Float.Model (UnpackedFloat)
open Float.Model.UnpackedFloat

/-- A double that is finite and not negative. -/
structure Moderate (x : Float) : Prop where
  upright : Upright x.toModel.unpack
  finite : x.toModel.unpack.isInf = false

/-! ### Patterns of bits -/

section Bits

variable {b : BitVec 64}

theorem toNat_packComponents (s : Sign) (x : BitVec 11) (f : BitVec 52) :
    (packComponents .binary64 s x f).toNat =
      s.toBitVec.toNat * 2 ^ 63 + x.toNat * 2 ^ 52 + f.toNat := by
  show ((s.toBitVec ++ x) ++ f).toNat = _
  rw [BitVec.toNat_append, ← Nat.shiftLeft_add_eq_or_of_lt f.isLt, BitVec.toNat_append,
    ← Nat.shiftLeft_add_eq_or_of_lt x.isLt]
  simp only [Nat.shiftLeft_eq]
  omega

/-- Every pattern is put together of a sign, an exponent and a mantissa. -/
theorem exists_packComponents (b : BitVec 64) :
    ∃ (s : Sign) (x : BitVec 11) (f : BitVec 52), b = packComponents .binary64 s x f := by
  have hsign : (b.toNat / 2 ^ 63 = 0 ∨ b.toNat / 2 ^ 63 = 1) := by omega
  refine ⟨if b.toNat / 2 ^ 63 = 0 then .positive else .negative, .ofNat 11 (b.toNat / 2 ^ 52),
    .ofNat 52 b.toNat, BitVec.eq_of_toNat_eq ?_⟩
  rw [toNat_packComponents, BitVec.toNat_ofNat, BitVec.toNat_ofNat]
  rcases hsign with hsign | hsign <;> rw [hsign]
  · show _ = 0 * 2 ^ 63 + _ + _
    omega
  · show _ = 1 * 2 ^ 63 + _ + _
    omega

/-- A pattern without a sign is that of the double with as many doubles below it. -/
theorem upright_of_bits (h : b.toNat ≤ 2047 * 2 ^ 52) :
    Upright (UnpackedFloat.unpack .binary64 b) ∧
      height (UnpackedFloat.unpack .binary64 b) = b.toNat := by
  obtain ⟨s, x, f, rfl⟩ := exists_packComponents b
  rw [toNat_packComponents] at h ⊢
  cases s with
  | negative =>
    change 1 * 2 ^ 63 + _ + _ ≤ _ at h
    omega
  | positive =>
    change 0 * 2 ^ 63 + _ + _ ≤ _ at h
    by_cases hx : x = -1#11
    · subst hx
      change 0 * 2 ^ 63 + 2047 * 2 ^ 52 + _ ≤ _ at h
      obtain rfl : f = 0#52 := BitVec.eq_of_toNat_eq (show f.toNat = 0 by omega)
      exact ⟨.infinity, rfl⟩
    · obtain ⟨hupright, hheight⟩ := upright_packComponents hx f
      rw [hheight]
      exact ⟨hupright, by simp [Sign.toBitVec]⟩

/-- The pattern of a double that is finite and not negative has no sign, unless it is a zero. -/
theorem bits_of_upright (h : Upright (UnpackedFloat.unpack .binary64 b))
    (hfinite : (UnpackedFloat.unpack .binary64 b).isInf = false) :
    b.toNat < 2047 * 2 ^ 52 ∨ b.toNat = 2 ^ 63 := by
  obtain ⟨s, x, f, rfl⟩ := exists_packComponents b
  have hx : x ≠ -1#11 := by
    rintro rfl
    have hspecial : UnpackedFloat.unpack .binary64 (packComponents .binary64 s (-1#11) f) =
        if f = 0#52 then .infinity (.ofBitVec s.toBitVec) else .notANumber := by
      rw [UnpackedFloat.unpack]
      simp only [unpackMantissa_packComponents, unpackExponent_packComponents,
        unpackSign_packComponents, if_pos]
    rw [hspecial] at h hfinite
    split at h
    · rename_i hf
      rw [if_pos hf] at hfinite
      cases hfinite
    · cases h
  have hx' : x.toNat ≠ 2047 := fun heq => hx (BitVec.eq_of_toNat_eq heq)
  rw [toNat_packComponents]
  cases s with
  | positive =>
    left
    show 0 * 2 ^ 63 + _ + _ < _
    omega
  | negative =>
    -- what stands below the zeros is not upright
    right
    obtain ⟨hupright, hheight⟩ := upright_packComponents hx f
    rw [show Sign.negative = -Sign.positive from rfl, unpack_packComponents_neg] at h
    generalize UnpackedFloat.unpack .binary64 (packComponents .binary64 .positive x f) = u
      at h hupright hheight
    cases hupright with
    | finite hm hfit hmost => cases h
    | infinity => cases h
    | zero s =>
      change (0 : ℤ) = _ at hheight
      show 1 * 2 ^ 63 + _ + _ = _
      omega

end Bits

theorem upright_ofBits {b : UInt64} (h : b.toNat ≤ 2047 * 2 ^ 52) :
    Upright (Float.ofBits b).toModel.unpack ∧
      height (Float.ofBits b).toModel.unpack = b.toNat := by
  have hbits := upright_of_bits (b := b.toBitVec) h
  have hunpack : (Float.ofBits b).toModel.unpack = UnpackedFloat.unpack .binary64 b.toBitVec :=
    unpack_pack_upright hbits.1
  rw [hunpack]
  exact hbits

theorem moderate_ofBits {b : UInt64} (h : b.toNat < 2047 * 2 ^ 52) : Moderate (Float.ofBits b) := by
  obtain ⟨hupright, hheight⟩ := upright_ofBits h.le
  refine ⟨hupright, ?_⟩
  by_contra hinf
  rw [hupright.eq_infinity (by simpa using hinf)] at hheight
  change (2047 * 2 ^ 52 : ℤ) = _ at hheight
  omega

/-! ### The fraction -/

/-- Mantissas at one exponent are subtracted from each other. -/
theorem sub_finite {m n : ℕ} {e : ℤ} (hm : 0 < m) (hn : 0 < n) :
    UnpackedFloat.sub .binary64 (.finite .positive m e hm) (.finite .positive n e hn) =
      UnpackedFloat.normalize .binary64 (m - n) e .positive := by
  simp [UnpackedFloat.sub, decreaseExponent, Sign.apply]

theorem unpack_one : (1.0 : Float).toModel.unpack = .finite .positive (2 ^ 52) (-52) (by decide) :=
  rfl

/-- A fraction is one of `2 ^ 52` in equal steps from zero on. -/
theorem nearest_fraction (w : UInt64) :
    Nearest ((w.toNat / 2 ^ 12 : ℕ) * 2 ^ (-52 : ℤ)) (fractionOfWord w).toModel.unpack := by
  have hw := w.toNat_lt
  have hless : w.toNat / 2 ^ 12 < 2 ^ 52 := by omega
  generalize hr : w.toNat / 2 ^ 12 = r at hless
  -- above one the doubles go up in these steps
  have hbits : ((w >>> 12) ||| 0x3FF0000000000000).toNat = 1023 * 2 ^ 52 + r := by
    rw [UInt64.toNat_or, UInt64.toNat_shiftRight, Nat.or_comm]
    show 1023 <<< 52 ||| w.toNat >>> 12 = _
    rw [Nat.shiftRight_eq_div_pow, hr, ← Nat.shiftLeft_add_eq_or_of_lt hless, Nat.shiftLeft_eq]
  obtain ⟨hupright, hheight⟩ := upright_ofBits (b := (w >>> 12) ||| 0x3FF0000000000000) (by omega)
  rw [hbits] at hheight
  have hunpack : (fractionOfWord w).toModel.unpack = (Float.Model.pack (UnpackedFloat.sub .binary64
      (Float.ofBits ((w >>> 12) ||| 0x3FF0000000000000)).toModel.unpack
      (1.0 : Float).toModel.unpack)).unpack := rfl
  rw [hunpack, unpack_one]
  generalize (Float.ofBits ((w >>> 12) ||| 0x3FF0000000000000)).toModel.unpack = u
    at hupright hheight
  cases hupright with
  | zero s =>
    change (0 : ℤ) = _ at hheight
    omega
  | infinity =>
    change (2047 * 2 ^ 52 : ℤ) = _ at hheight
    omega
  | @finite m e hm hfit hmost =>
    obtain ⟨hmost', hleast, hnormal⟩ := hfit
    change (e + 1074) * 2 ^ 52 + (m : ℤ) = _ at hheight
    obtain rfl : e = -52 := by omega
    have hrest : (m : ℤ) - (2 ^ 52 : ℕ) = r := by omega
    have hnearest := nearest_normalize (Int.natCast_nonneg r) (-52)
    rw [Int.cast_natCast] at hnearest
    rw [sub_finite, hrest]
    exact hnearest

theorem value_one : value (1.0 : Float).toModel.unpack = 1 := by
  rw [unpack_one]
  show ((2 ^ 52 : ℕ) : ℚ) * 2 ^ (-52 : ℤ) = 1
  norm_num

theorem moderate_one : Moderate 1.0 := ⟨upright_unpack (by decide) (by decide), by decide⟩

/-- What does not pass something moderate is moderate. -/
theorem Moderate.of_nearest {x y : Float} {r : ℚ} (hy : Moderate y)
    (h : Nearest r x.toModel.unpack) (hr : r ≤ value y.toModel.unpack) : Moderate x ∧ x ≤ y := by
  have hle := h.mono (nearest_value hy.upright hy.finite) hr
  exact ⟨⟨h.1, isInf_of_le h.1 hy.finite hle⟩, float_le_iff.mpr hle⟩

theorem moderate_fraction (w : UInt64) : Moderate (fractionOfWord w) ∧ fractionOfWord w ≤ 1.0 := by
  refine moderate_one.of_nearest (nearest_fraction w) ?_
  have hw := w.toNat_lt
  have hless : w.toNat / 2 ^ 12 ≤ 2 ^ 52 := by omega
  have hless' : ((w.toNat / 2 ^ 12 : ℕ) : ℚ) ≤ 2 ^ 52 := by exact_mod_cast hless
  calc ((w.toNat / 2 ^ 12 : ℕ) : ℚ) * 2 ^ (-52 : ℤ) ≤ 2 ^ 52 * 2 ^ (-52 : ℤ) :=
        mul_le_mul_of_nonneg_right hless' (by positivity)
    _ = 1 := by norm_num
    _ = value (1.0 : Float).toModel.unpack := value_one.symm

/-- A fraction of something moderate is moderate. -/
theorem moderate_stretched (w : UInt64) {scale : Float} (h : Moderate scale) :
    Moderate (fractionOfWord w * scale) := by
  obtain ⟨hfraction, hle⟩ := moderate_fraction w
  have hone : value (fractionOfWord w).toModel.unpack ≤ 1 :=
    (value_le hfraction.upright moderate_one.upright moderate_one.finite
      (float_le_iff.mp hle)).trans_eq value_one
  have hproduct : Nearest _ (fractionOfWord w * scale).toModel.unpack :=
    nearest_mul hfraction.upright h.upright hfraction.finite h.finite
  exact (h.of_nearest hproduct (mul_le_of_le_one_left (value_nonneg _) hone)).1

/-! ### The factor -/

theorem moderate_zero : Moderate 0.0 := ⟨.zero .positive, rfl⟩

theorem moderate_fitScale (low high : Float) {bits : ℕ} (h : bits < 2047 * 2 ^ 52) :
    Moderate (fitScale low high bits) := by
  induction bits with
  | zero => exact moderate_zero
  | succ bits ih =>
    rw [fitScale]
    split
    · exact ih (by omega)
    · refine moderate_ofBits ?_
      rw [UInt64.toNat_ofNat', Nat.mod_eq_of_lt (by omega)]
      exact h

/-- Adding a zero makes no difference to a comparison. -/
theorem compare_zero_add (s : Sign) (x : Float) (u : UnpackedFloat) :
    u.compare (Float.Model.pack (UnpackedFloat.add .binary64 (.zero s) x.toModel.unpack)).unpack =
      u.compare x.toModel.unpack := by
  cases h : x.toModel.unpack with
  | zero s' =>
    have hsum : ∃ t, UnpackedFloat.add .binary64 (.zero s) (.zero s') = .zero t := by
      cases s <;> cases s' <;> exact ⟨_, rfl⟩
    obtain ⟨t, ht⟩ := hsum
    rw [ht, unpack_pack_zero]
    exact (compare_zero t s' u).2
  | _ =>
    have hunpack := unpack_pack_unpack x
    rw [h] at hunpack
    exact congrArg u.compare hunpack

/-- A guess that is the zero with a sign is taken as it is. -/
theorem moderate_fitScale_sign {low high : Float} (h : low ≤ high) :
    Moderate (fitScale low high (2 ^ 63)) := by
  have hzero : (Float.ofBits (UInt64.ofNat (2 ^ 63)) * topFraction).toModel.unpack =
      .zero .negative := rfl
  have hinside : ¬ Float.ofBits (UInt64.ofNat (2 ^ 63)) * topFraction + low > high := by
    intro hpast
    refine float_not_lt_of_le h (float_lt_iff.mpr ?_)
    rw [← compare_zero_add .negative low, ← hzero]
    exact float_lt_iff.mp hpast
  have hguess : fitScale low high (2 ^ 63) = Float.ofBits (UInt64.ofNat (2 ^ 63)) := by
    show fitScale low high ((2 ^ 63 - 1) + 1) = _
    rw [fitScale]
    exact if_neg hinside
  rw [hguess]
  exact ⟨upright_unpack (by decide) (by decide), by decide⟩

theorem moderate_top : Moderate topFraction :=
  ⟨upright_unpack (by decide +kernel) (by decide +kernel), by decide +kernel⟩

theorem topFraction_ne_zero (s : Sign) : topFraction.toModel.unpack ≠ .zero s :=
  ne_zero_of_pos (by decide +kernel) s

theorem Climbs.div_top {f : UnpackedFloat → UnpackedFloat} (hf : Climbs f) : Climbs fun a =>
    (Float.Model.pack (UnpackedFloat.div .binary64 (f a) topFraction.toModel.unpack)).unpack :=
  hf.div moderate_top.upright moderate_top.finite topFraction_ne_zero

theorem Upright.isFinite_iff {u : UnpackedFloat} (h : Upright u) :
    u.isFinite = true ↔ u.isInf = false := by
  cases h <;> simp [UnpackedFloat.isFinite, UnpackedFloat.isInf]

/-- What is known of a range for which there is a factor. -/
theorem of_rangeScale {low high scale : Float} (h : rangeScale low high = .ok scale) :
    low ≤ high ∧ ((high - low) / topFraction).isFinite = true ∧
      scale = fitScale low high ((high - low) / topFraction).toBits.toNat := by
  rw [rangeScale] at h
  dsimp only at h
  split at h
  · rename_i hle
    split at h
    · rename_i hfinite
      exact ⟨hle, hfinite, (Except.ok.inj h).symm⟩
    · cases h
  · cases h

theorem moderate_rangeScale {low high scale : Float} (hlength : Upright (high - low).toModel.unpack)
    (h : rangeScale low high = .ok scale) : Moderate scale := by
  obtain ⟨hle, hfinite, rfl⟩ := of_rangeScale h
  have hguess : Upright ((high - low) / topFraction).toModel.unpack :=
    Climbs.id.div_top.upright hlength
  rcases bits_of_upright hguess (hguess.isFinite_iff.mp hfinite) with hbits | hbits
  · exact moderate_fitScale low high hbits
  · rw [show ((high - low) / topFraction).toBits.toNat = 2 ^ 63 from hbits]
    exact moderate_fitScale_sign hle

/-! ### What can be drawn -/

/-- The longest side of an area of which places can be drawn. -/
def longestSide : Float := .ofBits 0x7FEFFFFFFFFFFFFD

/-- The longest step that can be drawn in both directions. -/
def longestStep : Float := .ofBits 0x7FDFFFFFFFFFFFFD

/-- The length of a side as it is worked out. -/
theorem unpack_sub_zero (side : Float) : (side - 0.0).toModel.unpack =
    (Float.Model.pack (UnpackedFloat.add .binary64 side.toModel.unpack (.zero .negative))).unpack := by
  show (Float.Model.pack (UnpackedFloat.sub .binary64 side.toModel.unpack (.zero .positive))).unpack = _
  rw [sub_eq_add_neg_unpacked]
  rfl

/-- The length of the range of a step is twice the longest step. -/
theorem unpack_sub_neg (step : Float) : (step - -step).toModel.unpack =
    (Float.Model.pack (UnpackedFloat.add .binary64 step.toModel.unpack step.toModel.unpack)).unpack := by
  show (Float.Model.pack (UnpackedFloat.sub .binary64 step.toModel.unpack (-step).toModel.unpack)).unpack
    = _
  rw [sub_eq_add_neg_unpacked, unpack_neg, neg_neg_unpacked]

theorem climbs_side : Climbs fun a =>
    (Float.Model.pack (UnpackedFloat.add .binary64 a (.zero .negative))).unpack :=
  Climbs.id.add (.const (.zero .negative))

theorem climbs_step : Climbs fun a => (Float.Model.pack (UnpackedFloat.add .binary64 a a)).unpack :=
  Climbs.id.add .id

/-- Of two patterns in a row the first is that of the last double where something is finite, if it is
not where the second one is. -/
theorem Climbs.isFinite_iff {f : UnpackedFloat → UnpackedFloat} (hf : Climbs f) {b c : UInt64}
    (hnext : c.toNat = b.toNat + 1) (hmost : c.toNat ≤ 2047 * 2 ^ 52)
    (hlow : (f (Float.ofBits b).toModel.unpack).isInf = false)
    (hhigh : (f (Float.ofBits c).toModel.unpack).isInf = true) {a : UnpackedFloat}
    (ha : Upright a) :
    (f a).isFinite = true ↔ a.le (Float.ofBits b).toModel.unpack = true := by
  obtain ⟨hb, hbheight⟩ := upright_ofBits (b := b) (by omega)
  obtain ⟨hc, hcheight⟩ := upright_ofBits hmost
  rw [(hf.upright ha).isFinite_iff]
  exact hf.isInf_iff hb hc (by omega) hlow hhigh ha

/-- Places can be drawn of sides up to the longest one. -/
theorem stretchable_iff {side : Float} (h : Upright side.toModel.unpack) :
    Stretchable side ↔ side ≤ longestSide := by
  rw [Stretchable, float_le_iff]
  show (Float.Model.pack (UnpackedFloat.div .binary64 (side - 0.0).toModel.unpack
    topFraction.toModel.unpack)).unpack.isFinite = true ↔ _
  rw [unpack_sub_zero]
  exact climbs_side.div_top.isFinite_iff (c := 0x7FEFFFFFFFFFFFFE) (by decide) (by decide)
    (by decide +kernel) (by decide +kernel) h

/-- Steps can be drawn up to the longest one. -/
theorem finite_span_iff {step : Float} (h : Upright step.toModel.unpack) :
    ((step - -step) / topFraction).isFinite = true ↔ step ≤ longestStep := by
  rw [float_le_iff]
  show (Float.Model.pack (UnpackedFloat.div .binary64 (step - -step).toModel.unpack
    topFraction.toModel.unpack)).unpack.isFinite = true ↔ _
  rw [unpack_sub_neg]
  exact climbs_step.div_top.isFinite_iff (c := 0x7FDFFFFFFFFFFFFE) (by decide) (by decide)
    (by decide +kernel) (by decide +kernel) h

/-- A range from the opposite of a number on is not empty exactly if the number is not negative. -/
theorem neg_le_self_iff {step : Float} : -step ≤ step ↔ Upright step.toModel.unpack := by
  rw [float_le_iff, unpack_neg]
  constructor
  · intro hle
    refine upright_unpack (isNaN_of_le hle).2 fun hneg => ?_
    rw [float_lt_iff] at hneg
    generalize step.toModel.unpack = u at hle hneg
    cases u with
    | infinity s =>
      cases s with
      | negative => cases hle
      | positive => cases hneg
    | finite s =>
      cases s with
      | negative => cases hle
      | positive => cases hneg
    | _ => cases hneg
  · intro h
    generalize step.toModel.unpack = u at h
    cases h <;> rfl

/-! ### What is drawn -/

namespace RandomWalk

variable {g g' : Generator} {low high side step x : Float}

/-- A number that is drawn is a fraction stretched over its range. -/
theorem exists_of_draw (h : draw g low high = .ok (x, g')) :
    ∃ w scale, rangeScale low high = .ok scale ∧ x = fractionOfWord w * scale + low := by
  have hbetween := eq_ok_of_mapError h
  rw [Generator.between] at hbetween
  split at hbetween
  · rename_i scale hscale
    obtain ⟨rfl, -⟩ := Prod.mk.inj (Except.ok.inj hbetween)
    exact ⟨_, scale, hscale, rfl⟩
  · cases hbetween

/-- Only of a moderate side places are drawn, and they are moderate. -/
theorem moderate_of_draw_side (h : draw g 0.0 side = .ok (x, g')) : Moderate side ∧ Moderate x := by
  obtain ⟨w, scale, hscale, rfl⟩ := exists_of_draw h
  obtain ⟨hle, hfinite, -⟩ := of_rangeScale hscale
  have hside : Upright side.toModel.unpack :=
    upright_unpack (float_isNaN_of_le hle).2 (float_not_lt_of_le hle)
  have hlength : Upright (side - 0.0).toModel.unpack := by
    rw [unpack_sub_zero]
    exact climbs_side.upright hside
  have hlongest : side ≤ longestSide := (stretchable_iff hside).mp hfinite
  have hoffset := moderate_stretched w (moderate_rangeScale hlength hscale)
  have hsum : Nearest _ (fractionOfWord w * scale + 0.0).toModel.unpack :=
    nearest_add hoffset.upright moderate_zero.upright hoffset.finite moderate_zero.finite
  refine ⟨⟨hside, isInf_of_le hside (by decide +kernel) (float_le_iff.mp hlongest)⟩, ?_⟩
  exact (hoffset.of_nearest hsum (add_zero _).le).1

/-- What is drawn for a step is a number. -/
theorem isNaN_of_draw_step (h : draw g (-step) step = .ok (x, g')) : x.isNaN = false := by
  obtain ⟨w, scale, hscale, rfl⟩ := exists_of_draw h
  obtain ⟨hle, -, -⟩ := of_rangeScale hscale
  have hlength : Upright (step - -step).toModel.unpack := by
    rw [unpack_sub_neg]
    exact climbs_step.upright (neg_le_self_iff.mp hle)
  have hoffset := moderate_stretched w (moderate_rangeScale hlength hscale)
  exact isNaN_pack (isNaN_add (hoffset.upright.isFinite_iff.mpr hoffset.finite)
    (float_isNaN_of_le hle).1)

end RandomWalk

end ProximityNet
