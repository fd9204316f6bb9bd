import Mathlib
import ProximityNet.Proofs.Ranges

/-!
# The nearest double

A product or a quotient of doubles is cut to a mantissa with two more bits, which are enough to go to
the nearest double.  Here the cut is followed as a rational number, and the doubles that are not
negative are counted from zero on.  A larger number then never goes to a lower double, whether it is
lost among the smallest ones or taken for infinite.

* `Cuts`, `Cuts.shift` — what a mantissa and the two bits behind it say of a number;
* `Spaced` — how far the doubles around a number are apart;
* `height`, `le_iff_height` — doubles that are not negative compare as they are counted;
* `RoundsTo`, `RoundsTo.mono` — where the nearest double stands;
* `roundWithAccuracy_roundsTo` — rounding goes there;
* `Nearest`, `Nearest.mono`, `nearest_round` — the same of doubles that may be infinite.
-/

namespace ProximityNet

open Float.Model (Format UnpackedFloat totalExponent)
open Float.Model.UnpackedFloat

/-! ### Mantissas that are cut off -/

/-- What the two bits behind a mantissa say of the number it was cut from: that the rest is nothing,
less than a half, a half or more than a half. -/
def Cuts (em : ExtendedMantissa) (x : ℚ) : Prop :=
  match em.roundBit, em.stickyBit with
  | false, false => x = em.mantissa
  | false, true => em.mantissa < x ∧ x < em.mantissa + 1 / 2
  | true, false => x = em.mantissa + 1 / 2
  | true, true => em.mantissa + 1 / 2 < x ∧ x < em.mantissa + 1

variable {em em' : ExtendedMantissa} {x y : ℚ}

theorem roundedMantissa_bounds (em : ExtendedMantissa) :
    em.mantissa ≤ em.roundedMantissa ∧ em.roundedMantissa ≤ em.mantissa + 1 := by
  obtain ⟨m, r, s⟩ := em
  cases r <;> cases s <;>
    simp only [ExtendedMantissa.roundedMantissa, ExtendedMantissa.accuracy,
      Accuracy.roundToNearestEven] <;> omega

namespace Cuts

theorem bounds (h : Cuts em x) : em.mantissa ≤ x ∧ x < em.mantissa + 1 := by
  obtain ⟨m, r, s⟩ := em
  cases r <;> cases s <;> simp only [Cuts] at h ⊢ <;> constructor <;> linarith

/-- A mantissa that is reached is reached by the rounded one. -/
theorem le_roundedMantissa {n : ℕ} (h : Cuts em x) (hn : (n : ℚ) ≤ x) : n ≤ em.roundedMantissa := by
  have hlt : (n : ℚ) < em.mantissa + 1 := lt_of_le_of_lt hn h.bounds.2
  have hle : n ≤ em.mantissa := Nat.lt_succ_iff.mp (by exact_mod_cast hlt)
  exact hle.trans (roundedMantissa_bounds em).1

/-- A mantissa that is not reached is not passed by the rounded one. -/
theorem roundedMantissa_le {n : ℕ} (h : Cuts em x) (hn : x < n) : em.roundedMantissa ≤ n := by
  have hlt : (em.mantissa : ℚ) < n := lt_of_le_of_lt h.bounds.1 hn
  have hle : em.mantissa + 1 ≤ n := by exact_mod_cast hlt
  exact (roundedMantissa_bounds em).2.trans hle

/-- Of two numbers the larger one has no smaller rounded mantissa. -/
theorem mono (h : Cuts em x) (h' : Cuts em' y) (hle : x ≤ y) :
    em.roundedMantissa ≤ em'.roundedMantissa := by
  have hlt : (em.mantissa : ℚ) < em'.mantissa + 1 :=
    lt_of_le_of_lt (h.bounds.1.trans hle) h'.bounds.2
  have hm : em.mantissa ≤ em'.mantissa := Nat.lt_succ_iff.mp (by exact_mod_cast hlt)
  rcases hm.lt_or_eq with hless | hsame
  · have hup := (roundedMantissa_bounds em).2
    have hdown := (roundedMantissa_bounds em').1
    omega
  · -- cut at the same place, so the bits behind decide
    obtain ⟨m, r, s⟩ := em
    obtain ⟨m', r', s'⟩ := em'
    dsimp only at hsame
    subst hsame
    cases r <;> cases s <;> cases r' <;> cases s' <;>
      simp only [Cuts, ExtendedMantissa.roundedMantissa, ExtendedMantissa.accuracy,
        Accuracy.roundToNearestEven] at h h' ⊢ <;> first | omega | linarith

theorem half (h : Cuts em x) : Cuts em.shiftRightOne (x / 2) := by
  obtain ⟨m, r, s⟩ := em
  have hm : ((m % 2 : ℕ) : ℚ) + 2 * ((m / 2 : ℕ) : ℚ) = m := by exact_mod_cast Nat.mod_add_div m 2
  rcases Nat.mod_two_eq_zero_or_one m with hlast | hlast <;> rw [hlast] at hm <;>
    push_cast at hm <;> cases r <;> cases s <;>
    simp [Cuts, ExtendedMantissa.shiftRightOne, hlast] at h ⊢ <;>
    first
    | linarith
    | constructor <;> linarith

/-- Bits that are shifted out go on to say how the rest compares with a half. -/
theorem shift (h : Cuts em x) (n : ℕ) : Cuts (em >>> n) (x / 2 ^ n) := by
  change Cuts (n.repeat ExtendedMantissa.shiftRightOne em) _
  induction n with
  | zero => simpa [Nat.repeat] using h
  | succ n ih =>
    rw [pow_succ, ← div_div]
    exact ih.half

end Cuts

/-! ### The space between doubles -/

/-- The doubles around `x` are `2 ^ t` apart, and the one below `x` has all its bits unless it is one
of the smallest. -/
structure Spaced (t : ℤ) (x : ℚ) : Prop where
  least : -1074 ≤ t
  below : x < 2 ^ (t + 53)
  above : t = -1074 ∨ 2 ^ (t + 52) ≤ x

namespace Spaced

variable {t t' : ℤ}

theorem mono (h : Spaced t x) (h' : Spaced t' y) (hle : x ≤ y) : t ≤ t' := by
  by_contra hless
  rcases h.above with heq | habove
  · have hleast := h'.least
    omega
  · have hpow : (2 : ℚ) ^ (t' + 53) ≤ 2 ^ (t + 52) :=
      zpow_le_zpow_right₀ (by norm_num) (by omega)
    exact absurd (h'.below.trans_le (hpow.trans habove)) hle.not_gt

theorem scaled_lt (h : Spaced t x) : x / 2 ^ t < (2 ^ 53 : ℕ) := by
  have hbelow := h.below
  rw [zpow_add₀ (by norm_num)] at hbelow
  rw [div_lt_iff₀ (by positivity)]
  norm_num at hbelow ⊢
  linarith

theorem le_scaled (h : Spaced t x) (ht : t ≠ -1074) : (2 ^ 52 : ℕ) ≤ x / 2 ^ t := by
  have habove := h.above.resolve_left ht
  rw [zpow_add₀ (by norm_num)] at habove
  rw [le_div_iff₀ (by positivity)]
  norm_num at habove ⊢
  linarith

end Spaced

theorem targetExponent_eq (m : ℕ) (e : ℤ) :
    Format.binary64.targetExponent (totalExponent m e) = max (m.log2 + e - 52) (-1074) := by
  simp only [Format.targetExponent, totalExponent, Format.mantissaBits, Format.minExponent]
  norm_num
  omega

/-- The exponent that rounding aims at is that of the doubles around the number. -/
theorem spaced_targetExponent {m : ℕ} {e : ℤ} (hm : m ≤ x / 2 ^ e ∧ x / 2 ^ e < m + 1)
    (hbits : 2 ^ 52 ≤ m ∨ e ≤ -1074) :
    Spaced (Format.binary64.targetExponent (totalExponent m e)) x ∧
      e ≤ Format.binary64.targetExponent (totalExponent m e) := by
  rw [targetExponent_eq]
  have hlow := (le_div_iff₀ (by positivity)).mp hm.1
  have hhigh := (div_lt_iff₀ (by positivity)).mp hm.2
  have hlog : 2 ^ 52 ≤ m → 52 ≤ m.log2 := fun h => (Nat.le_log2 (by omega)).mpr h
  refine ⟨⟨le_max_right _ _, ?_, ?_⟩, by omega⟩
  · have hm' : (m : ℚ) + 1 ≤ 2 ^ (m.log2 + 1) := by
      exact_mod_cast (Nat.lt_log2_self : m < 2 ^ (m.log2 + 1))
    calc x < (m + 1) * 2 ^ e := hhigh
      _ ≤ 2 ^ (m.log2 + 1) * 2 ^ e := mul_le_mul_of_nonneg_right hm' (by positivity)
      _ = 2 ^ (((m.log2 + 1 : ℕ) : ℤ) + e) := by rw [zpow_add₀ (by norm_num), zpow_natCast]
      _ ≤ 2 ^ (max ((m.log2 : ℤ) + e - 52) (-1074) + 53) :=
        zpow_le_zpow_right₀ (by norm_num) (by omega)
  · by_cases hsmall : (m.log2 : ℤ) + e - 52 ≤ -1074
    · exact Or.inl (max_eq_right hsmall)
    · have hpos : m ≠ 0 := by
        rintro rfl
        simp only [Nat.log2_zero] at hsmall
        omega
      have hm' : (2 : ℚ) ^ m.log2 ≤ m := by exact_mod_cast Nat.log2_self_le hpos
      right
      calc (2 : ℚ) ^ (max ((m.log2 : ℤ) + e - 52) (-1074) + 52)
          = 2 ^ ((m.log2 : ℤ) + e) := by congr 1; omega
        _ = 2 ^ m.log2 * 2 ^ e := by rw [zpow_add₀ (by norm_num), zpow_natCast]
        _ ≤ m * 2 ^ e := mul_le_mul_of_nonneg_right hm' (by positivity)
        _ ≤ x := hlow

/-! ### Doubles counted from zero on -/

/-- A mantissa and an exponent as doubles have them, but that the exponent may be too large. -/
structure Fitting (m : ℕ) (e : ℤ) : Prop where
  bits : m < 2 ^ 53
  least : -1074 ≤ e
  normal : 2 ^ 52 ≤ m ∨ e = -1074

/-- What rounding makes of a number that is not negative. -/
inductive Aligned : UnpackedFloat → Prop
  | zero (s : Sign) : Aligned (.zero s)
  | finite {m : ℕ} {e : ℤ} (hm : 0 < m) (h : Fitting m e) : Aligned (.finite .positive m e hm)

/-- A double that is not negative, taken apart. -/
inductive Upright : UnpackedFloat → Prop
  | zero (s : Sign) : Upright (.zero s)
  | finite {m : ℕ} {e : ℤ} (hm : 0 < m) (h : Fitting m e) (hmost : e ≤ 971) :
    Upright (.finite .positive m e hm)
  | infinity : Upright (.infinity .positive)

/-- How many doubles lie between zero and a float, infinity being the one after the last. -/
def height : UnpackedFloat → ℤ
  | .finite _ m e _ => (e + 1074) * 2 ^ 52 + m
  | .infinity _ => 2047 * 2 ^ 52
  | .zero _ | .notANumber => 0

theorem height_finite {m : ℕ} {e : ℤ} {hm : 0 < m} {s : Sign} (h : Fitting m e) (hmost : e ≤ 971) :
    0 < height (.finite s m e hm) ∧ height (.finite s m e hm) < 2047 * 2 ^ 52 := by
  obtain ⟨hbits, hleast, hnormal⟩ := h
  simp only [height]
  omega

theorem isLE_iff_height {m m' : ℕ} {e e' : ℤ} (hm : 0 < m) (hm' : 0 < m') (s s' : Sign)
    (h : Fitting m e) (h' : Fitting m' e') :
    ((compare e e').then (compare m m')).isLE = true ↔
      height (.finite s m e hm) ≤ height (.finite s' m' e' hm') := by
  obtain ⟨hbits, hleast, hnormal⟩ := h
  obtain ⟨hbits', hleast', hnormal'⟩ := h'
  simp only [height]
  rcases lt_trichotomy e e' with hlt | rfl | hlt
  · rw [compare_lt_iff_lt.mpr hlt]
    simp
    omega
  · rw [Std.compare_eq_iff_eq.mpr rfl]
    simp [Std.isLE_compare]
  · rw [compare_gt_iff_gt.mpr hlt]
    simp
    omega

theorem le_iff_height {a b : UnpackedFloat} (ha : Upright a) (hb : Upright b) :
    a.le b = true ↔ height a ≤ height b := by
  cases ha with
  | zero s =>
    cases hb with
    | zero s' => exact iff_of_true rfl le_rfl
    | finite hm' h' hmost' => exact iff_of_true rfl (height_finite h' hmost').1.le
    | infinity => exact iff_of_true rfl (by decide : (0 : ℤ) ≤ 2047 * 2 ^ 52)
  | finite hm h hmost =>
    cases hb with
    | zero s' => exact iff_of_false Bool.false_ne_true (height_finite h hmost).1.not_ge
    | finite hm' h' hmost' => exact isLE_iff_height hm hm' .positive .positive h h'
    | infinity => exact iff_of_true rfl (height_finite h hmost).2.le
  | infinity =>
    cases hb with
    | zero s' => exact iff_of_false Bool.false_ne_true (by decide : ¬ (2047 * 2 ^ 52 : ℤ) ≤ 0)
    | finite hm' h' hmost' => exact iff_of_false Bool.false_ne_true (height_finite h' hmost').2.not_ge
    | infinity => exact iff_of_true rfl le_rfl

/-! ### Rounding -/

/-- The double nearest to `x` stands at this height. -/
def RoundsTo (x : ℚ) (h : ℤ) : Prop :=
  ∃ t em, Spaced t x ∧ Cuts em (x / 2 ^ t) ∧ h = (t + 1074) * 2 ^ 52 + em.roundedMantissa

theorem RoundsTo.mono {h h' : ℤ} (hx : RoundsTo x h) (hy : RoundsTo y h') (hle : x ≤ y) :
    h ≤ h' := by
  obtain ⟨t, em, hs, hc, rfl⟩ := hx
  obtain ⟨t', em', hs', hc', rfl⟩ := hy
  rcases (hs.mono hs' hle).lt_or_eq with hless | rfl
  · -- `x` rounds at most up to a power of two from which on the doubles are further apart
    have hfar : t' ≠ -1074 := by
      have hleast := hs.least
      omega
    have hup := hc.roundedMantissa_le hs.scaled_lt
    have hdown := hc'.le_roundedMantissa (hs'.le_scaled hfar)
    omega
  · have hmono := hc.mono hc' (div_le_div_of_nonneg_right hle (by positivity))
    omega

/-- An exact mantissa is shifted only when rounding has carried it over its last bit. -/
theorem shiftToTargetExponent_exact {m : ℕ} {e : ℤ} (hm : m ≤ 2 ^ 53) (he : -1074 ≤ e) :
    shiftToTargetExponent .binary64 m e .exact =
      if m = 2 ^ 53 then (⟨2 ^ 52, false, false⟩, e + 1) else (⟨m, false, false⟩, e) := by
  rw [shiftToTargetExponent, targetExponent_eq]
  split
  · rename_i hcarry
    subst hcarry
    have hone : (max ((Nat.log2 (2 ^ 53) : ℤ) + e - 52) (-1074) - e).toNat = 1 := by
      rw [Nat.log2_two_pow]
      omega
    rw [shiftToExponent, hone]
    rfl
  · rename_i hcarry
    have hlog : m.log2 ≤ 52 := by
      by_cases hzero : m = 0
      · simp [hzero]
      · have hlt := (Nat.log2_lt hzero).mpr (show m < 2 ^ 53 by omega)
        omega
    have hnone : (max ((m.log2 : ℤ) + e - 52) (-1074) - e).toNat = 0 := by omega
    rw [shiftToExponent, hnone]
    simp [ExtendedMantissa.ofMantissaAndAccuracy, HShiftRight.hShiftRight, Nat.repeat]

/-- Rounding goes to the nearest double, if there are bits enough or the exponent is small enough. -/
theorem roundWithAccuracy_roundsTo {m : ℕ} {e : ℤ} {acc : Accuracy}
    (h : Cuts (ExtendedMantissa.ofMantissaAndAccuracy m acc) (x / 2 ^ e))
    (hbits : 2 ^ 52 ≤ m ∨ e ≤ -1074) :
    Aligned (roundWithAccuracy .binary64 .positive m e acc) ∧
      RoundsTo x (height (roundWithAccuracy .binary64 .positive m e acc)) := by
  have hfirst : (ExtendedMantissa.ofMantissaAndAccuracy m acc).mantissa = m := by
    cases acc with
    | exact => rfl
    | inexact o => cases o <;> rfl
  have hm := h.bounds
  rw [hfirst] at hm
  obtain ⟨hspaced, hle⟩ := spaced_targetExponent hm hbits
  rw [roundWithAccuracy, shiftToTargetExponent, shiftToExponent]
  generalize Format.binary64.targetExponent (totalExponent m e) = t at hspaced hle
  have hshift : e + ((t - e).toNat : ℤ) = t := by omega
  have hcuts := h.shift (t - e).toNat
  rw [div_div, ← zpow_natCast, ← zpow_add₀ (by norm_num), hshift] at hcuts
  dsimp only
  rw [hshift]
  generalize ExtendedMantissa.ofMantissaAndAccuracy m acc >>> (t - e).toNat = em at hcuts
  have hup : em.roundedMantissa ≤ 2 ^ 53 := hcuts.roundedMantissa_le hspaced.scaled_lt
  have hdown : t ≠ -1074 → 2 ^ 52 ≤ em.roundedMantissa :=
    fun hfar => hcuts.le_roundedMantissa (hspaced.le_scaled hfar)
  have hrounds : RoundsTo x ((t + 1074) * 2 ^ 52 + em.roundedMantissa) :=
    ⟨t, em, hspaced, hcuts, rfl⟩
  rw [shiftToTargetExponent_exact hup hspaced.least]
  by_cases hcarry : em.roundedMantissa = 2 ^ 53
  · rw [if_pos hcarry]
    have hleast := hspaced.least
    have hheight : (t + 1 + 1074) * 2 ^ 52 + (2 ^ 52 : ℕ) =
        (t + 1074) * 2 ^ 52 + em.roundedMantissa := by omega
    rw [← hheight] at hrounds
    exact ⟨.finite _ ⟨by norm_num, by omega, Or.inl le_rfl⟩, hrounds⟩
  · rw [if_neg hcarry]
    dsimp only
    split
    · rename_i hzero
      have ht : t = -1074 := by
        by_contra hfar
        have hfull := hdown hfar
        omega
      rw [hzero, ht] at hrounds
      exact ⟨.zero _, hrounds⟩
    · exact ⟨.finite _ ⟨by omega, hspaced.least, or_iff_not_imp_right.mpr hdown⟩, hrounds⟩

/-! ### Packing -/

/-- The mantissa with its first bit, which is not packed. -/
theorem toNat_implicit (f : BitVec 52) : (1#1 ++ f).toNat = 2 ^ 52 + f.toNat := by
  rw [BitVec.toNat_append, ← Nat.shiftLeft_add_eq_or_of_lt f.isLt]
  simp [Nat.shiftLeft_eq]

theorem unpack_normal {b : ℕ} (f : BitVec 52) (hlow : 1 ≤ b) (hhigh : b ≤ 2046)
    (hpos : 0 < 2 ^ 52 + f.toNat) :
    UnpackedFloat.unpack .binary64 (packComponents .binary64 .positive (BitVec.ofNat 11 b) f) =
      .finite .positive (2 ^ 52 + f.toNat) (b - 1075) hpos := by
  have hzero : BitVec.ofNat 11 b ≠ 0#11 := by
    simp [← BitVec.toNat_inj]
    omega
  have hones : BitVec.ofNat 11 b ≠ -1#11 := by
    simp [← BitVec.toNat_inj]
    omega
  have hb : (BitVec.ofNat 11 b).toNat = b := by
    rw [BitVec.toNat_ofNat, Nat.mod_eq_of_lt (by omega)]
  rw [UnpackedFloat.unpack]
  simp only [unpackMantissa_packComponents, unpackExponent_packComponents,
    unpackSign_packComponents, if_neg hzero, if_neg hones, toNat_implicit]
  rw [hb]
  rfl

theorem unpack_subnormal {f : BitVec 52} (hpos : 0 < f.toNat) :
    UnpackedFloat.unpack .binary64 (packComponents .binary64 .positive 0#11 f) =
      .finite .positive f.toNat (-1074) hpos := by
  have hf : f ≠ 0#52 := by
    rintro rfl
    exact absurd hpos (by decide)
  rw [UnpackedFloat.unpack]
  simp only [unpackMantissa_packComponents, unpackExponent_packComponents,
    unpackSign_packComponents, dif_neg hf]
  rfl

@[simp] theorem unpack_pack_zero (s : Sign) : (Float.Model.pack (.zero s)).unpack = .zero s := by
  cases s <;> rfl

@[simp] theorem unpack_pack_infinity :
    (Float.Model.pack (.infinity .positive)).unpack = .infinity .positive := rfl

/-- What is rounded stays as it is when it is packed, unless it is too large for a double. -/
theorem unpack_pack_finite {m : ℕ} {e : ℤ} (hm : 0 < m) (h : Fitting m e) :
    (Float.Model.pack (.finite .positive m e hm)).unpack =
      if e ≤ 971 then .finite .positive m e hm else .infinity .positive := by
  obtain ⟨hbits, hleast, hnormal⟩ := h
  have hbias : (e + Format.binary64.exponentBias + (52 : ℕ)).toNat = (e + 1075).toNat := by
    simp [Format.exponentBias]
    omega
  have hwidth : Format.binary64.mantissaBits = 53 := rfl
  show UnpackedFloat.unpack .binary64 (UnpackedFloat.pack .binary64 (.finite .positive m e hm)) = _
  rw [UnpackedFloat.pack.eq_def]
  simp only [hbias]
  by_cases hmost : e ≤ 971
  · rw [if_pos hmost, if_neg (by show ¬ 2 ^ 11 ≤ _; omega)]
    have hlog : m.log2 < 53 := (Nat.log2_lt hm.ne').mpr hbits
    by_cases hfull : 2 ^ 52 ≤ m
    · have hfirst : 52 ≤ m.log2 := (Nat.le_log2 hm.ne').mpr hfull
      have hm' : 2 ^ 52 + (BitVec.ofNat 52 m).toNat = m := by
        rw [BitVec.toNat_ofNat]
        omega
      have hunpack := unpack_normal (b := (e + 1075).toNat) (BitVec.ofNat 52 m) (by omega)
        (by omega) (by omega)
      have he : (((e + 1075).toNat : ℕ) : ℤ) - 1075 = e := by omega
      simp only [hm', he] at hunpack
      rw [if_pos (by omega)]
      exact hunpack
    · have hfirst : m.log2 < 52 := (Nat.log2_lt hm.ne').mpr (by omega)
      have hm' : (BitVec.ofNat 52 m).toNat = m := by
        rw [BitVec.toNat_ofNat]
        omega
      have hunpack := unpack_subnormal (f := BitVec.ofNat 52 m) (by omega)
      simp only [hm'] at hunpack
      obtain rfl : e = -1074 := hnormal.resolve_left hfull
      rw [if_neg (by omega)]
      exact hunpack
  · rw [if_neg hmost, if_pos (by show 2 ^ 11 ≤ _; omega)]
    rfl

theorem unpack_finite {b : BitVec 64} {s : Sign} {m : ℕ} {e : ℤ} {hm : 0 < m}
    (h : UnpackedFloat.unpack .binary64 b = .finite s m e hm) : Fitting m e ∧ e ≤ 971 := by
  have hbias : Format.binary64.exponentBias = 1023 := rfl
  have hf : (@unpackMantissa .binary64 b).toNat < 2 ^ 52 := (@unpackMantissa .binary64 b).isLt
  have hx : (@unpackExponent .binary64 b).toNat < 2 ^ 11 := (@unpackExponent .binary64 b).isLt
  rw [UnpackedFloat.unpack] at h
  dsimp only at h
  generalize @unpackExponent .binary64 b = x at h hx
  split at h
  · split at h <;> cases h
  · rename_i hones
    have hx' : x.toNat ≠ 2047 := fun heq => hones (BitVec.eq_of_toNat_eq heq)
    split at h
    · rename_i hzero
      split at h
      · cases h
      · cases h
        rw [hzero]
        exact ⟨⟨by omega, by simp; omega, Or.inr (by simp; omega)⟩, by simp; omega⟩
    · rename_i hzero
      have hx0 : x.toNat ≠ 0 := fun heq => hzero (BitVec.eq_of_toNat_eq heq)
      injection h with _ hm' he
      rw [toNat_implicit] at hm'
      rw [hbias] at he
      exact ⟨⟨by omega, by omega, by omega⟩, by omega⟩

/-- A double that is a number and not negative comes apart upright. -/
theorem upright_unpack {x : Float} (hnan : x.isNaN = false) (hneg : ¬ x < 0.0) :
    Upright x.toModel.unpack := by
  rw [float_lt_iff, show (0.0 : Float).toModel.unpack = .zero .positive from rfl] at hneg
  change x.toModel.unpack.isNaN = false at hnan
  cases h : x.toModel.unpack with
  | notANumber =>
    rw [h] at hnan
    cases hnan
  | zero s => exact .zero s
  | infinity s =>
    cases s with
    | positive => exact .infinity
    | negative =>
      rw [h] at hneg
      exact absurd rfl hneg
  | finite s m e hm =>
    cases s with
    | positive =>
      obtain ⟨hfit, hmost⟩ := unpack_finite h
      exact .finite hm hfit hmost
    | negative =>
      rw [h] at hneg
      exact absurd rfl hneg

/-! ### The nearest double, or infinity -/

/-- A double that is nearest to `x`, or infinity in place of one that is too large. -/
def Nearest (x : ℚ) (u : UnpackedFloat) : Prop :=
  Upright u ∧ ∃ h, RoundsTo x h ∧ height u = min h (2047 * 2 ^ 52)

theorem Nearest.mono {u v : UnpackedFloat} (hu : Nearest x u) (hv : Nearest y v) (hle : x ≤ y) :
    u.le v = true := by
  obtain ⟨hup, h, hr, heq⟩ := hu
  obtain ⟨hup', h', hr', heq'⟩ := hv
  rw [le_iff_height hup hup', heq, heq']
  exact min_le_min_right _ (hr.mono hr' hle)

theorem nearest_pack {u : UnpackedFloat} (h : Aligned u) (hr : RoundsTo x (height u)) :
    Nearest x (Float.Model.pack u).unpack := by
  cases h with
  | zero s =>
    rw [unpack_pack_zero]
    exact ⟨.zero s, 0, hr, rfl⟩
  | finite hm h =>
    rw [unpack_pack_finite hm h]
    split
    · rename_i hmost
      exact ⟨.finite hm h hmost, _, hr, (min_eq_left (height_finite h hmost).2.le).symm⟩
    · obtain ⟨hbits, hleast, hnormal⟩ := h
      refine ⟨.infinity, _, hr, (min_eq_right ?_).symm⟩
      simp only [height]
      omega

theorem nearest_round {m : ℕ} {e : ℤ} {acc : Accuracy}
    (h : Cuts (ExtendedMantissa.ofMantissaAndAccuracy m acc) (x / 2 ^ e))
    (hbits : 2 ^ 52 ≤ m ∨ e ≤ -1074) :
    Nearest x (Float.Model.pack (roundWithAccuracy .binary64 .positive m e acc)).unpack := by
  obtain ⟨haligned, hrounds⟩ := roundWithAccuracy_roundsTo h hbits
  exact nearest_pack haligned hrounds

theorem nearest_zero (s : Sign) : Nearest 0 (Float.Model.pack (.zero s)).unpack := by
  refine nearest_pack (.zero s) ⟨-1074, ⟨0, false, false⟩, ?_, ?_, rfl⟩
  · exact ⟨le_rfl, by positivity, Or.inl rfl⟩
  · simp [Cuts]

end ProximityNet
