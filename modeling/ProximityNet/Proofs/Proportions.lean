import Mathlib.Tactic.FieldSimp
import ProximityNet.Proofs.Nearest

/-!
# Products and quotients in order

A product or a quotient of doubles that are not negative is the double nearest to the exact one, so
it never gets smaller when a factor or the dividend gets larger.

* `value`, `value_le` — the number that a double stands for;
* `Fitting.add_le` — how far two doubles are apart at least;
* `nearest_mul`, `nearest_div` — products and quotients are the nearest doubles;
* `float_mul_le`, `float_div_not_lt` — they keep the order.
-/

namespace ProximityNet

open Float.Model (Format UnpackedFloat totalExponent)
open Float.Model.UnpackedFloat

/-! ### Values -/

/-- The number that a float stands for, if it is finite and not negative. -/
def value : UnpackedFloat → ℚ
  | .finite _ m e _ => m * 2 ^ e
  | _ => 0

section Values

variable {a b : UnpackedFloat}

theorem value_nonneg (a : UnpackedFloat) : 0 ≤ value a := by
  cases a with
  | finite s m e hm =>
    simp only [value]
    positivity
  | _ => exact le_rfl

theorem value_pos (h : Upright a) (hfinite : a.isInf = false) (hpos : ∀ s, a ≠ .zero s) :
    0 < value a := by
  cases h with
  | infinity => cases hfinite
  | zero s => exact absurd rfl (hpos s)
  | finite hm hfit hmost =>
    simp only [value]
    positivity

/-- A finite double has a mantissa and an exponent that say what it is and where it stands. -/
theorem Upright.exists_fitting (h : Upright a) (hfinite : a.isInf = false) :
    ∃ (m : ℕ) (e : ℤ), Fitting m e ∧ e ≤ 971 ∧ value a = m * 2 ^ e ∧
      height a = (e + 1074) * 2 ^ 52 + m := by
  cases h with
  | infinity => cases hfinite
  | zero s => exact ⟨0, -1074, ⟨by norm_num, le_rfl, .inr rfl⟩, by norm_num, by simp [value], rfl⟩
  | @finite m e hm hfit hmost => exact ⟨m, e, hfit, hmost, rfl, rfl⟩

/-- What stands lower is a smaller number, by its last bit at least if it does not stand at the same
place. -/
theorem Fitting.add_le {m m' k : ℕ} {e e' : ℤ} (h : Fitting m e) (h' : Fitting m' e') (hk : k ≤ 1)
    (hle : (e + 1074) * 2 ^ 52 + m + k ≤ (e' + 1074) * 2 ^ 52 + m') :
    ((m : ℚ) + k) * 2 ^ e ≤ m' * 2 ^ e' := by
  obtain ⟨hbits, hleast, hnormal⟩ := h
  obtain ⟨hbits', hleast', hnormal'⟩ := h'
  rcases lt_or_ge e e' with hless | hge
  · -- the higher one has all its bits, and each is worth twice as much at least
    have hm53 : (m : ℚ) + k ≤ 2 ^ (53 : ℤ) := by exact_mod_cast (show m + k ≤ 2 ^ 53 by omega)
    have hm52 : (2 : ℚ) ^ (52 : ℤ) ≤ m' := by exact_mod_cast (show 2 ^ 52 ≤ m' by omega)
    calc ((m : ℚ) + k) * 2 ^ e ≤ 2 ^ (53 : ℤ) * 2 ^ e :=
          mul_le_mul_of_nonneg_right hm53 (by positivity)
      _ = 2 ^ (53 + e) := (zpow_add₀ (by norm_num) _ _).symm
      _ ≤ 2 ^ (52 + e') := zpow_le_zpow_right₀ (by norm_num) (by omega)
      _ = 2 ^ (52 : ℤ) * 2 ^ e' := zpow_add₀ (by norm_num) _ _
      _ ≤ m' * 2 ^ e' := mul_le_mul_of_nonneg_right hm52 (by positivity)
  · obtain rfl : e = e' := by omega
    have hmantissa : (m : ℚ) + k ≤ m' := by exact_mod_cast (show m + k ≤ m' by omega)
    exact mul_le_mul_of_nonneg_right hmantissa (by positivity)

theorem isInf_of_le (ha : Upright a) (hb : b.isInf = false) (hle : a.le b = true) :
    a.isInf = false := by
  cases ha with
  | infinity =>
    cases b with
    | infinity => cases hb
    | _ => cases hle
  | _ => rfl

theorem value_le (ha : Upright a) (hb : Upright b) (hfinite : b.isInf = false)
    (hle : a.le b = true) : value a ≤ value b := by
  obtain ⟨m, e, hfit, -, hvalue, hheight⟩ := ha.exists_fitting (isInf_of_le ha hfinite hle)
  obtain ⟨m', e', hfit', -, hvalue', hheight'⟩ := hb.exists_fitting hfinite
  rw [le_iff_height ha hb, hheight, hheight'] at hle
  have hadd := hfit.add_le (k := 0) hfit' (Nat.zero_le 1) (by rwa [Nat.cast_zero, add_zero])
  rwa [Nat.cast_zero, add_zero, ← hvalue, ← hvalue'] at hadd

end Values

/-! ### Products -/

theorem nearest_mul {a b : UnpackedFloat} (ha : Upright a) (hb : Upright b)
    (hfa : a.isInf = false) (hfb : b.isInf = false) :
    Nearest (value a * value b) (Float.Model.pack (UnpackedFloat.mul .binary64 a b)).unpack := by
  cases ha with
  | infinity => cases hfa
  | zero s =>
    have hzero : value (.zero s) * value b = 0 := zero_mul _
    rw [hzero]
    cases hb with
    | infinity => cases hfb
    | _ => exact nearest_zero _
  | @finite m e hm h hmost =>
    cases hb with
    | infinity => cases hfb
    | zero s' =>
      have hzero : value (.finite .positive m e hm) * value (.zero s') = 0 := mul_zero _
      rw [hzero]
      exact nearest_zero _
    | @finite m' e' hm' h' hmost' =>
      obtain ⟨hbits, hleast, hnormal⟩ := h
      obtain ⟨hbits', hleast', hnormal'⟩ := h'
      refine nearest_round ?_ ?_
      · have hexact : value (.finite .positive m e hm) * value (.finite .positive m' e' hm') /
            2 ^ (e + e') = (m * m' : ℕ) := by
          simp only [value]
          rw [zpow_add₀ (by norm_num), mul_mul_mul_comm, mul_div_assoc, div_self (by positivity)]
          push_cast
          exact mul_one _
        exact hexact
      · have hle : m ≤ m * m' := Nat.le_mul_of_pos_right m hm'
        have hle' : m' ≤ m * m' := Nat.le_mul_of_pos_left m' hm
        omega

/-! ### Quotients -/

/-- The rest of a division says where the quotient lies beyond its whole part. -/
theorem cuts_accuracyOfFraction (q : ℕ) {num den : ℕ} (h : num < den) :
    Cuts (ExtendedMantissa.ofMantissaAndAccuracy q (accuracyOfFraction num den))
      (q + (num : ℚ) / den) := by
  have hden : (0 : ℚ) < den := by exact_mod_cast (Nat.zero_le num).trans_lt h
  have hone : (num : ℚ) / den < 1 := (div_lt_one hden).mpr (by exact_mod_cast h)
  rw [accuracyOfFraction]
  split
  · rename_i hzero
    simp [Cuts, ExtendedMantissa.ofMantissaAndAccuracy, hzero]
  · rename_i hnonzero
    have hpos : (0 : ℚ) < (num : ℚ) / den :=
      div_pos (by exact_mod_cast Nat.pos_of_ne_zero hnonzero) hden
    rcases lt_trichotomy (2 * num) den with hless | hhalf | hmore
    · have hlt : (num : ℚ) / den < 1 / 2 := by
        rw [div_lt_div_iff₀ hden (by norm_num)]
        exact_mod_cast (show num * 2 < 1 * den by omega)
      rw [compare_lt_iff_lt.mpr hless]
      exact ⟨lt_add_of_pos_right _ hpos, (add_lt_add_iff_left _).mpr hlt⟩
    · have heq : (num : ℚ) / den = 1 / 2 := by
        rw [div_eq_div_iff hden.ne' (by norm_num)]
        exact_mod_cast (show num * 2 = 1 * den by omega)
      rw [Std.compare_eq_iff_eq.mpr hhalf, heq]
      rfl
    · have hgt : 1 / 2 < (num : ℚ) / den := by
        rw [div_lt_div_iff₀ (by norm_num) hden]
        exact_mod_cast (show 1 * den < num * 2 by omega)
      rw [compare_gt_iff_gt.mpr hmore]
      exact ⟨(add_lt_add_iff_left _).mpr hgt, (add_lt_add_iff_left _).mpr hone⟩

/-- The quotient of two mantissas is worked out with bits enough. -/
theorem divCore_bits {m m' : ℕ} (e e' : ℤ) (hm : 0 < m) (hm' : 0 < m') :
    2 ^ 52 ≤ (divCore .binary64 m e m' e').1 ∨ (divCore .binary64 m e m' e').2.1 ≤ -1074 := by
  have htarget : Format.binary64.targetExponent (totalExponent m e - totalExponent m' e') =
      max ((m.log2 : ℤ) + e - (m'.log2 + e') - 53) (-1074) := by
    simp only [Format.targetExponent, totalExponent, Format.mantissaBits, Format.minExponent]
    norm_num
    omega
  simp only [divCore, htarget, Nat.shiftLeft_eq]
  generalize ht : min (e - e') _ = t
  by_cases hsmall : t ≤ -1074
  · exact Or.inr hsmall
  · left
    have hshift : 53 + m'.log2 ≤ m.log2 + (e - e' - t).toNat := by omega
    have hm2 : 2 ^ m.log2 ≤ m := Nat.log2_self_le hm.ne'
    have hm2' : m' < 2 ^ (m'.log2 + 1) := Nat.lt_log2_self
    rw [Nat.le_div_iff_mul_le hm']
    calc 2 ^ 52 * m' ≤ 2 ^ 52 * 2 ^ (m'.log2 + 1) := Nat.mul_le_mul_left _ hm2'.le
      _ = 2 ^ (53 + m'.log2) := by rw [← pow_add]; congr 1; omega
      _ ≤ 2 ^ (m.log2 + (e - e' - t).toNat) := Nat.pow_le_pow_right (by norm_num) hshift
      _ = 2 ^ m.log2 * 2 ^ (e - e' - t).toNat := pow_add _ _ _
      _ ≤ m * 2 ^ (e - e' - t).toNat := Nat.mul_le_mul_right _ hm2

/-- What is worked out of a quotient says where the exact one lies. -/
theorem divCore_cuts {m m' : ℕ} (e e' : ℤ) (hm' : 0 < m') :
    Cuts (ExtendedMantissa.ofMantissaAndAccuracy (divCore .binary64 m e m' e').1
        (divCore .binary64 m e m' e').2.2)
      (m * 2 ^ e / (m' * 2 ^ e') / 2 ^ (divCore .binary64 m e m' e').2.1) := by
  simp only [divCore, Nat.shiftLeft_eq]
  generalize ht : min (e - e') _ = t
  have hle : t ≤ e - e' := ht ▸ min_le_left _ _
  have hshift : ((e - e' - t).toNat : ℤ) = e - e' - t := by omega
  generalize hk : (e - e' - t).toNat = k at hshift
  have hexact : (m * 2 ^ e / (m' * 2 ^ e') / 2 ^ t : ℚ) =
      ((m * 2 ^ k / m' : ℕ) : ℚ) + ((m * 2 ^ k % m' : ℕ) : ℚ) / m' := by
    have hden : (m' : ℚ) ≠ 0 := by exact_mod_cast hm'.ne'
    have hwhole : (m' : ℚ) * ((m * 2 ^ k / m' : ℕ) : ℚ) + ((m * 2 ^ k % m' : ℕ) : ℚ) =
        m * 2 ^ k := by exact_mod_cast Nat.div_add_mod (m * 2 ^ k) m'
    have hpow : (2 : ℚ) ^ e = 2 ^ k * 2 ^ e' * 2 ^ t := by
      rw [← zpow_natCast, hshift, ← zpow_add₀ (by norm_num), ← zpow_add₀ (by norm_num)]
      congr 1
      omega
    rw [hpow]
    field_simp
    linarith
  rw [hexact]
  exact cuts_accuracyOfFraction _ (Nat.mod_lt _ hm')

theorem nearest_div {a b : UnpackedFloat} (ha : Upright a) (hb : Upright b)
    (hfa : a.isInf = false) (hfb : b.isInf = false) (hpos : 0 < value b) :
    Nearest (value a / value b) (Float.Model.pack (UnpackedFloat.div .binary64 a b)).unpack := by
  cases hb with
  | infinity => cases hfb
  | zero s => exact absurd hpos (lt_irrefl _)
  | @finite m' e' hm' h' hmost' =>
    cases ha with
    | infinity => cases hfa
    | zero s =>
      have hzero : value (.zero s) / value (.finite .positive m' e' hm') = 0 := zero_div _
      rw [hzero]
      exact nearest_zero _
    | @finite m e hm h hmost =>
      exact nearest_round (divCore_cuts e e' hm') (divCore_bits e e' hm hm')

/-! ### Order -/

section Unpacked

variable {a b c : UnpackedFloat}

theorem compare_ne_lt_of_le (h : a.le b = true) : b.compare a ≠ some .lt := by
  obtain ⟨ha, hb⟩ := isNaN_of_le h
  exact fun hlt => (lt_iff_not_le hb ha).mp hlt h

/-- A quotient of something finite by infinity is a zero. -/
theorem div_infinity (ha : a.isInf = false) (hnan : a.isNaN = false) :
    ∃ s, UnpackedFloat.div .binary64 a (.infinity .positive) = .zero s := by
  cases a with
  | infinity => cases ha
  | notANumber => cases hnan
  | _ => exact ⟨_, rfl⟩

theorem Upright.isNaN (h : Upright a) : a.isNaN = false := by cases h <;> rfl

/-- The quotient of a larger dividend is not smaller; infinity by infinity is not a number. -/
theorem div_ne_lt_of_le (ha : Upright a) (hb : Upright b) (hc : Upright c)
    (hpos : ∀ s, c ≠ .zero s) (hle : a.le b = true) :
    (Float.Model.pack (UnpackedFloat.div .binary64 b c)).unpack.compare
      (Float.Model.pack (UnpackedFloat.div .binary64 a c)).unpack ≠ some .lt := by
  cases hfb : b.isInf with
  | true =>
    cases hb with
    | infinity =>
      cases hc with
      | zero s => exact absurd rfl (hpos s)
      | finite hm h hmost =>
        show UnpackedFloat.compare (Float.Model.pack (.infinity .positive)).unpack _ ≠ some .lt
        rw [unpack_pack_infinity]
        exact compare_infinity_ne_lt _
      | infinity => exact fun h => by cases h
    | _ => cases hfb
  | false =>
    have hfa := isInf_of_le ha hfb hle
    cases hc with
    | zero s => exact absurd rfl (hpos s)
    | infinity =>
      obtain ⟨s, hs⟩ := div_infinity hfa ha.isNaN
      obtain ⟨s', hs'⟩ := div_infinity hfb hb.isNaN
      rw [hs, hs', unpack_pack_zero, unpack_pack_zero]
      exact fun h => by cases h
    | @finite m e hm h hmost =>
      have hc : Upright (.finite .positive m e hm) := .finite hm h hmost
      have hvalue := value_pos hc rfl hpos
      have hna := nearest_div ha hc hfa rfl hvalue
      have hnb := nearest_div hb hc hfb rfl hvalue
      exact compare_ne_lt_of_le
        (hna.mono hnb (div_le_div_of_nonneg_right (value_le ha hb hfb hle) hvalue.le))

end Unpacked

section Floats

variable {x y z : Float}

/-- The product with a larger factor is not smaller. -/
theorem float_mul_le (hx : Upright x.toModel.unpack) (hy : Upright y.toModel.unpack)
    (hz : Upright z.toModel.unpack) (hfx : x.toModel.unpack.isInf = false)
    (hfz : z.toModel.unpack.isInf = false) (hle : y ≤ z) :
    Upright (x * y).toModel.unpack ∧ Upright (x * z).toModel.unpack ∧ x * y ≤ x * z := by
  rw [float_le_iff] at hle
  have hfy := isInf_of_le hy hfz hle
  have hxy : Nearest _ (x * y).toModel.unpack := nearest_mul hx hy hfx hfy
  have hxz : Nearest _ (x * z).toModel.unpack := nearest_mul hx hz hfx hfz
  have hvalue := mul_le_mul_of_nonneg_left (value_le hy hz hfz hle) (value_nonneg x.toModel.unpack)
  exact ⟨hxy.1, hxz.1, float_le_iff.mpr (hxy.mono hxz hvalue)⟩

theorem ne_zero_of_pos (h : 0.0 < x) (s : Sign) : x.toModel.unpack ≠ .zero s := by
  intro hzero
  rw [float_lt_iff, hzero] at h
  cases h

/-- The quotient of a larger dividend is not smaller, even where it is not a number. -/
theorem float_div_not_lt (hx : Upright x.toModel.unpack) (hy : Upright y.toModel.unpack)
    (hz : Upright z.toModel.unpack) (hpos : 0.0 < z) (hle : x ≤ y) : ¬ y / z < x / z := by
  rw [float_lt_iff]
  exact div_ne_lt_of_le hx hy hz (ne_zero_of_pos hpos) (float_le_iff.mp hle)

end Floats

end ProximityNet
