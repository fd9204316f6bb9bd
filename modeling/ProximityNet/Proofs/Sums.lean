import ProximityNet.Proofs.Losses

/-!
# Sums and differences of doubles

A sum of doubles that are not negative is the double nearest to the exact one, and a difference is the
sum with the opposite.  So what is put together of sums, and of quotients by something fixed, climbs
with its argument, and is finite up to some double and no further.

* `unpack_pack_neg`, `unpack_neg` — the opposite of a double;
* `upright_pack`, `isNaN_pack` — what packing leaves of a float that is a number;
* `nearest_add` — a sum is the nearest double;
* `Climbs`, `Climbs.add`, `Climbs.div` — what does not go down when its argument goes up;
* `Climbs.isFinite_iff` — up to where it is finite;
* `isNaN_add` — a sum with something finite is a number.
-/

namespace ProximityNet

open Float.Model (UnpackedFloat)
open Float.Model.UnpackedFloat

variable {a b c u : UnpackedFloat}

/-! ### Opposites -/

theorem neg_neg_unpacked (u : UnpackedFloat) : u.neg.neg = u := by
  cases u with
  | notANumber => rfl
  | infinity s => cases s <;> rfl
  | zero s => cases s <;> rfl
  | finite s => cases s <;> rfl

/-- A difference is a sum with the opposite. -/
theorem sub_eq_add_neg_unpacked (a b : UnpackedFloat) :
    UnpackedFloat.sub .binary64 a b = UnpackedFloat.add .binary64 a b.neg := by
  cases a <;> cases b
  case infinity.infinity s s' => cases s <;> cases s' <;> rfl
  case zero.zero s s' => cases s <;> cases s' <;> rfl
  case finite.finite s m e hm s' m' e' hm' =>
    cases s' <;> simp only [UnpackedFloat.sub, UnpackedFloat.add, neg, Sign.apply, Int.sub_eq_add_neg,
      Int.neg_neg]
  all_goals rfl

theorem unpack_packComponents_neg (s : Sign) (x : BitVec 11) (f : BitVec 52) :
    UnpackedFloat.unpack .binary64 (packComponents .binary64 (-s) x f) =
      (UnpackedFloat.unpack .binary64 (packComponents .binary64 s x f)).neg := by
  have hneg : Sign.ofBitVec (-s).toBitVec = -Sign.ofBitVec s.toBitVec := by cases s <;> rfl
  rw [UnpackedFloat.unpack, UnpackedFloat.unpack]
  simp only [unpackMantissa_packComponents, unpackExponent_packComponents,
    unpackSign_packComponents, hneg]
  split
  · split <;> rfl
  · split
    · split <;> rfl
    · rfl

/-- The sign is packed on its own. -/
theorem unpack_pack_neg (u : UnpackedFloat) :
    (Float.Model.pack u.neg).unpack = (Float.Model.pack u).unpack.neg := by
  cases u with
  | notANumber => rfl
  | infinity s => cases s <;> rfl
  | zero s => cases s <;> rfl
  | finite s m e hm =>
    show UnpackedFloat.unpack .binary64 (UnpackedFloat.pack .binary64 (.finite (-s) m e hm)) =
      (UnpackedFloat.unpack .binary64 (UnpackedFloat.pack .binary64 (.finite s m e hm))).neg
    rw [UnpackedFloat.pack.eq_def, UnpackedFloat.pack.eq_def]
    dsimp only
    split
    · exact unpack_packComponents_neg s _ _
    · split
      · exact unpack_packComponents_neg s _ _
      · exact unpack_packComponents_neg s _ _

/-! ### Packing -/

/-- An exponent and a mantissa are packed as the height of the double. -/
theorem upright_packComponents {x : BitVec 11} (hx : x ≠ -1#11) (f : BitVec 52) :
    Upright (UnpackedFloat.unpack .binary64 (packComponents .binary64 .positive x f)) ∧
      height (UnpackedFloat.unpack .binary64 (packComponents .binary64 .positive x f)) =
        x.toNat * 2 ^ 52 + f.toNat := by
  by_cases hzero : x = 0#11
  · subst hzero
    by_cases hf : f = 0#52
    · subst hf
      exact ⟨.zero .positive, rfl⟩
    · have hpos : 0 < f.toNat := Nat.pos_of_ne_zero fun h => hf (BitVec.eq_of_toNat_eq h)
      rw [unpack_subnormal hpos]
      exact ⟨.finite hpos ⟨by omega, le_rfl, .inr rfl⟩ (by norm_num), by simp [height]⟩
  · have hlow : x.toNat ≠ 0 := fun h => hzero (BitVec.eq_of_toNat_eq h)
    have hhigh : x.toNat ≠ 2047 := fun h => hx (BitVec.eq_of_toNat_eq h)
    have hunpack := unpack_normal (b := x.toNat) f (by omega) (by omega) (by omega)
    rw [BitVec.ofNat_toNat, BitVec.setWidth_eq] at hunpack
    rw [hunpack]
    refine ⟨.finite _ ⟨by omega, by omega, .inl (by omega)⟩ (by omega), ?_⟩
    simp only [height]
    push_cast
    ring

/-- What is a number and not negative comes out of packing as such. -/
theorem upright_pack (hnan : u.isNaN = false) (hneg : u.compare (.zero .positive) ≠ some .lt) :
    Upright (Float.Model.pack u).unpack := by
  cases u with
  | notANumber => cases hnan
  | zero s =>
    rw [unpack_pack_zero]
    exact .zero s
  | infinity s =>
    cases s with
    | negative => exact absurd rfl hneg
    | positive => exact .infinity
  | finite s m e hm =>
    cases s with
    | negative => exact absurd rfl hneg
    | positive =>
      show Upright (UnpackedFloat.unpack .binary64
        (UnpackedFloat.pack .binary64 (.finite .positive m e hm)))
      rw [UnpackedFloat.pack.eq_def]
      dsimp only
      split
      · exact .infinity
      · split
        · rename_i hmost _
          have hless : ¬ 2 ^ 11 ≤ (e + 1023 + 52).toNat + 1 := hmost
          refine (upright_packComponents (fun h => ?_) _).1
          have hones : (e + 1023 + 52).toNat % 2 ^ 11 = 2047 := by
            rw [← BitVec.toNat_ofNat]
            exact congrArg BitVec.toNat h
          omega
        · exact (upright_packComponents (by decide) _).1

theorem isNaN_neg (u : UnpackedFloat) : u.neg.isNaN = u.isNaN := by cases u <;> rfl

/-- What is a number comes out of packing as a number. -/
theorem isNaN_pack (hnan : u.isNaN = false) : (Float.Model.pack u).unpack.isNaN = false := by
  by_cases hneg : u.compare (.zero .positive) = some .lt
  · have hpos : u.neg.compare (.zero .positive) ≠ some .lt := by
      cases u with
      | infinity s =>
        cases s with
        | positive => cases hneg
        | negative => exact fun h => by cases h
      | finite s =>
        cases s with
        | positive => cases hneg
        | negative => exact fun h => by cases h
      | _ => cases hneg
    rw [← neg_neg_unpacked u, unpack_pack_neg, isNaN_neg]
    exact (upright_pack (by rw [isNaN_neg, hnan]) hpos).isNaN
  · exact (upright_pack hnan hneg).isNaN

/-- A double that is not negative is packed and unpacked again as it is. -/
theorem unpack_pack_upright (h : Upright u) : (Float.Model.pack u).unpack = u := by
  cases h with
  | zero s => exact unpack_pack_zero s
  | infinity => rfl
  | finite hm hfit hmost => rw [unpack_pack_finite hm hfit, if_pos hmost]

/-- Every double is packed and unpacked again as it is. -/
theorem unpack_pack_unpack (x : Float) :
    (Float.Model.pack x.toModel.unpack).unpack = x.toModel.unpack := by
  cases h : x.toModel.unpack with
  | notANumber => rfl
  | infinity s => cases s <;> rfl
  | zero s => exact unpack_pack_zero s
  | finite s m e hm =>
    obtain ⟨hfit, hmost⟩ := unpack_finite h
    have hupright : Upright (.finite .positive m e hm) := .finite hm hfit hmost
    cases s with
    | positive => exact unpack_pack_upright hupright
    | negative =>
      show (Float.Model.pack (neg (.finite .positive m e hm))).unpack = neg (.finite .positive m e hm)
      rw [unpack_pack_neg, unpack_pack_upright hupright]

theorem unpack_neg (x : Float) : (-x).toModel.unpack = x.toModel.unpack.neg := by
  show (Float.Model.pack x.toModel.unpack.neg).unpack = _
  rw [unpack_pack_neg, unpack_pack_unpack]

theorem Upright.eq_infinity (h : Upright u) (hinf : u.isInf = true) : u = .infinity .positive := by
  cases h with
  | infinity => rfl
  | _ => cases hinf

/-! ### Sums -/

/-- A whole mantissa of any size is rounded to the nearest double. -/
theorem nearest_round_exact {m : ℕ} (hm : 0 < m) (e : ℤ) :
    Nearest (m * 2 ^ e) (Float.Model.pack (UnpackedFloat.round .binary64 .positive m e)).unpack := by
  have hlog : 2 ^ m.log2 ≤ m := Nat.log2_self_le hm.ne'
  rw [UnpackedFloat.round]
  simp only [decreaseExponent, targetExponent_eq, Nat.shiftLeft_eq]
  generalize hk : (e - max ((m.log2 : ℤ) + e - 52) (-1074)).toNat = k
  refine nearest_round ?_ ?_
  · show (m * 2 ^ e : ℚ) / 2 ^ (e - k) = (m * 2 ^ k : ℕ)
    rw [zpow_sub₀ (by norm_num)]
    push_cast
    field_simp
    rw [zpow_natCast]
  · by_cases hsmall : e - k ≤ -1074
    · exact .inr hsmall
    · left
      have hbits : 52 ≤ m.log2 + k := by omega
      calc 2 ^ 52 ≤ 2 ^ (m.log2 + k) := Nat.pow_le_pow_right (by norm_num) hbits
        _ = 2 ^ m.log2 * 2 ^ k := pow_add _ _ _
        _ ≤ m * 2 ^ k := Nat.mul_le_mul_right _ hlog

theorem nearest_normalize {n : ℤ} (hn : 0 ≤ n) (e : ℤ) :
    Nearest (n * 2 ^ e) (Float.Model.pack (UnpackedFloat.normalize .binary64 n e .positive)).unpack := by
  rcases hn.lt_or_eq with hpos | rfl
  · obtain ⟨m, rfl⟩ := Int.eq_ofNat_of_zero_le hn
    rw [UnpackedFloat.normalize, compare_gt_iff_gt.mpr hpos]
    exact nearest_round_exact (by omega) e
  · rw [Int.cast_zero, zero_mul]
    exact nearest_zero .positive

/-- A mantissa at a smaller exponent stands for the same number. -/
theorem decreaseExponent_value (m : ℕ) {e t : ℤ} (h : t ≤ e) :
    ((decreaseExponent m e t).1 : ℚ) * 2 ^ t = m * 2 ^ e := by
  have hshift : ((e - t).toNat : ℤ) = e - t := by omega
  simp only [decreaseExponent, Nat.shiftLeft_eq]
  push_cast
  rw [← zpow_natCast, hshift, mul_assoc, ← zpow_add₀ (by norm_num), Int.sub_add_cancel]

theorem nearest_add (ha : Upright a) (hb : Upright b) (hfa : a.isInf = false)
    (hfb : b.isInf = false) :
    Nearest (value a + value b) (Float.Model.pack (UnpackedFloat.add .binary64 a b)).unpack := by
  cases ha with
  | infinity => cases hfa
  | zero s =>
    have hvalue : value (.zero s) + value b = value b := zero_add _
    rw [hvalue]
    cases hb with
    | infinity => cases hfb
    | zero s' => cases s <;> cases s' <;> exact nearest_zero _
    | @finite m' e' hm' h' hmost' =>
      have hupright : Upright (.finite .positive m' e' hm') := .finite hm' h' hmost'
      show Nearest _ (Float.Model.pack (.finite .positive m' e' hm')).unpack
      rw [unpack_pack_upright hupright]
      exact nearest_value hupright rfl
  | @finite m e hm h hmost =>
    have hupright : Upright (.finite .positive m e hm) := .finite hm h hmost
    cases hb with
    | infinity => cases hfb
    | zero s' =>
      have hvalue : value (.finite .positive m e hm) + value (.zero s') =
        value (.finite .positive m e hm) := add_zero _
      rw [hvalue]
      show Nearest _ (Float.Model.pack (.finite .positive m e hm)).unpack
      rw [unpack_pack_upright hupright]
      exact nearest_value hupright rfl
    | @finite m' e' hm' h' hmost' =>
      have hexact : value (.finite .positive m e hm) + value (.finite .positive m' e' hm') =
          (((decreaseExponent m e (min e e')).1 + (decreaseExponent m' e' (min e e')).1 : ℤ) : ℚ) *
            2 ^ min e e' := by
        push_cast
        rw [add_mul, decreaseExponent_value m (min_le_left e e'),
          decreaseExponent_value m' (min_le_right e e')]
        rfl
      rw [hexact]
      exact nearest_normalize (by omega) _

theorem isNaN_normalize (n e : ℤ) (s : Sign) : (UnpackedFloat.normalize .binary64 n e s).isNaN = false := by
  have hround : ∀ s m, (UnpackedFloat.round .binary64 s m e).isNaN = false := by
    intro s m
    simp only [UnpackedFloat.round, roundWithAccuracy]
    split <;> rfl
  rw [UnpackedFloat.normalize]
  split
  · exact hround _ _
  · rfl
  · exact hround _ _

/-- The sum of something finite and a number is a number. -/
theorem isNaN_add (ha : a.isFinite = true) (hb : b.isNaN = false) :
    (UnpackedFloat.add .binary64 a b).isNaN = false := by
  cases a with
  | notANumber => cases ha
  | infinity s => cases ha
  | zero s =>
    cases b with
    | notANumber => cases hb
    | zero s' => cases s <;> cases s' <;> rfl
    | _ => rfl
  | finite s m e hm =>
    cases b with
    | notANumber => cases hb
    | finite s' m' e' hm' => exact isNaN_normalize _ _ _
    | _ => rfl

/-! ### What climbs -/

/-- A function of doubles that are not negative, which does not go down. -/
structure Climbs (f : UnpackedFloat → UnpackedFloat) : Prop where
  upright : ∀ {a}, Upright a → Upright (f a)
  mono : ∀ {a b}, Upright a → Upright b → a.le b = true → (f a).le (f b) = true

namespace Climbs

variable {f g : UnpackedFloat → UnpackedFloat}

theorem id : Climbs fun a => a := ⟨fun h => h, fun _ _ h => h⟩

theorem const (hc : Upright c) : Climbs fun _ => c :=
  ⟨fun _ => hc, fun _ _ _ => (le_iff_height hc hc).mpr le_rfl⟩

theorem add_infinity (ha : Upright a) (hb : Upright b) (h : a.isInf = true ∨ b.isInf = true) :
    (Float.Model.pack (UnpackedFloat.add .binary64 a b)).unpack = .infinity .positive := by
  have hsum : UnpackedFloat.add .binary64 a b = .infinity .positive := by
    rcases h with h | h
    · obtain rfl := ha.eq_infinity h
      cases hb <;> rfl
    · obtain rfl := hb.eq_infinity h
      cases ha <;> rfl
  rw [hsum, unpack_pack_infinity]

theorem add (hf : Climbs f) (hg : Climbs g) :
    Climbs fun a => (Float.Model.pack (UnpackedFloat.add .binary64 (f a) (g a))).unpack := by
  have hupright : ∀ {a}, Upright a →
      Upright (Float.Model.pack (UnpackedFloat.add .binary64 (f a) (g a))).unpack := by
    intro a ha
    by_cases hinf : (f a).isInf = true ∨ (g a).isInf = true
    · rw [add_infinity (hf.upright ha) (hg.upright ha) hinf]
      exact .infinity
    · simp only [not_or, Bool.not_eq_true] at hinf
      exact (nearest_add (hf.upright ha) (hg.upright ha) hinf.1 hinf.2).1
  refine ⟨hupright, fun {a b} ha hb hle => ?_⟩
  -- nothing passes an infinite sum, and what a finite one is not passed by is finite too
  by_cases hinf : (f b).isInf = true ∨ (g b).isInf = true
  · rw [add_infinity (hf.upright hb) (hg.upright hb) hinf]
    exact le_infinity (hupright ha).isNaN
  · simp only [not_or, Bool.not_eq_true] at hinf
    have hfle := hf.mono ha hb hle
    have hgle := hg.mono ha hb hle
    have hsum := nearest_add (hf.upright ha) (hg.upright ha)
      (isInf_of_le (hf.upright ha) hinf.1 hfle) (isInf_of_le (hg.upright ha) hinf.2 hgle)
    exact hsum.mono (nearest_add (hf.upright hb) (hg.upright hb) hinf.1 hinf.2)
      (add_le_add (value_le (hf.upright ha) (hf.upright hb) hinf.1 hfle)
        (value_le (hg.upright ha) (hg.upright hb) hinf.2 hgle))

/-- Quotients by something finite but zero climb with the dividend. -/
theorem div (hf : Climbs f) (hc : Upright c) (hfinite : c.isInf = false)
    (hpos : ∀ s, c ≠ .zero s) :
    Climbs fun a => (Float.Model.pack (UnpackedFloat.div .binary64 (f a) c)).unpack := by
  have hupright : ∀ {a}, Upright a →
      Upright (Float.Model.pack (UnpackedFloat.div .binary64 (f a) c)).unpack := by
    intro a ha
    have hfa := hf.upright ha
    cases hinf : (f a).isInf with
    | false => exact (nearest_div hfa hc hinf hfinite (value_pos hc hfinite hpos)).1
    | true =>
      rw [hfa.eq_infinity hinf, infinity_div hc hpos, if_neg (by simp [hfinite])]
      exact .infinity
  refine ⟨hupright, fun {a b} ha hb hle => ?_⟩
  have hquotients := div_ne_lt_of_le (hf.upright ha) (hf.upright hb) hc hpos (hf.mono ha hb hle)
  by_contra hless
  exact hquotients ((lt_iff_not_le (hupright hb).isNaN (hupright ha).isNaN).mpr hless)

/-- Of two doubles with none between them the lower one is the last where it is finite, if it is not
at the higher one. -/
theorem isInf_iff (hf : Climbs f) (hb : Upright b) (hc : Upright c)
    (hnext : height c = height b + 1) (hlow : (f b).isInf = false) (hhigh : (f c).isInf = true)
    (ha : Upright a) : (f a).isInf = false ↔ a.le b = true := by
  constructor
  · intro hfinite
    by_contra hless
    -- what is beyond `b` is not below `c`
    rw [le_iff_height ha hb] at hless
    have hle : c.le a = true := (le_iff_height hc ha).mpr (by omega)
    have hinf := isInf_of_le (hf.upright hc) hfinite (hf.mono hc ha hle)
    rw [hhigh] at hinf
    cases hinf
  · intro hle
    exact isInf_of_le (hf.upright ha) hlow (hf.mono ha hb hle)

end Climbs

end ProximityNet
