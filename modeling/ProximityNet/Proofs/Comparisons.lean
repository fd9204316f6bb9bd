import ProximityNet.Link.Model

/-!
# Distances that compare as equal

Distances compare as numbers, so two of them can be equal and differ as values: the zeros.  This file
says that the comparison is an equivalence all the same, and that no model can tell equal distances
apart.

* `eq_or_zeros_of_compare` — floats that compare as equal are the same, or are both a zero;
* `Distance.beq_self`, `Distance.beq_symm`, `Distance.beq_trans` — equal distances;
* `Distance.lt_iff_of_beq`, `Distance.ge_iff_of_beq` — equal distances lie on the same side of a bound;
* `LinkModel.build_ranged` — whether a model connects depends on the distance as a number, and no
  model connects what is out of range.
-/

namespace ProximityNet

open Float.Model (UnpackedFloat)

/-! ### Floats -/

/-- Floats that compare as equal are the same, or are both a zero. -/
theorem eq_or_zeros_of_compare {a b : UnpackedFloat} (h : a.compare b = some .eq) :
    a = b ∨ ∃ s s', a = .zero s ∧ b = .zero s' := by
  cases a with
  | notANumber => cases h
  | infinity s =>
    cases s <;> cases b with
    | infinity s' => cases s' <;> first | exact Or.inl rfl | cases h
    | _ => cases h
  | zero s =>
    cases b with
    | zero s' => exact Or.inr ⟨s, s', rfl, rfl⟩
    | finite s' => cases s' <;> cases h
    | infinity s' => cases s' <;> cases h
    | _ => cases h
  | finite s m e hm =>
    cases b with
    | finite s' m' e' hm' =>
      -- of equal signs the exponents and the mantissas decide
      have hparts : s = s' ∧ (compare e e').then (compare m m') = .eq := by
        cases s <;> cases s'
        · exact ⟨rfl, Ordering.swap_eq_eq.mp (Option.some.inj h)⟩
        · cases h
        · cases h
        · exact ⟨rfl, Option.some.inj h⟩
      obtain ⟨rfl, hthen⟩ := hparts
      rw [Ordering.then_eq_eq, Std.compare_eq_iff_eq, Std.compare_eq_iff_eq] at hthen
      obtain ⟨rfl, rfl⟩ := hthen
      exact Or.inl rfl
    | infinity s' => cases s <;> cases s' <;> cases h
    | zero => cases s <;> cases h
    | _ => cases h

/-- The sign of a zero is not seen in comparisons. -/
theorem compare_zero (s s' : Float.Model.UnpackedFloat.Sign) (a : UnpackedFloat) :
    UnpackedFloat.compare (.zero s) a = UnpackedFloat.compare (.zero s') a ∧
      UnpackedFloat.compare a (.zero s) = UnpackedFloat.compare a (.zero s') := by
  cases a with
  | notANumber => exact ⟨rfl, rfl⟩
  | infinity t => cases t <;> exact ⟨rfl, rfl⟩
  | zero t => exact ⟨rfl, rfl⟩
  | finite t => cases t <;> exact ⟨rfl, rfl⟩

/-- Floats that compare as equal compare alike with every other one. -/
theorem compare_congr {a b : UnpackedFloat} (h : a.compare b = some .eq) (c : UnpackedFloat) :
    a.compare c = b.compare c ∧ c.compare a = c.compare b := by
  rcases eq_or_zeros_of_compare h with rfl | ⟨s, s', rfl, rfl⟩
  · exact ⟨rfl, rfl⟩
  · exact compare_zero s s' c

/-- Every number compares as equal with itself. -/
theorem compare_self {a : UnpackedFloat} (h : a.isNaN = false) : a.compare a = some .eq := by
  cases a with
  | notANumber => cases h
  | infinity s => cases s <;> rfl
  | zero s => rfl
  | finite s m e hm =>
    have hself : (compare e e).then (compare m m) = .eq :=
      Ordering.then_eq_eq.mpr ⟨Std.compare_eq_iff_eq.mpr rfl, Std.compare_eq_iff_eq.mpr rfl⟩
    cases s
    · exact congrArg some (Ordering.swap_eq_eq.mpr hself)
    · exact congrArg some hself

/-- Nothing lies beyond infinity. -/
theorem compare_infinity_ne_lt (a : UnpackedFloat) :
    UnpackedFloat.compare (.infinity .positive) a ≠ some .lt := by
  intro h
  cases a with
  | infinity s => cases s <;> cases h
  | _ => cases h

theorem compare_negative_infinity {a : UnpackedFloat} (hnan : a.isNaN = false)
    (hfinite : a.isInf = false) : UnpackedFloat.compare (.infinity .negative) a = some .lt := by
  cases a with
  | notANumber => cases hnan
  | infinity s => cases hfinite
  | zero s => rfl
  | finite s => cases s <;> rfl

/-- Infinity is not exceeded by any number. -/
theorem le_infinity {a : UnpackedFloat} (h : a.isNaN = false) : a.le (.infinity .positive) = true := by
  cases a with
  | notANumber => cases h
  | infinity s => cases s <;> rfl
  | zero s => rfl
  | finite s => cases s <;> rfl

theorem float_lt_iff {a b : Float} :
    a < b ↔ a.toModel.unpack.compare b.toModel.unpack = some .lt := by
  show decide (a.toModel < b.toModel) = true ↔ _
  rw [decide_eq_true_iff]
  show (a.toModel.unpack.compare b.toModel.unpack == some .lt) = true ↔ _
  rw [beq_iff_eq]

theorem float_le_iff {a b : Float} : a ≤ b ↔ a.toModel.unpack.le b.toModel.unpack = true := by
  show decide (a.toModel ≤ b.toModel) = true ↔ _
  rw [decide_eq_true_iff]
  rfl

/-! ### Distances -/

namespace Distance

variable {a b c : Distance}

/-- The value of a distance, taken apart. -/
def parts (d : Distance) : UnpackedFloat := d.value.toModel.unpack

theorem beq_iff : (a == b) = true ↔ a.parts.compare b.parts = some .eq := by
  show (a.parts.compare b.parts == some .eq) = true ↔ _
  rw [beq_iff_eq]

@[simp] theorem beq_self (d : Distance) : (d == d) = true :=
  beq_iff.mpr (compare_self d.valid.1)

theorem beq_symm (h : (a == b) = true) : (b == a) = true := by
  rw [beq_iff] at h ⊢
  rw [← (compare_congr h a.parts).1]
  exact compare_self a.valid.1

theorem beq_trans (h : (a == b) = true) (h' : (b == c) = true) : (a == c) = true := by
  rw [beq_iff] at h h' ⊢
  rw [(compare_congr h c.parts).1, h']

theorem lt_iff_of_beq (h : (a == b) = true) (bound : Float) :
    a.value < bound ↔ b.value < bound := by
  have hcompare : a.parts.compare bound.toModel.unpack = b.parts.compare bound.toModel.unpack :=
    (compare_congr (beq_iff.mp h) _).1
  rw [float_lt_iff, float_lt_iff]
  show a.parts.compare _ = some .lt ↔ b.parts.compare _ = some .lt
  rw [hcompare]

theorem ge_iff_of_beq (h : (a == b) = true) (bound : Float) :
    a.value ≥ bound ↔ b.value ≥ bound := by
  have hcompare : bound.toModel.unpack.compare a.parts = bound.toModel.unpack.compare b.parts :=
    (compare_congr (beq_iff.mp h) _).2
  rw [ge_iff_le, ge_iff_le, float_le_iff, float_le_iff]
  show (UnpackedFloat.compare _ a.parts).any (·.isLE) = true ↔
    (UnpackedFloat.compare _ b.parts).any (·.isLE) = true
  rw [hcompare]

theorem isUnlimited_eq_of_beq (h : (a == b) = true) : a.isUnlimited = b.isUnlimited := by
  show a.parts.isInf = b.parts.isInf
  rcases eq_or_zeros_of_compare (beq_iff.mp h) with heq | ⟨s, s', ha, hb⟩
  · rw [heq]
  · rw [ha, hb]
    rfl

theorem parts_unlimited : unlimited.parts = .infinity .positive := by
  have hinf : unlimited.parts.isInf = true := by decide
  have hnegative : unlimited.parts.compare (0.0 : Float).toModel.unpack ≠ some .lt :=
    fun h => unlimited.valid.2 (float_lt_iff.mpr h)
  have hnan : (0.0 : Float).toModel.unpack.isNaN = false := by decide
  have hfinite : (0.0 : Float).toModel.unpack.isInf = false := by decide
  generalize unlimited.parts = a at hinf hnegative ⊢
  cases a with
  | infinity s =>
    cases s with
    | positive => rfl
    | negative => exact absurd (compare_negative_infinity hnan hfinite) hnegative
  | _ => cases hinf

theorem not_unlimited_lt (bound : Float) : ¬ unlimited.value < bound := by
  rw [float_lt_iff]
  show unlimited.parts.compare _ ≠ some .lt
  rw [parts_unlimited]
  exact compare_infinity_ne_lt _

theorem unlimited_ge {bound : Float} (h : bound.isNaN = false) : unlimited.value ≥ bound := by
  rw [ge_iff_le, float_le_iff]
  show UnpackedFloat.le _ unlimited.parts = true
  rw [parts_unlimited]
  exact le_infinity h

end Distance

/-! ### Models -/

@[simp] theorem LinkDecision.connected_up (shaping : Shaping) : (up shaping).connected = true := rfl

@[simp] theorem LinkDecision.connected_down : down.connected = false := rfl

namespace LinkModel

/-- Whether a model connects depends on the distance as a number, and it connects nothing that is out
of range. -/
structure Ranged (m : LinkModel) : Prop where
  same : ∀ {d d' : Distance}, (d == d') = true → (m.decide d).connected = (m.decide d').connected
  unlimited : (m.decide .unlimited).connected = false

variable {m : LinkModel} {initial : Shaping}

theorem ranged_step (threshold : Float) : (step threshold initial).Ranged where
  same {d d'} h := by
    have hlt := Distance.lt_iff_of_beq h threshold
    simp only [step, hlt]
  unlimited := by
    have hlt := Distance.not_unlimited_lt threshold
    simp only [step, if_neg hlt, LinkDecision.connected_down]

theorem ranged_linearLoss {maxRange : Float} (h : maxRange.isNaN = false) (maxLoss : Float) :
    (linearLoss maxRange maxLoss initial).Ranged where
  same {d d'} heq := by
    have hge := Distance.ge_iff_of_beq heq maxRange
    simp only [linearLoss, hge]
    split
    · rfl
    · rw [LinkDecision.connected_up, LinkDecision.connected_up]
  unlimited := by
    have hge := Distance.unlimited_ge h
    simp only [linearLoss, if_pos hge, LinkDecision.connected_down]

theorem ranged_tiered (tiers : List Tier) : (tiered tiers initial).Ranged where
  same {d d'} h := by
    have hlt := fun t : Tier => Distance.lt_iff_of_beq h t.maxDistance
    simp only [tiered, hlt]
  unlimited := by
    have hnone : (tiers.find? fun t => Distance.unlimited.value < t.maxDistance) = none := by
      rw [List.find?_eq_none]
      intro t _ hlt
      exact Distance.not_unlimited_lt t.maxDistance (of_decide_eq_true hlt)
    simp only [tiered, hnone, LinkDecision.connected_down]

theorem ranged_unshaped : (unshaped initial).Ranged where
  same {d d'} h := by
    have hunlimited := Distance.isUnlimited_eq_of_beq h
    simp only [unshaped, hunlimited]
  unlimited := by
    have hinf : Distance.unlimited.isUnlimited = true := by decide
    simp only [unshaped, hinf, if_true, LinkDecision.connected_down]

theorem isNaN_of_checkRange {value : Float} (h : checkRange value = .ok ()) :
    value.isNaN = false := by
  rw [checkRange] at h
  split at h
  · cases h
  · rename_i hvalid
    rw [Bool.or_eq_true, not_or] at hvalid
    exact Bool.eq_false_iff.mpr hvalid.1

/-- Every model that can be built is ranged. -/
theorem build_ranged {config : Config} (h : build initial config = .ok m) : m.Ranged := by
  cases config with
  | step threshold =>
    rw [build] at h
    cases hrange : checkRange threshold with
    | error e =>
      rw [hrange] at h
      cases h
    | ok =>
      rw [hrange] at h
      cases h
      exact ranged_step threshold
  | linearLoss maxRange maxLoss =>
    rw [build] at h
    cases hrange : checkRange maxRange with
    | error e =>
      rw [hrange] at h
      cases h
    | ok =>
      cases hloss : checkLoss maxLoss with
      | error e =>
        rw [hrange, hloss] at h
        cases h
      | ok =>
        rw [hrange, hloss] at h
        cases h
        exact ranged_linearLoss (isNaN_of_checkRange hrange) maxLoss
  | tiered tiers =>
    rw [build] at h
    cases htiers : checkTiers tiers with
    | error e =>
      rw [htiers] at h
      cases h
    | ok =>
      rw [htiers] at h
      cases h
      exact ranged_tiered tiers
  | unshaped =>
    cases h
    exact ranged_unshaped

end LinkModel

end ProximityNet
