import Mathlib.Algebra.Order.Ring.Int
import Mathlib.Order.Compare
import ProximityNet.Proofs.Comparisons

/-!
# How far models reach

Numbers have their places in one order, in which infinities and zeros stand too, so comparisons of
distances with each other and with the bounds of a model can be chained.  Every model connects all
that is nearer than something it connects.

* `place`, `compare_eq_places` — floats compare as their places do;
* `float_le_trans`, `float_lt_of_le_of_lt` — comparisons of floats are chained;
* `float_lt_iff_not_le` — of two numbers one is smaller or they are the other way around;
* `LinkModel.build_cases` — the models that can be built;
* `LinkModel.Severs`, `LinkModel.build_severs` — what a model does not connect is lost;
* `LinkModel.FallsOff`, `LinkModel.build_fallsOff` — whether a model connects falls off with the
  distance.
-/

namespace ProximityNet

open Float.Model (UnpackedFloat)

/-! ### Floats in their order -/

/-- Where a number stands: on which side of the zeros, then by exponent and mantissa, turned around
below the zeros. -/
def place : UnpackedFloat → Int × Int × Int
  | .infinity .negative => (-2, 0, 0)
  | .finite .negative m e _ => (-1, -e, -m)
  | .zero _ | .notANumber => (0, 0, 0)
  | .finite .positive m e _ => (1, e, m)
  | .infinity .positive => (2, 0, 0)

/-- Places are compared part by part. -/
def comparePlaces : Int × Int × Int → Int × Int × Int → Ordering :=
  compareLex (compareOn (·.1)) (compareLex (compareOn (·.2.1)) (compareOn (·.2.2)))

instance : Std.TransCmp comparePlaces := by
  unfold comparePlaces
  infer_instance

theorem comparePlaces_same (side a b a' b' : Int) :
    comparePlaces (side, a, b) (side, a', b') = (compare a a').then (compare b b') := by
  show (compare side side).then _ = _
  rw [Std.compare_eq_iff_eq.mpr rfl]
  rfl

theorem compare_neg (a b : Int) : compare (-a) (-b) = (compare a b).swap := by
  rw [← Std.OrientedCmp.eq_swap]
  rcases lt_trichotomy a b with h | rfl | h
  · rw [compare_gt_iff_gt.mpr h, compare_gt_iff_gt.mpr (neg_lt_neg h)]
  · rw [Std.compare_eq_iff_eq.mpr rfl, Std.compare_eq_iff_eq.mpr rfl]
  · rw [compare_lt_iff_lt.mpr h, compare_lt_iff_lt.mpr (neg_lt_neg h)]

theorem compare_natCast (m n : Nat) : compare (m : Int) (n : Int) = compare m n := by
  rcases lt_trichotomy m n with h | rfl | h
  · rw [compare_lt_iff_lt.mpr h, compare_lt_iff_lt.mpr (Int.ofNat_lt.mpr h)]
  · rw [Std.compare_eq_iff_eq.mpr rfl, Std.compare_eq_iff_eq.mpr rfl]
  · rw [compare_gt_iff_gt.mpr h, compare_gt_iff_gt.mpr (Int.ofNat_lt.mpr h)]

/-- Floats that are numbers compare as their places do. -/
theorem compare_eq_places {a b : UnpackedFloat} (ha : a.isNaN = false) (hb : b.isNaN = false) :
    a.compare b = some (comparePlaces (place a) (place b)) := by
  cases a with
  | notANumber => cases ha
  | infinity s =>
    cases b with
    | notANumber => cases hb
    | infinity s' => cases s <;> cases s' <;> rfl
    | zero s' => cases s <;> rfl
    | finite s' => cases s <;> cases s' <;> rfl
  | zero s =>
    cases b with
    | notANumber => cases hb
    | infinity s' => cases s' <;> rfl
    | zero s' => rfl
    | finite s' => cases s' <;> rfl
  | finite s m e hm =>
    cases b with
    | notANumber => cases hb
    | infinity s' => cases s <;> cases s' <;> rfl
    | zero s' => cases s <;> rfl
    | finite s' m' e' hm' =>
      cases s <;> cases s'
      · -- below the zeros all is turned around
        have hplaces : comparePlaces (-1, -e, -m) (-1, -e', -m') =
            ((compare e e').then (compare m m')).swap := by
          rw [comparePlaces_same, compare_neg, compare_neg, compare_natCast, ← Ordering.swap_then]
        exact congrArg some hplaces.symm
      · rfl
      · rfl
      · have hplaces : comparePlaces (1, e, m) (1, e', m') = (compare e e').then (compare m m') := by
          rw [comparePlaces_same, compare_natCast]
        exact congrArg some hplaces.symm

theorem isNaN_of_le {a b : UnpackedFloat} (h : a.le b = true) :
    a.isNaN = false ∧ b.isNaN = false := by
  cases a with
  | notANumber => cases h
  | infinity s =>
    cases b with
    | notANumber => cases s <;> cases h
    | _ => exact ⟨rfl, rfl⟩
  | _ =>
    cases b with
    | notANumber => cases h
    | _ => exact ⟨rfl, rfl⟩

theorem le_iff_places {a b : UnpackedFloat} (ha : a.isNaN = false) (hb : b.isNaN = false) :
    a.le b = true ↔ (comparePlaces (place a) (place b)).isLE = true := by
  rw [UnpackedFloat.le, compare_eq_places ha hb]
  rfl

theorem float_le_trans {a b c : Float} (h : a ≤ b) (h' : b ≤ c) : a ≤ c := by
  rw [float_le_iff] at h h' ⊢
  obtain ⟨ha, hb⟩ := isNaN_of_le h
  obtain ⟨_, hc⟩ := isNaN_of_le h'
  rw [le_iff_places ha hb] at h
  rw [le_iff_places hb hc] at h'
  exact (le_iff_places ha hc).mpr (Std.TransCmp.isLE_trans h h')

theorem float_lt_of_le_of_lt {a b c : Float} (h : a ≤ b) (h' : b < c) : a < c := by
  rw [float_le_iff] at h
  rw [float_lt_iff] at h' ⊢
  obtain ⟨ha, hb⟩ := isNaN_of_le h
  have hc : c.toModel.unpack.isNaN = false := by
    refine (isNaN_of_le (a := b.toModel.unpack) ?_).2
    rw [UnpackedFloat.le, h']
    rfl
  rw [le_iff_places ha hb] at h
  rw [compare_eq_places hb hc] at h'
  rw [compare_eq_places ha hc, Std.TransCmp.lt_of_isLE_of_lt h (Option.some.inj h')]

theorem lt_iff_not_le {a b : UnpackedFloat} (ha : a.isNaN = false) (hb : b.isNaN = false) :
    a.compare b = some .lt ↔ ¬ b.le a = true := by
  rw [le_iff_places hb ha, compare_eq_places ha hb]
  constructor
  · intro h hle
    exact Std.OrientedCmp.not_lt_of_isLE hle (Option.some.inj h)
  · intro h
    exact congrArg some (Std.OrientedCmp.lt_of_not_isLE h)

theorem float_lt_iff_not_le {a b : Float} (ha : a.isNaN = false) (hb : b.isNaN = false) :
    a < b ↔ ¬ b ≤ a := by
  rw [float_lt_iff, float_le_iff]
  exact lt_iff_not_le ha hb

theorem float_isNaN_of_le {a b : Float} (h : a ≤ b) : a.isNaN = false ∧ b.isNaN = false :=
  isNaN_of_le (float_le_iff.mp h)

theorem float_le_self {a : Float} (h : a.isNaN = false) : a ≤ a := by
  have hself : a.toModel.unpack.compare a.toModel.unpack = some .eq := compare_self h
  rw [float_le_iff, UnpackedFloat.le, hself]
  rfl

theorem float_not_lt_of_le {a b : Float} (h : a ≤ b) : ¬ b < a := by
  obtain ⟨ha, hb⟩ := float_isNaN_of_le h
  rw [float_lt_iff_not_le hb ha, not_not]
  exact h

theorem float_le_of_lt {a b : Float} (h : a < b) : a ≤ b := by
  rw [float_lt_iff] at h
  rw [float_le_iff, UnpackedFloat.le, h]
  rfl

theorem float_lt_irrefl (a : Float) : ¬ a < a :=
  fun h => float_not_lt_of_le (float_le_of_lt h) h

theorem float_lt_trans {a b c : Float} (h : a < b) (h' : b < c) : a < c :=
  float_lt_of_le_of_lt (float_le_of_lt h) h'

/-- What lies beyond an unlimited distance is unlimited. -/
theorem Distance.isUnlimited_of_le {d d' : Distance} (h : d.value ≤ d'.value)
    (hd : d.isUnlimited = true) : d'.isUnlimited = true := by
  have hle : d.parts.le d'.parts = true := float_le_iff.mp h
  have hnegative : d.parts.compare (0.0 : Float).toModel.unpack ≠ some .lt :=
    fun hlt => d.valid.2 (float_lt_iff.mpr hlt)
  have hnan : (0.0 : Float).toModel.unpack.isNaN = false := by decide
  have hfinite : (0.0 : Float).toModel.unpack.isInf = false := by decide
  change d.parts.isInf = true at hd
  change d'.parts.isInf = true
  generalize d.parts = a at hle hnegative hd
  generalize d'.parts = b at hle ⊢
  cases a with
  | infinity s =>
    cases s with
    | negative => exact absurd (compare_negative_infinity hnan hfinite) hnegative
    | positive =>
      cases b with
      | infinity => rfl
      | _ => cases hle
  | _ => cases hd

/-! ### Models -/

namespace LinkModel

variable {m : LinkModel} {initial : Shaping}

/-- The models that can be built. -/
theorem build_cases {config : Config} (h : build initial config = .ok m) :
    (∃ threshold, m = step threshold initial) ∨
      (∃ maxRange maxLoss, m = linearLoss maxRange maxLoss initial) ∨
      (∃ tiers, m = tiered tiers initial) ∨ m = unshaped initial := by
  cases config with
  | step threshold =>
    rw [build] at h
    cases hrange : checkRange threshold with
    | error e =>
      rw [hrange] at h
      cases h
    | ok =>
      rw [hrange] at h
      cases h
      exact Or.inl ⟨threshold, rfl⟩
  | linearLoss maxRange maxLoss =>
    rw [build] at h
    cases hrange : checkRange maxRange with
    | error e =>
      rw [hrange] at h
      cases h
    | ok =>
      cases hloss : checkLoss maxLoss with
      | error e =>
        rw [hrange, hloss] at h
        cases h
      | ok =>
        rw [hrange, hloss] at h
        cases h
        exact Or.inr (Or.inl ⟨maxRange, maxLoss, rfl⟩)
  | tiered tiers =>
    rw [build] at h
    cases htiers : checkTiers tiers with
    | error e =>
      rw [htiers] at h
      cases h
    | ok =>
      rw [htiers] at h
      cases h
      exact Or.inr (Or.inr (Or.inl ⟨tiers, rfl⟩))
  | unshaped =>
    cases h
    exact Or.inr (Or.inr (Or.inr rfl))

/-- A model connects a link with some shaping, or leaves it lost. -/
theorem build_decides {config : Config}
    (h : build initial config = .ok m) (d : Distance) :
    m.decide d = .down ∨ ∃ q, m.decide d = .up q := by
  rcases build_cases h with ⟨threshold, rfl⟩ | ⟨maxRange, maxLoss, rfl⟩ | ⟨tiers, rfl⟩ | rfl
  · rw [step]
    dsimp only
    split
    · exact Or.inr ⟨_, rfl⟩
    · exact Or.inl rfl
  · rw [linearLoss]
    dsimp only
    split
    · exact Or.inl rfl
    · exact Or.inr ⟨_, rfl⟩
  · rw [tiered]
    dsimp only
    split
    · exact Or.inr ⟨_, rfl⟩
    · exact Or.inl rfl
  · rw [unshaped]
    dsimp only
    split
    · exact Or.inl rfl
    · exact Or.inr ⟨_, rfl⟩

/-- All is lost wherever a model does not connect. -/
def Severs (m : LinkModel) : Prop :=
  ∀ d, (m.decide d).connected = false → m.decide d = .down

theorem build_severs {config : Config}
    (h : build initial config = .ok m) : m.Severs := by
  intro d hd
  rcases build_decides h d with hdown | ⟨q, hup⟩
  · exact hdown
  · rw [hup] at hd
    cases hd

/-- All that is nearer than something connected is connected. -/
def FallsOff (m : LinkModel) : Prop :=
  ∀ d d' : Distance, d.value ≤ d'.value → (m.decide d').connected = true →
    (m.decide d).connected = true

theorem fallsOff_step (threshold : Float) : (step threshold initial).FallsOff := by
  intro d d' hle h
  rw [step] at h ⊢
  dsimp only at h ⊢
  split at h
  · rename_i hlt
    rw [if_pos (float_lt_of_le_of_lt hle hlt), LinkDecision.connected_up]
  · cases h

theorem fallsOff_linearLoss (maxRange maxLoss : Float) :
    (linearLoss maxRange maxLoss initial).FallsOff := by
  intro d d' hle h
  rw [linearLoss] at h ⊢
  dsimp only at h ⊢
  split at h
  · cases h
  · rename_i hnear
    have hnear' : ¬ d.value ≥ maxRange := fun hge => hnear (float_le_trans hge hle)
    rw [if_neg hnear', LinkDecision.connected_up]

theorem fallsOff_tiered (tiers : List Tier) : (tiered tiers initial).FallsOff := by
  intro d d' hle h
  rw [tiered] at h ⊢
  dsimp only at h ⊢
  split at h
  · rename_i t hfound
    have hreaches := List.find?_some hfound
    have hlt : d'.value < t.maxDistance := of_decide_eq_true hreaches
    -- the tier that reaches beyond the larger distance reaches beyond the smaller one
    have hsome : (tiers.find? fun t => d.value < t.maxDistance).isSome = true :=
      List.find?_isSome.mpr ⟨t, List.mem_of_find?_eq_some hfound,
        decide_eq_true (float_lt_of_le_of_lt hle hlt)⟩
    obtain ⟨t', ht'⟩ := Option.isSome_iff_exists.mp hsome
    rw [ht']
    rfl
  · cases h

theorem fallsOff_unshaped : (unshaped initial).FallsOff := by
  intro d d' hle h
  rw [unshaped] at h ⊢
  dsimp only at h ⊢
  split at h
  · cases h
  · rename_i hlimited
    rw [if_neg fun hd => hlimited (Distance.isUnlimited_of_le hle hd), LinkDecision.connected_up]

/-- Every model that can be built connects what is nearer than something it connects. -/
theorem build_fallsOff {config : Config} (h : build initial config = .ok m) : m.FallsOff := by
  rcases build_cases h with ⟨threshold, rfl⟩ | ⟨maxRange, maxLoss, rfl⟩ | ⟨tiers, rfl⟩ | rfl
  · exact fallsOff_step threshold
  · exact fallsOff_linearLoss maxRange maxLoss
  · exact fallsOff_tiered tiers
  · exact fallsOff_unshaped

end LinkModel

end ProximityNet
