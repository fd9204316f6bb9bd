import ProximityNet.Proofs.Ranges

/-!
# Tiers in order

The tiers of a model are checked one by one, each against the last bound and the last bandwidth and
loss that were set before it.  As what is set never gets better, that is as much as checking each tier
against all the nearer ones.  Every tier that passes is chosen for some distance.

* `Tier.Sound`, `Tier.Precedes` — what a tier has to be, by itself and beside a further one;
* `checkTier_eq_ok_iff` — one check;
* `checkTiersFrom_eq_ok_iff`, `checkTiers_eq_ok_iff` — the check of all tiers;
* `Tier.Reached`, `exists_reached` — the distances that a tier is chosen for.
-/

namespace ProximityNet

/-- What a tier has to be by itself. -/
structure Tier.Sound (t : Tier) : Prop where
  bound : 0.0 < t.maxDistance
  loss : ∀ l, t.shaping.lossPercent = some l → 0.0 ≤ l ∧ l ≤ 100.0

/-- What a tier has to be beside one that is further away. -/
structure Tier.Precedes (t t' : Tier) : Prop where
  bound : t.maxDistance < t'.maxDistance
  bandwidth : ∀ b b', t.shaping.bandwidthKbit = some b → t'.shaping.bandwidthKbit = some b' → b' ≤ b
  loss : ∀ l l', t.shaping.lossPercent = some l → t'.shaping.lossPercent = some l' → l ≤ l'

/-- A check that stands before something else has to be passed first. -/
theorem check_bind_eq_ok_iff {ε α : Type} {check : Except ε Unit} {rest : Unit → Except ε α}
    {a : α} : (check >>= rest) = .ok a ↔ check = .ok () ∧ rest () = .ok a := by
  cases check with
  | error e => exact iff_of_false (fun h => by cases h) fun h => by cases h.1
  | ok u => exact ⟨fun h => ⟨rfl, h⟩, fun h => h.2⟩

namespace LinkModel

theorem checkRange_eq_ok_iff {value : Float} : checkRange value = .ok () ↔ 0.0 < value := by
  have hzero : (0.0 : Float).isNaN = false := by decide
  rw [checkRange]
  cases hnan : value.isNaN with
  | true =>
    refine iff_of_false (fun h => by cases h) fun hlt => ?_
    rw [(float_isNaN_of_le (float_le_of_lt hlt)).2] at hnan
    cases hnan
  | false =>
    rw [float_lt_iff_not_le hzero hnan]
    split
    · rename_i h
      exact iff_of_false (fun h => by cases h) fun hnot => hnot (by simpa using h)
    · rename_i h
      exact iff_of_true rfl (by simpa using h)

theorem checkLoss_eq_ok_iff {value : Float} :
    checkLoss value = .ok () ↔ 0.0 ≤ value ∧ value ≤ 100.0 := by
  rw [checkLoss]
  split
  · rename_i h
    exact iff_of_true rfl (by simpa using h)
  · rename_i h
    exact iff_of_false (fun h => by cases h) (by simpa using h)

/-! ### Limits -/

/-- What nearer tiers ask of a tier. -/
structure TierLimits.Admits (limits : TierLimits) (t : Tier) : Prop where
  bound : ∀ r, limits.reach = some r → r < t.maxDistance
  bandwidth : ∀ b b', limits.leastBandwidth = some b → t.shaping.bandwidthKbit = some b' → b' ≤ b
  loss : ∀ l l', limits.mostLoss = some l → t.shaping.lossPercent = some l' → l ≤ l'

/-- Limits that have been set by sound tiers are numbers. -/
structure TierLimits.Numbers (limits : TierLimits) : Prop where
  reach : ∀ r, limits.reach = some r → r.isNaN = false
  loss : ∀ l, limits.mostLoss = some l → l.isNaN = false

variable {limits : TierLimits} {t u : Tier}

namespace TierLimits

theorem numbers_none : Numbers ⟨none, none, none⟩ where
  reach _ h := by cases h
  loss _ h := by cases h

theorem Numbers.tighten (hl : limits.Numbers) (h : t.Sound) : (limits.tighten t).Numbers where
  reach r hr := by
    cases hr
    exact (float_isNaN_of_le (float_le_of_lt h.bound)).2
  loss l hmost := by
    simp only [TierLimits.tighten, Option.or_eq_some_iff] at hmost
    rcases hmost with hset | ⟨_, hset⟩
    · exact (float_isNaN_of_le (h.loss l hset).1).2
    · exact hl.loss l hset

/-- A tier keeps to the limits set by a nearer one if it keeps to those before and stands well beside
the nearer one. -/
theorem admits_tighten_iff (h : limits.Admits t) :
    (limits.tighten t).Admits u ↔ limits.Admits u ∧ t.Precedes u := by
  constructor
  · intro hu
    have hbound : t.maxDistance < u.maxDistance := hu.bound _ rfl
    refine ⟨⟨?_, ?_, ?_⟩, ⟨hbound, ?_, ?_⟩⟩
    · exact fun r hr => float_lt_trans (h.bound r hr) hbound
    · intro b b' hb hb'
      cases hset : t.shaping.bandwidthKbit with
      | none => exact hu.bandwidth b b' (by simp [TierLimits.tighten, hset, hb]) hb'
      | some c =>
        have hc : b' ≤ c := hu.bandwidth c b' (by simp [TierLimits.tighten, hset]) hb'
        exact hc.trans (h.bandwidth b c hb hset)
    · intro l l' hl hl'
      cases hset : t.shaping.lossPercent with
      | none => exact hu.loss l l' (by simp [TierLimits.tighten, hset, hl]) hl'
      | some c =>
        have hc : c ≤ l' := hu.loss c l' (by simp [TierLimits.tighten, hset]) hl'
        exact float_le_trans (h.loss l c hl hset) hc
    · exact fun b b' hb => hu.bandwidth b b' (by simp [TierLimits.tighten, hb])
    · exact fun l l' hl => hu.loss l l' (by simp [TierLimits.tighten, hl])
  · rintro ⟨hu, htu⟩
    refine ⟨?_, ?_, ?_⟩
    · intro r hr
      cases hr
      exact htu.bound
    · intro b b' hb hb'
      simp only [TierLimits.tighten, Option.or_eq_some_iff] at hb
      rcases hb with hset | ⟨_, hset⟩
      · exact htu.bandwidth b b' hset hb'
      · exact hu.bandwidth b b' hset hb'
    · intro l l' hl hl'
      simp only [TierLimits.tighten, Option.or_eq_some_iff] at hl
      rcases hl with hset | ⟨_, hset⟩
      · exact htu.loss l l' hset hl'
      · exact hu.loss l l' hset hl'

theorem admitsBound_iff (hl : limits.Numbers) (h : t.maxDistance.isNaN = false) :
    limits.admitsBound t = true ↔ ∀ r, limits.reach = some r → r < t.maxDistance := by
  rw [admitsBound]
  cases hset : limits.reach with
  | none => simp
  | some reach => simp [float_lt_iff_not_le (hl.reach reach hset) h]

theorem admitsBandwidth_iff : limits.admitsBandwidth t = true ↔
    ∀ b b', limits.leastBandwidth = some b → t.shaping.bandwidthKbit = some b' → b' ≤ b := by
  rw [admitsBandwidth]
  cases limits.leastBandwidth <;> cases t.shaping.bandwidthKbit <;> simp

theorem admitsLoss_iff (hl : limits.Numbers)
    (h : ∀ l, t.shaping.lossPercent = some l → l.isNaN = false) :
    limits.admitsLoss t = true ↔
      ∀ l l', limits.mostLoss = some l → t.shaping.lossPercent = some l' → l ≤ l' := by
  rw [admitsLoss]
  cases hmost : limits.mostLoss with
  | none => simp
  | some most =>
    cases hset : t.shaping.lossPercent with
    | none => simp
    | some loss => simp [float_lt_iff_not_le (h loss hset) (hl.loss most hmost)]

end TierLimits

/-! ### Checks -/

/-- A tier is checked by itself first and then against each limit. -/
theorem checkTier_eq_ok_iff_checks (limits : TierLimits) (index : Nat) (t : Tier) :
    checkTier limits index t = .ok () ↔
      (checkRange t.maxDistance = .ok () ∧
        ∀ l, t.shaping.lossPercent = some l → checkLoss l = .ok ()) ∧
      limits.admitsBound t = true ∧ limits.admitsBandwidth t = true ∧
        limits.admitsLoss t = true := by
  rw [checkTier, check_bind_eq_ok_iff, and_assoc]
  refine and_congr_right fun _ => ?_
  generalize limits.admitsBound t = bound
  generalize limits.admitsBandwidth t = bandwidth
  generalize limits.admitsLoss t = lossy
  cases t.shaping.lossPercent with
  | none => cases bound <;> cases bandwidth <;> cases lossy <;> simp [throw, throwThe,
      MonadExceptOf.throw, pure, Except.pure, bind, Except.bind]
  | some loss =>
    dsimp only
    rw [check_bind_eq_ok_iff]
    cases bound <;> cases bandwidth <;> cases lossy <;> simp [throw, throwThe,
      MonadExceptOf.throw, pure, Except.pure, bind, Except.bind]

theorem checkTier_eq_ok_iff (hl : limits.Numbers) (index : Nat) :
    checkTier limits index t = .ok () ↔ t.Sound ∧ limits.Admits t := by
  rw [checkTier_eq_ok_iff_checks]
  simp only [checkRange_eq_ok_iff, checkLoss_eq_ok_iff]
  constructor
  · rintro ⟨⟨hrange, hloss⟩, hbound, hbandwidth, hlossy⟩
    have hnumber := (float_isNaN_of_le (float_le_of_lt hrange)).2
    have hnumbers := fun l h => (float_isNaN_of_le (hloss l h).1).2
    exact ⟨⟨hrange, hloss⟩, (TierLimits.admitsBound_iff hl hnumber).mp hbound,
      TierLimits.admitsBandwidth_iff.mp hbandwidth,
      (TierLimits.admitsLoss_iff hl hnumbers).mp hlossy⟩
  · rintro ⟨⟨hrange, hloss⟩, hbound, hbandwidth, hlossy⟩
    have hnumber := (float_isNaN_of_le (float_le_of_lt hrange)).2
    have hnumbers := fun l h => (float_isNaN_of_le (hloss l h).1).2
    exact ⟨⟨hrange, hloss⟩, (TierLimits.admitsBound_iff hl hnumber).mpr hbound,
      TierLimits.admitsBandwidth_iff.mpr hbandwidth,
      (TierLimits.admitsLoss_iff hl hnumbers).mpr hlossy⟩

/-- Tiers pass one by one if each is sound, keeps to the limits and stands well beside all further
ones. -/
theorem checkTiersFrom_eq_ok_iff (hl : limits.Numbers) (index : Nat) (tiers : List Tier) :
    checkTiersFrom limits index tiers = .ok () ↔
      (∀ t ∈ tiers, t.Sound ∧ limits.Admits t) ∧ tiers.Pairwise Tier.Precedes := by
  induction tiers generalizing limits index with
  | nil => simp [checkTiersFrom]
  | cons t rest ih =>
    rw [List.forall_mem_cons, List.pairwise_cons, checkTiersFrom]
    cases hcheck : checkTier limits index t with
    | error e =>
      refine iff_of_false (fun h => by cases h) fun h => ?_
      rw [(checkTier_eq_ok_iff hl index).mpr h.1.1] at hcheck
      cases hcheck
    | ok u =>
      have ht := (checkTier_eq_ok_iff hl index).mp hcheck
      dsimp only
      rw [ih (hl.tighten ht.1)]
      simp only [TierLimits.admits_tighten_iff ht.2]
      constructor
      · rintro ⟨hrest, hpairs⟩
        exact ⟨⟨ht, fun u hu => ⟨(hrest u hu).1, (hrest u hu).2.1⟩⟩,
          fun u hu => (hrest u hu).2.2, hpairs⟩
      · rintro ⟨⟨_, hrest⟩, hbeside, hpairs⟩
        exact ⟨fun u hu => ⟨(hrest u hu).1, (hrest u hu).2, hbeside u hu⟩, hpairs⟩

/-- Tiers pass if there are some, each is sound and no tier stands badly beside a further one. -/
theorem checkTiers_eq_ok_iff (tiers : List Tier) :
    checkTiers tiers = .ok () ↔
      tiers ≠ [] ∧ (∀ t ∈ tiers, t.Sound) ∧ tiers.Pairwise Tier.Precedes := by
  have hadmits : ∀ t, (TierLimits.mk none none none).Admits t :=
    fun t => ⟨by simp, by simp, by simp⟩
  rw [checkTiers]
  cases tiers with
  | nil => exact iff_of_false (fun h => by cases h) fun h => h.1 rfl
  | cons t rest =>
    rw [if_neg (by simp), checkTiersFrom_eq_ok_iff TierLimits.numbers_none]
    simp only [hadmits, and_true]
    exact (and_iff_right (List.cons_ne_nil t rest)).symm

end LinkModel

/-! ### Which tier is chosen -/

namespace Tier

theorem Sound.isNaN {t : Tier} (h : t.Sound) : t.maxDistance.isNaN = false :=
  (float_isNaN_of_le (float_le_of_lt h.bound)).2

/-- A tier reaches beyond a distance and no nearer tier does. -/
structure Reached (tiers : List Tier) (i : Nat) (hi : i < tiers.length) (d : Distance) : Prop where
  below : d.value < tiers[i].maxDistance
  beyond : ∀ j (hj : j < i), tiers[j].maxDistance ≤ d.value

variable {tiers : List Tier} {i j : Nat} {hi : i < tiers.length} {hj : j < tiers.length}
  {d d' : Distance}

theorem find?_eq_some_iff_reached (h : ∀ t ∈ tiers, t.Sound) {t : Tier} :
    (tiers.find? fun t => d.value < t.maxDistance) = some t ↔
      ∃ i hi, tiers[i] = t ∧ Reached tiers i hi d := by
  have hbeyond : ∀ j (hj : j < tiers.length),
      (!decide (d.value < tiers[j].maxDistance)) = true ↔ tiers[j].maxDistance ≤ d.value := by
    intro j hj
    have hnumber := (h _ (List.getElem_mem hj)).isNaN
    rw [Bool.not_eq_true', decide_eq_false_iff_not, float_lt_iff_not_le d.valid.1 hnumber, not_not]
  rw [List.find?_eq_some_iff_getElem]
  constructor
  · rintro ⟨hbelow, i, hi, rfl, hbefore⟩
    exact ⟨i, hi, rfl, of_decide_eq_true hbelow,
      fun j hj => (hbeyond j (hj.trans hi)).mp (hbefore j hj)⟩
  · rintro ⟨i, hi, rfl, hbelow, hbefore⟩
    exact ⟨decide_eq_true hbelow, i, hi, rfl,
      fun j hj => (hbeyond j (hj.trans hi)).mpr (hbefore j hj)⟩

/-- A larger distance is not reached by a nearer tier. -/
theorem Reached.le (h : Reached tiers i hi d) (h' : Reached tiers j hj d')
    (hle : d.value ≤ d'.value) : i ≤ j := by
  by_contra hlt
  have hback := float_le_trans (h.beyond j (not_le.mp hlt)) hle
  exact (float_lt_iff_not_le d'.valid.1 (float_isNaN_of_le hback).1).mp h'.below hback

/-- The nearer of two tiers is chosen for smaller distances. -/
theorem Reached.value_le (h : Reached tiers i hi d) (h' : Reached tiers j hj d') (hij : i < j) :
    d.value ≤ d'.value := float_le_trans (float_le_of_lt h.below) (h'.beyond i hij)

/-- Each tier is chosen for some distance: the first one for zero, and any other one for the bound of
the tier before. -/
theorem exists_reached (h : ∀ t ∈ tiers, t.Sound) (hpairs : tiers.Pairwise Precedes)
    (i : Nat) (hi : i < tiers.length) : ∃ d, Reached tiers i hi d := by
  rw [List.pairwise_iff_getElem] at hpairs
  cases i with
  | zero => exact ⟨.zero, (h _ (List.getElem_mem hi)).bound, fun j hj => absurd hj j.not_lt_zero⟩
  | succ k =>
    have hk := h _ (List.getElem_mem (k.lt_of_succ_lt hi))
    have hvalid : tiers[k].maxDistance.isNaN = false ∧ ¬ tiers[k].maxDistance < 0.0 := by
      refine ⟨hk.isNaN, ?_⟩
      rw [float_lt_iff_not_le hk.isNaN (by decide), not_not]
      exact float_le_of_lt hk.bound
    refine ⟨⟨_, hvalid⟩, (hpairs k (k + 1) _ hi k.lt_succ_self).bound, fun j hj => ?_⟩
    rcases (Nat.le_of_lt_succ hj).lt_or_eq with hlt | rfl
    · exact float_le_of_lt (hpairs j k _ _ hlt).bound
    · exact float_le_self hk.isNaN

end Tier

end ProximityNet
