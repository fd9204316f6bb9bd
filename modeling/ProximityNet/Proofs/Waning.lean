import ProximityNet.Proofs.Proportions
import ProximityNet.Proofs.Tiers

/-!
# Links over a distance

A model that can be built connects all distances up to some range, from zero on, and nothing that is
out of range.  Within the range a larger distance never comes with more bandwidth or with less loss.
Nothing is asked of the delays of tiers, so a larger distance may come with less delay, and does
whenever a further tier has less.

* `LinkModel.Built`, `build_eq_ok_iff` — the models that can be built, and what was checked of them;
* `build_connects_range` — what they connect;
* `Shaping.NoBetter`, `Shaping.NoSooner`, `LinkModel.Wanes` — how shapings compare;
* `build_wanes` — how links wane with the distance, and when delays do;
* `delay_shrinks` — tiers of which the further one has less delay.
-/

namespace ProximityNet

/-! ### Models that can be built -/

namespace LinkModel

variable {m : LinkModel} {initial : Shaping} {config : Config}

/-- The model that a configuration stands for, with what is checked of its parameters. -/
inductive Built (initial : Shaping) : Config → LinkModel → Prop
  | step {threshold : Float} (h : 0.0 < threshold) :
    Built initial (.step threshold) (LinkModel.step threshold initial)
  | linearLoss {maxRange maxLoss : Float} (hrange : 0.0 < maxRange)
    (hloss : 0.0 ≤ maxLoss ∧ maxLoss ≤ 100.0) :
    Built initial (.linearLoss maxRange maxLoss) (LinkModel.linearLoss maxRange maxLoss initial)
  | tiered {tiers : List Tier} (hsome : tiers ≠ []) (hsound : ∀ t ∈ tiers, t.Sound)
    (hpairs : tiers.Pairwise Tier.Precedes) :
    Built initial (.tiered tiers) (LinkModel.tiered tiers initial)
  | unshaped : Built initial .unshaped (LinkModel.unshaped initial)

theorem build_eq_ok_iff : build initial config = .ok m ↔ Built initial config m := by
  constructor
  · intro h
    cases config with
    | step threshold =>
      rw [build, check_bind_eq_ok_iff, checkRange_eq_ok_iff] at h
      obtain ⟨hrange, hm⟩ := h
      cases hm
      exact .step hrange
    | linearLoss maxRange maxLoss =>
      rw [build, check_bind_eq_ok_iff, check_bind_eq_ok_iff, checkRange_eq_ok_iff,
        checkLoss_eq_ok_iff] at h
      obtain ⟨hrange, hloss, hm⟩ := h
      cases hm
      exact .linearLoss hrange hloss
    | tiered tiers =>
      rw [build, check_bind_eq_ok_iff, checkTiers_eq_ok_iff] at h
      obtain ⟨⟨hsome, hsound, hpairs⟩, hm⟩ := h
      cases hm
      exact .tiered hsome hsound hpairs
    | unshaped =>
      cases h
      exact .unshaped
  · intro h
    cases h with
    | step hrange => rw [build, check_bind_eq_ok_iff, checkRange_eq_ok_iff]; exact ⟨hrange, rfl⟩
    | linearLoss hrange hloss =>
      rw [build, check_bind_eq_ok_iff, check_bind_eq_ok_iff, checkRange_eq_ok_iff,
        checkLoss_eq_ok_iff]
      exact ⟨hrange, hloss, rfl⟩
    | tiered hsome hsound hpairs =>
      rw [build, check_bind_eq_ok_iff, checkTiers_eq_ok_iff]
      exact ⟨⟨hsome, hsound, hpairs⟩, rfl⟩
    | unshaped => rfl

/-! ### What is connected -/

theorem Built.connects_zero (h : Built initial config m) : (m.decide .zero).connected = true := by
  cases h with
  | step hrange => rw [LinkModel.step]; exact congrArg _ (if_pos hrange)
  | @linearLoss maxRange maxLoss hrange hloss =>
    have hnumber := (float_isNaN_of_le (float_le_of_lt hrange)).2
    have hnear : ¬ Distance.zero.value ≥ maxRange :=
      (float_lt_iff_not_le (by decide) hnumber).mp hrange
    rw [LinkModel.linearLoss]
    exact congrArg _ (if_neg hnear)
  | @tiered tiers hsome hsound hpairs =>
    cases tiers with
    | nil => exact absurd rfl hsome
    | cons t rest =>
      have hfirst : 0.0 < t.maxDistance := (hsound t List.mem_cons_self).bound
      have hfound : ((t :: rest).find? fun t => Distance.zero.value < t.maxDistance) = some t :=
        List.find?_cons_of_pos (decide_eq_true hfirst)
      simp only [LinkModel.tiered, hfound, LinkDecision.connected_up]
  | unshaped => rfl

/-- An unlimited distance is the one that is out of range. -/
theorem beq_unlimited {d : Distance} (h : d.isUnlimited = true) : (d == .unlimited) = true := by
  rw [Distance.beq_iff, Distance.parts_unlimited]
  change d.parts.isInf = true at h
  have hupright : Upright d.parts := upright_unpack d.valid.1 d.valid.2
  generalize d.parts = u at h hupright
  cases hupright with
  | infinity => rfl
  | _ => cases h

/-- Every model that can be built connects the distances up to some range: what is nearer than
something connected, and what is no distance at all, but nothing out of range. -/
theorem build_connects_range (h : build initial config = .ok m) :
    (∀ d d' : Distance, d.value ≤ d'.value → (m.decide d').connected = true →
      (m.decide d).connected = true) ∧
    (∀ d : Distance, (d == .zero) = true → (m.decide d).connected = true) ∧
    ∀ d : Distance, d.isUnlimited = true → (m.decide d).connected = false := by
  have hranged := build_ranged h
  refine ⟨build_fallsOff h, fun d hd => ?_, fun d hd => ?_⟩
  · rw [hranged.same hd]
    exact (build_eq_ok_iff.mp h).connects_zero
  · rw [hranged.same (beq_unlimited hd)]
    exact hranged.unlimited

/-- Two tiers of which the further one has no end. -/
def endlessTiers : List Tier := [⟨10.0, .loss 5.0⟩, ⟨1.0 / 0.0, .loss 20.0⟩]

/-- Tiers without an end connect the bound of the nearer one and zero, but not what is unlimited. -/
theorem endless_tiers_connect :
    build .none (.tiered endlessTiers) = .ok (tiered endlessTiers .none) ∧
      ((tiered endlessTiers .none).decide ⟨10.0, by decide⟩).connected = true ∧
      ((tiered endlessTiers .none).decide .zero).connected = true ∧
      ((tiered endlessTiers .none).decide .unlimited).connected = false := by
  have hbuild : build .none (.tiered endlessTiers) = .ok (tiered endlessTiers .none) := rfl
  obtain ⟨hnearer, hzero, hunlimited⟩ := build_connects_range hbuild
  exact ⟨hbuild, hnearer ⟨10.0, by decide⟩ ⟨1000.0, by decide⟩ (by decide) rfl,
    hzero .zero (Distance.beq_self _), hunlimited .unlimited (by decide)⟩

end LinkModel

/-! ### How links wane -/

namespace Shaping

/-- No more bandwidth and no less loss, of what both set. -/
structure NoBetter (q q' : Shaping) : Prop where
  bandwidth : ∀ b b', q.bandwidthKbit = some b → q'.bandwidthKbit = some b' → b' ≤ b
  loss : ∀ l l', q.lossPercent = some l → q'.lossPercent = some l' → ¬ l' < l

/-- No less delay, if both set one. -/
def NoSooner (q q' : Shaping) : Prop :=
  ∀ t t', q.delayMs = some t → q'.delayMs = some t' → ¬ t' < t

theorem noBetter_self (q : Shaping) : q.NoBetter q where
  bandwidth b b' h h' := by
    rw [h] at h'
    cases h'
    exact le_rfl
  loss l l' h h' hlt := by
    rw [h] at h'
    cases h'
    exact float_lt_irrefl l hlt

theorem noSooner_self (q : Shaping) : q.NoSooner q := by
  intro t t' h h' hlt
  rw [h] at h'
  cases h'
  exact float_lt_irrefl t hlt

end Shaping

theorem Tier.Precedes.noBetter {t t' : Tier} (h : t.Precedes t') :
    t.shaping.NoBetter t'.shaping where
  bandwidth := h.bandwidth
  loss l l' hl hl' := float_not_lt_of_le (h.loss l l' hl hl')

namespace LinkModel

variable {m : LinkModel} {initial : Shaping} {config : Config}

/-- Of two distances that a model connects, the larger one has a shaping that stands in relation `R`
to that of the smaller one. -/
def Wanes (m : LinkModel) (R : Shaping → Shaping → Prop) : Prop :=
  ∀ d d' : Distance, d.value ≤ d'.value → (m.decide d).connected = true →
    (m.decide d').connected = true → R (m.decide d).shaping (m.decide d').shaping

/-- No tier has less delay than a nearer one. -/
def Config.DelaysAscend : Config → Prop
  | tiered tiers => tiers.Pairwise fun t t' => t.shaping.NoSooner t'.shaping
  | _ => True

section Proportions

variable {maxRange maxLoss : Float}

/-- What is multiplied and divided for a distance within the range: numbers that are not negative, and
the factors finite. -/
structure Proportional (maxRange maxLoss : Float) (d : Distance) : Prop where
  positive : 0.0 < maxRange
  near : d.value < maxRange
  range : Upright maxRange.toModel.unpack
  loss : Upright maxLoss.toModel.unpack
  distance : Upright d.parts
  loss_finite : maxLoss.toModel.unpack.isInf = false
  distance_finite : d.parts.isInf = false

theorem proportional_of_near (hrange : 0.0 < maxRange) (hloss : 0.0 ≤ maxLoss ∧ maxLoss ≤ 100.0)
    {d : Distance} (hnear : ¬ d.value ≥ maxRange) : Proportional maxRange maxLoss d := by
  have hranges := (float_isNaN_of_le (float_le_of_lt hrange)).2
  have hlossy : Upright maxLoss.toModel.unpack :=
    upright_unpack (float_isNaN_of_le hloss.1).2 (float_not_lt_of_le hloss.1)
  have hpercent : maxLoss.toModel.unpack.isInf = false :=
    isInf_of_le hlossy (by decide : (100.0 : Float).toModel.unpack.isInf = false)
      (float_le_iff.mp hloss.2)
  have hlimited : d.parts.isInf = false := by
    by_contra hinf
    have hfar : (d == .unlimited) = true := beq_unlimited (Bool.not_eq_false _ ▸ hinf)
    exact hnear ((Distance.ge_iff_of_beq hfar maxRange).mpr (Distance.unlimited_ge hranges))
  exact {
    positive := hrange
    near := (float_lt_iff_not_le d.valid.1 hranges).mpr hnear
    range := upright_unpack hranges (float_not_lt_of_le (float_le_of_lt hrange))
    loss := hlossy
    distance := upright_unpack d.valid.1 d.valid.2
    loss_finite := hpercent
    distance_finite := hlimited }

/-- A loss in proportion to the distance does not shrink, however its product and its quotient are
rounded. -/
theorem linearLoss_not_lt (hrange : 0.0 < maxRange) (hloss : 0.0 ≤ maxLoss ∧ maxLoss ≤ 100.0)
    {d d' : Distance} (hle : d.value ≤ d'.value) (hnear : ¬ d'.value ≥ maxRange) :
    ¬ maxLoss * d'.value / maxRange < maxLoss * d.value / maxRange := by
  have h := proportional_of_near hrange hloss hnear
  obtain ⟨hproduct, hproduct', hmul⟩ := float_mul_le h.loss (upright_unpack d.valid.1 d.valid.2)
    h.distance h.loss_finite h.distance_finite hle
  exact float_div_not_lt hproduct hproduct' h.range h.positive hmul

end Proportions

section Relations

variable {R : Shaping → Shaping → Prop}

/-- What is shaped alike at all distances wanes, as far as a shaping compares with itself. -/
theorem wanes_of_same (hself : ∀ q, R q q) {q : Shaping}
    (hsame : ∀ d, (m.decide d).connected = true → (m.decide d).shaping = q) : m.Wanes R := by
  intro d d' _ hd hd'
  rw [hsame d hd, hsame d' hd']
  exact hself q

section Tiers

variable {tiers : List Tier} {i : Nat} {hi : i < tiers.length} {d : Distance}

theorem tiered_decide (hsound : ∀ t ∈ tiers, t.Sound) (h : Tier.Reached tiers i hi d) :
    (tiered tiers initial).decide d = .up tiers[i].shaping := by
  have hfound := (Tier.find?_eq_some_iff_reached hsound).mpr ⟨i, hi, rfl, h⟩
  simp only [tiered, hfound]

theorem reached_of_connected (hsound : ∀ t ∈ tiers, t.Sound)
    (h : ((tiered tiers initial).decide d).connected = true) :
    ∃ i hi, Tier.Reached tiers i hi d := by
  cases hfound : tiers.find? fun t => d.value < t.maxDistance with
  | none =>
    simp only [tiered, hfound, LinkDecision.connected_down, Bool.false_eq_true] at h
  | some t =>
    obtain ⟨i, hi, _, hreached⟩ := (Tier.find?_eq_some_iff_reached hsound).mp hfound
    exact ⟨i, hi, hreached⟩

/-- Tiers wane as their shapings do from each to every further one. -/
theorem tiered_wanes_iff (hself : ∀ q, R q q) (hsound : ∀ t ∈ tiers, t.Sound)
    (hpairs : tiers.Pairwise Tier.Precedes) :
    (tiered tiers initial).Wanes R ↔ tiers.Pairwise fun t t' => R t.shaping t'.shaping := by
  rw [List.pairwise_iff_getElem]
  constructor
  · intro hwanes i j hi hj hij
    obtain ⟨d, hd⟩ := Tier.exists_reached hsound hpairs i hi
    obtain ⟨d', hd'⟩ := Tier.exists_reached hsound hpairs j hj
    have hdecide : (tiered tiers initial).decide d = _ := tiered_decide hsound hd
    have hdecide' : (tiered tiers initial).decide d' = _ := tiered_decide hsound hd'
    have hwane := hwanes d d' (hd.value_le hd' hij) (by rw [hdecide]; rfl) (by rw [hdecide']; rfl)
    rw [hdecide, hdecide'] at hwane
    exact hwane
  · intro h d d' hle hconnected hconnected'
    obtain ⟨i, hi, hd⟩ := reached_of_connected hsound hconnected
    obtain ⟨j, hj, hd'⟩ := reached_of_connected hsound hconnected'
    rw [tiered_decide hsound hd, tiered_decide hsound hd']
    rcases (hd.le hd' hle).lt_or_eq with hlt | rfl
    · exact h i j hi hj hlt
    · exact hself _

end Tiers

end Relations

theorem shaping_step {threshold : Float} (d : Distance)
    (h : ((step threshold initial).decide d).connected = true) :
    ((step threshold initial).decide d).shaping = initial := by
  rw [step] at h ⊢
  dsimp only at h ⊢
  split at h
  · rename_i hnear
    rw [if_pos hnear]
    rfl
  · cases h

theorem shaping_unshaped (d : Distance) (h : ((unshaped initial).decide d).connected = true) :
    ((unshaped initial).decide d).shaping = .none := by
  rw [unshaped] at h ⊢
  dsimp only at h ⊢
  split at h
  · cases h
  · rename_i hlimited
    rw [if_neg hlimited]
    rfl

theorem shaping_linearLoss {maxRange maxLoss : Float} (d : Distance)
    (h : ((linearLoss maxRange maxLoss initial).decide d).connected = true) :
    ¬ d.value ≥ maxRange ∧ ((linearLoss maxRange maxLoss initial).decide d).shaping =
      .loss (maxLoss * d.value / maxRange) := by
  rw [linearLoss] at h ⊢
  dsimp only at h ⊢
  split at h
  · cases h
  · rename_i hnear
    rw [if_neg hnear]
    exact ⟨hnear, rfl⟩

theorem Built.wanes (h : Built initial config m) : m.Wanes Shaping.NoBetter := by
  cases h with
  | step hrange => exact wanes_of_same Shaping.noBetter_self shaping_step
  | linearLoss hrange hloss =>
    intro d d' hle hd hd'
    obtain ⟨_, hshaping⟩ := shaping_linearLoss d hd
    obtain ⟨hnear, hshaping'⟩ := shaping_linearLoss d' hd'
    rw [hshaping, hshaping']
    constructor
    · intro b b' hb
      cases hb
    · intro l l' hl hl'
      cases hl
      cases hl'
      exact linearLoss_not_lt hrange hloss hle hnear
  | tiered hsome hsound hpairs =>
    rw [tiered_wanes_iff Shaping.noBetter_self hsound hpairs]
    exact hpairs.imp Tier.Precedes.noBetter
  | unshaped => exact wanes_of_same Shaping.noBetter_self shaping_unshaped

theorem Built.delays_wane_iff (h : Built initial config m) :
    m.Wanes Shaping.NoSooner ↔ config.DelaysAscend := by
  cases h with
  | step hrange => exact iff_of_true (wanes_of_same Shaping.noSooner_self shaping_step) trivial
  | linearLoss hrange hloss =>
    refine iff_of_true (fun d d' _ hd hd' => ?_) trivial
    rw [(shaping_linearLoss d hd).2]
    intro t t' ht
    cases ht
  | tiered hsome hsound hpairs => exact tiered_wanes_iff Shaping.noSooner_self hsound hpairs
  | unshaped => exact iff_of_true (wanes_of_same Shaping.noSooner_self shaping_unshaped) trivial

/-- Every model that can be built wanes with the distance but for the delay; the delay does as well if
and only if no tier has less than a nearer one. -/
theorem build_wanes (h : build initial config = .ok m) :
    m.Wanes Shaping.NoBetter ∧ (m.Wanes Shaping.NoSooner ↔ config.DelaysAscend) :=
  ⟨(build_eq_ok_iff.mp h).wanes, (build_eq_ok_iff.mp h).delays_wane_iff⟩

/-- Tiers of which the further one has more loss and more delay. -/
def steadyTiers : List Tier :=
  [⟨10.0, ⟨some 1000, some 5.0, some 1.0⟩⟩, ⟨20.0, ⟨none, some 8.0, some 40.0⟩⟩]

/-- Tiers with more and more delay wane in all that they set. -/
theorem steady_tiers_wane :
    build .none (.tiered steadyTiers) = .ok (tiered steadyTiers .none) ∧
      (tiered steadyTiers .none).Wanes Shaping.NoBetter ∧
      (tiered steadyTiers .none).Wanes Shaping.NoSooner := by
  have hbuild : build .none (.tiered steadyTiers) = .ok (tiered steadyTiers .none) := rfl
  have hascend : (Config.tiered steadyTiers).DelaysAscend := by
    refine List.pairwise_pair.mpr fun t t' ht ht' => ?_
    cases ht
    cases ht'
    decide
  obtain ⟨hwanes, hdelays⟩ := build_wanes hbuild
  exact ⟨hbuild, hwanes, hdelays.mpr hascend⟩

/-- Tiers that set a delay, and the further one less of it. -/
def hastyTiers : List Tier :=
  [⟨10.0, { Shaping.none with delayMs := some 50.0 }⟩,
    ⟨20.0, { Shaping.none with delayMs := some 5.0 }⟩]

/-- The further tier has less delay than the nearer one. -/
theorem delay_shrinks : build .none (.tiered hastyTiers) = .ok (tiered hastyTiers .none) ∧
    ¬ (tiered hastyTiers .none).Wanes Shaping.NoSooner := by
  refine ⟨rfl, fun hwanes => ?_⟩
  have hless := hwanes ⟨5.0, by decide⟩ ⟨15.0, by decide⟩ (by decide) rfl rfl 50.0 5.0 rfl rfl
  exact hless (by decide)

end LinkModel

end ProximityNet
