import ProximityNet.Proofs.Waning

/-!
# Bands of distances

Tiers are accepted exactly if each is sound and none stands badly beside a further one.  When they
are not, the check stops at the first tier that breaks a rule, by itself or beside a nearer one, and
says which rule it is.  Accepted tiers divide the distances below the last bound into bands, one for
each tier, and a distance has the shaping of its band.

* `Tier.Ordered`, `Tier.Breaks` — tiers that keep to the rules, and a tier that does not;
* `TierLimits.behind`, `admits_behind_iff` — what is remembered of tiers stands for all of them;
* `Tier.Fault`, `checkTier_fault` — what is said of a tier that breaks a rule;
* `checkTiersFrom_fault`, `checkTiers_fault` — the tier it is said of is the first one;
* `Tier.InBand`, `inBand_iff_reached` — the band of a distance;
* `build_tiered_exact` — which tiers are accepted, what is said of others, and what accepted ones decide.
-/

namespace ProximityNet

/-! ### Rules -/

namespace Tier

/-- Each tier is sound and stands well beside all further ones. -/
structure Ordered (tiers : List Tier) : Prop where
  sound : ∀ t ∈ tiers, t.Sound
  pairs : tiers.Pairwise Precedes

/-- A tier is not sound, or stands badly beside a nearer one. -/
def Breaks (tiers : List Tier) (i : Nat) (hi : i < tiers.length) : Prop :=
  ¬ (tiers[i].Sound ∧ ∀ u ∈ tiers.take i, u.Precedes tiers[i])

/-- What is said of a tier behind `nearer` ones: the first rule that it breaks. -/
inductive Fault (nearer : List Tier) (t : Tier) : ModelError → Prop
  | range (h : ¬ 0.0 < t.maxDistance) : Fault nearer t (.invalidRange t.maxDistance)
  | loss (hbound : 0.0 < t.maxDistance) {l : Float} (hset : t.shaping.lossPercent = some l)
    (h : ¬ (0.0 ≤ l ∧ l ≤ 100.0)) : Fault nearer t (.invalidLoss l)
  | unordered (hsound : t.Sound) (h : ∃ u ∈ nearer, ¬ u.maxDistance < t.maxDistance) :
    Fault nearer t (.unorderedTiers nearer.length)
  | better (hsound : t.Sound) (hbound : ∀ u ∈ nearer, u.maxDistance < t.maxDistance)
    (h : ∃ u ∈ nearer, ¬ u.Precedes t) : Fault nearer t (.betterTier nearer.length)

variable {nearer tiers : List Tier} {t : Tier} {e : ModelError}

theorem ordered_nil : Ordered [] := ⟨by simp, .nil⟩

theorem ordered_snoc_iff :
    Ordered (nearer ++ [t]) ↔ Ordered nearer ∧ t.Sound ∧ ∀ u ∈ nearer, u.Precedes t := by
  constructor
  · rintro ⟨hsound, hpairs⟩
    rw [List.forall_mem_append, List.forall_mem_singleton] at hsound
    obtain ⟨hnearer, -, hbeside⟩ := List.pairwise_append.mp hpairs
    exact ⟨⟨hsound.1, hnearer⟩, hsound.2, fun u hu => hbeside u hu t (List.mem_singleton_self t)⟩
  · rintro ⟨⟨hsound, hpairs⟩, ht, hbeside⟩
    refine ⟨List.forall_mem_append.mpr ⟨hsound, List.forall_mem_singleton.mpr ht⟩,
      List.pairwise_append.mpr ⟨hpairs, List.pairwise_singleton _ t, fun u hu t' ht' => ?_⟩⟩
    rw [List.mem_singleton.mp ht']
    exact hbeside u hu

/-- What is said of a tier is that it breaks a rule. -/
theorem Fault.breaks (h : Fault nearer t e) : ¬ (t.Sound ∧ ∀ u ∈ nearer, u.Precedes t) := by
  rintro ⟨hsound, hbeside⟩
  cases h with
  | range h => exact h hsound.bound
  | loss hbound hset h => exact h (hsound.loss _ hset)
  | unordered _ h =>
    obtain ⟨u, hu, hnot⟩ := h
    exact hnot (hbeside u hu).bound
  | better _ _ h =>
    obtain ⟨u, hu, hnot⟩ := h
    exact hnot (hbeside u hu)

end Tier

/-! ### Limits behind tiers -/

namespace LinkModel

variable {limits : TierLimits} {nearer tiers : List Tier} {t u : Tier} {e : ModelError}

namespace TierLimits

/-- What tiers that have been checked allow the next one. -/
def behind (tiers : List Tier) : TierLimits := tiers.foldl tighten ⟨none, none, none⟩

theorem behind_snoc (nearer : List Tier) (t : Tier) :
    behind (nearer ++ [t]) = (behind nearer).tighten t := by
  rw [behind, List.foldl_concat, behind]

theorem numbers_behind (h : ∀ t ∈ tiers, t.Sound) : (behind tiers).Numbers := by
  induction tiers using List.reverseRecOn with
  | nil => exact numbers_none
  | append_singleton nearer t ih =>
    rw [List.forall_mem_append, List.forall_mem_singleton] at h
    rw [behind_snoc]
    exact (ih h.1).tighten h.2

/-- The last bound, the last bandwidth and the last loss of tiers that keep to the rules stand for
all of them. -/
theorem admits_behind_iff (h : Tier.Ordered tiers) :
    (behind tiers).Admits u ↔ ∀ t ∈ tiers, t.Precedes u := by
  induction tiers using List.reverseRecOn generalizing u with
  | nil => exact iff_of_true ⟨by simp [behind], by simp [behind], by simp [behind]⟩ (by simp)
  | append_singleton nearer t ih =>
    obtain ⟨hnearer, -, hbeside⟩ := Tier.ordered_snoc_iff.mp h
    rw [behind_snoc, admits_tighten_iff ((ih hnearer).mpr hbeside), ih hnearer,
      List.forall_mem_append, List.forall_mem_singleton]

/-- A tier that sets nothing is limited by its bound alone. -/
theorem reach_behind_iff (h : Tier.Ordered nearer) (bound : Float) :
    (∀ r, (behind nearer).reach = some r → r < bound) ↔ ∀ u ∈ nearer, u.maxDistance < bound := by
  have hadmits := admits_behind_iff (u := ⟨bound, .none⟩) h
  constructor
  · intro hreach u hu
    exact (hadmits.mp ⟨hreach, nofun, nofun⟩ u hu).bound
  · intro hbounds
    exact (hadmits.mpr fun u hu => ⟨hbounds u hu, nofun, nofun⟩).bound

end TierLimits

/-! ### What is said of a tier -/

/-- A check that stands before something else fails, or what comes after it does. -/
theorem check_bind_eq_error {ε α : Type} {check : Except ε Unit} {rest : Unit → Except ε α} {e : ε}
    (h : (check >>= rest) = .error e) :
    check = .error e ∨ (check = .ok () ∧ rest () = .error e) := by
  cases check with
  | error e' =>
    cases h
    exact .inl rfl
  | ok u => exact .inr ⟨rfl, h⟩

theorem checkRange_eq_error {value : Float} (h : checkRange value = .error e) :
    ¬ 0.0 < value ∧ e = .invalidRange value := by
  refine ⟨fun hpos => ?_, ?_⟩
  · rw [checkRange_eq_ok_iff.mpr hpos] at h
    cases h
  · rw [checkRange] at h
    split at h <;> cases h
    rfl

theorem checkLoss_eq_error {value : Float} (h : checkLoss value = .error e) :
    ¬ (0.0 ≤ value ∧ value ≤ 100.0) ∧ e = .invalidLoss value := by
  refine ⟨fun hin => ?_, ?_⟩
  · rw [checkLoss_eq_ok_iff.mpr hin] at h
    cases h
  · rw [checkLoss] at h
    split at h <;> cases h
    rfl

/-- The checks of a tier against nearer ones. -/
def checkLimits (limits : TierLimits) (index : Nat) (t : Tier) : Except ModelError Unit := do
  if !limits.admitsBound t then throw (.unorderedTiers index)
  if !limits.admitsBandwidth t then throw (.betterTier index)
  if !limits.admitsLoss t then throw (.betterTier index)

theorem checkTier_eq (limits : TierLimits) (index : Nat) (t : Tier) :
    checkTier limits index t = (do
      checkRange t.maxDistance
      (match t.shaping.lossPercent with
        | some loss => checkLoss loss
        | none => pure ())
      checkLimits limits index t) := by
  rw [checkTier]
  cases t.shaping.lossPercent <;> rfl

theorem checkLimits_eq_error {index : Nat} (h : checkLimits limits index t = .error e) :
    (limits.admitsBound t = false ∧ e = .unorderedTiers index) ∨
      (limits.admitsBound t = true ∧
        ¬ (limits.admitsBandwidth t = true ∧ limits.admitsLoss t = true) ∧
          e = .betterTier index) := by
  rw [checkLimits] at h
  cases hbound : limits.admitsBound t with
  | false =>
    rw [hbound] at h
    cases h
    exact .inl ⟨rfl, rfl⟩
  | true =>
    rw [hbound] at h
    right
    cases hbandwidth : limits.admitsBandwidth t with
    | false =>
      rw [hbandwidth] at h
      cases h
      exact ⟨rfl, by simp, rfl⟩
    | true =>
      rw [hbandwidth] at h
      cases hloss : limits.admitsLoss t with
      | false =>
        rw [hloss] at h
        cases h
        exact ⟨rfl, by simp, rfl⟩
      | true =>
        rw [hloss] at h
        cases h

/-- What the check says of a tier behind others that keep to the rules is the first rule that it
breaks. -/
theorem checkTier_fault (h : Tier.Ordered nearer)
    (hcheck : checkTier (.behind nearer) nearer.length t = .error e) : Tier.Fault nearer t e := by
  rw [checkTier_eq] at hcheck
  rcases check_bind_eq_error hcheck with hrange | ⟨hrange, hcheck⟩
  · obtain ⟨hnot, rfl⟩ := checkRange_eq_error hrange
    exact .range hnot
  have hbound := checkRange_eq_ok_iff.mp hrange
  rcases check_bind_eq_error hcheck with hloss | ⟨hloss, hcheck⟩
  · cases hset : t.shaping.lossPercent with
    | none =>
      rw [hset] at hloss
      cases hloss
    | some l =>
      rw [hset] at hloss
      obtain ⟨hnot, rfl⟩ := checkLoss_eq_error hloss
      exact .loss hbound hset hnot
  have hsound : t.Sound := by
    refine ⟨hbound, fun l hset => ?_⟩
    rw [hset] at hloss
    exact checkLoss_eq_ok_iff.mp hloss
  have hnumbers := TierLimits.numbers_behind h.sound
  have hreach := (TierLimits.admitsBound_iff hnumbers hsound.isNaN).trans
    (TierLimits.reach_behind_iff h t.maxDistance)
  rcases checkLimits_eq_error hcheck with ⟨hbehind, rfl⟩ | ⟨hbeyond, hnot, rfl⟩
  · refine .unordered hsound ?_
    by_contra hall
    rw [hreach.mpr (by simpa using hall)] at hbehind
    cases hbehind
  · refine .better hsound (hreach.mp hbeyond) ?_
    by_contra hall
    have hadmits := (TierLimits.admits_behind_iff (u := t) h).mpr (by simpa using hall)
    exact hnot ⟨TierLimits.admitsBandwidth_iff.mpr hadmits.bandwidth,
      (TierLimits.admitsLoss_iff hnumbers
        fun l hset => (float_isNaN_of_le (hsound.loss l hset).1).2).mpr hadmits.loss⟩

/-- The tier that a check says something of stands behind tiers that keep to the rules. -/
theorem checkTiersFrom_fault (h : Tier.Ordered nearer)
    (hcheck : checkTiersFrom (.behind nearer) nearer.length tiers = .error e) :
    ∃ before t after, tiers = before ++ t :: after ∧ Tier.Ordered (nearer ++ before) ∧
      Tier.Fault (nearer ++ before) t e := by
  -- on the tiers still to be checked, each of which joins the nearer ones once it has passed
  induction tiers generalizing nearer with
  | nil => cases hcheck
  | cons t rest ih =>
    rw [checkTiersFrom] at hcheck
    cases hfirst : checkTier (.behind nearer) nearer.length t with
    | error e' =>
      rw [hfirst] at hcheck
      cases hcheck
      exact ⟨[], t, rest, rfl, by rwa [List.append_nil], by
        rw [List.append_nil]
        exact checkTier_fault h hfirst⟩
    | ok u =>
      rw [hfirst] at hcheck
      dsimp only at hcheck
      obtain ⟨hsound, hadmits⟩ :=
        (checkTier_eq_ok_iff (TierLimits.numbers_behind h.sound) _).mp hfirst
      have hnearer : Tier.Ordered (nearer ++ [t]) :=
        Tier.ordered_snoc_iff.mpr ⟨h, hsound, (TierLimits.admits_behind_iff h).mp hadmits⟩
      rw [← TierLimits.behind_snoc, ← List.length_concat (a := t), List.concat_eq_append] at hcheck
      obtain ⟨before, t', after, rfl, hordered, hfault⟩ := ih hnearer hcheck
      rw [List.append_assoc, List.singleton_append] at hordered hfault
      exact ⟨t :: before, t', after, rfl, hordered, hfault⟩

theorem checkTiers_fault (h : checkTiers tiers = .error e) :
    (tiers = [] ∧ e = .noTiers) ∨ ∃ before t after, tiers = before ++ t :: after ∧
      Tier.Ordered before ∧ Tier.Fault before t e := by
  rw [checkTiers] at h
  split at h
  · rename_i hempty
    cases h
    exact .inl ⟨List.isEmpty_iff.mp hempty, rfl⟩
  · exact .inr (checkTiersFrom_fault Tier.ordered_nil h)

end LinkModel

/-! ### The first tier that breaks a rule -/

namespace Tier

/-- A tier breaks a rule, and no nearer one does. -/
def FirstBreak (tiers : List Tier) (i : Nat) : Prop :=
  ∃ hi : i < tiers.length, Breaks tiers i hi ∧ ∀ j (hj : j < i), ¬ Breaks tiers j (hj.trans hi)

variable {before after tiers : List Tier} {t : Tier} {e : ModelError}

/-- Of tiers that keep to the rules none breaks one. -/
theorem Ordered.not_breaks (h : Ordered tiers) {i : Nat} (hi : i < tiers.length) :
    ¬ Breaks tiers i hi := by
  refine not_not_intro ⟨h.sound _ (List.getElem_mem hi), fun u hu => ?_⟩
  obtain ⟨j, hj, rfl⟩ := List.mem_take_iff_getElem.mp hu
  exact List.pairwise_iff_getElem.mp h.pairs j i (by omega) hi (by omega)

/-- Further tiers do not matter to whether one breaks a rule. -/
theorem breaks_append_iff {i : Nat} (hi : i < before.length) :
    Breaks (before ++ after) i (by simp; omega) ↔ Breaks before i hi := by
  rw [Breaks, Breaks, List.getElem_append_left hi, List.take_append_of_le_length hi.le]

/-- Something is said of the first tier that breaks a rule. -/
theorem Fault.firstBreak (h : Fault before t e) (hordered : Ordered before) (after : List Tier) :
    FirstBreak (before ++ t :: after) before.length := by
  refine ⟨by simp, fun hkeeps => h.breaks ?_, fun j hj => ?_⟩
  · simpa using hkeeps
  · rw [breaks_append_iff hj]
    exact hordered.not_breaks hj

/-- A fault that has an index has that of the tier. -/
theorem Fault.index (h : Fault before t e) {i : Nat}
    (he : e = .unorderedTiers i ∨ e = .betterTier i) : i = before.length := by
  cases h with
  | range _ => rcases he with he | he <;> cases he
  | loss _ _ _ => rcases he with he | he <;> cases he
  | unordered _ _ =>
    rcases he with he | he
    · exact (ModelError.unorderedTiers.inj he).symm
    · cases he
  | better _ _ _ =>
    rcases he with he | he
    · cases he
    · exact (ModelError.betterTier.inj he).symm

/-! ### Bands -/

/-- A distance lies at or beyond the bound of the tier before, if there is one, and below that of the
tier. -/
structure InBand (tiers : List Tier) (i : Nat) (hi : i < tiers.length) (d : Distance) : Prop where
  beyond : ∀ j (hj : j + 1 = i), tiers[j].maxDistance ≤ d.value
  below : d.value < tiers[i].maxDistance

/-- As the bounds ascend, what is beyond the tier before is beyond all nearer ones. -/
theorem inBand_iff_reached (h : Ordered tiers) {i : Nat} {hi : i < tiers.length} {d : Distance} :
    InBand tiers i hi d ↔ Reached tiers i hi d := by
  constructor
  · rintro ⟨hbeyond, hbelow⟩
    refine ⟨hbelow, fun j hj => ?_⟩
    obtain ⟨k, rfl⟩ := Nat.exists_eq_add_of_lt hj
    have hlast := hbeyond (j + k) rfl
    rcases Nat.eq_zero_or_pos k with rfl | hk
    · exact hlast
    · have hbounds := List.pairwise_iff_getElem.mp h.pairs j (j + k) (by omega) (by omega) (by omega)
      exact float_le_trans (float_le_of_lt hbounds.bound) hlast
  · rintro ⟨hbelow, hbeyond⟩
    exact ⟨fun j hj => hbeyond j (by omega), hbelow⟩

/-- A distance lies in one band at most. -/
theorem InBand.unique (h : Ordered tiers) {i j : Nat} {hi : i < tiers.length}
    {hj : j < tiers.length} {d : Distance} (hd : InBand tiers i hi d) (hd' : InBand tiers j hj d) :
    j = i := by
  rw [inBand_iff_reached h] at hd hd'
  have hself := float_le_self d.valid.1
  exact Nat.le_antisymm (hd'.le hd hself) (hd.le hd' hself)

/-- No tier reaches further than the last one. -/
theorem Ordered.le_last (h : Ordered tiers) {last : Tier} (hlast : tiers.getLast? = some last)
    (ht : t ∈ tiers) : t.maxDistance ≤ last.maxDistance := by
  obtain ⟨nearer, rfl⟩ := List.getLast?_eq_some_iff.mp hlast
  obtain ⟨-, hsound, hbeside⟩ := ordered_snoc_iff.mp h
  rcases List.mem_append.mp ht with ht | ht
  · exact float_le_of_lt (hbeside t ht).bound
  · rw [List.mem_singleton.mp ht]
    exact float_le_self hsound.isNaN

end Tier

namespace LinkModel

variable {tiers : List Tier} {initial : Shaping} {e : ModelError}

theorem build_tiered_eq_error (h : build initial (.tiered tiers) = .error e) :
    checkTiers tiers = .error e := by
  rw [build] at h
  cases hcheck : checkTiers tiers with
  | error e' =>
    rw [hcheck] at h
    cases h
    rfl
  | ok u =>
    rw [hcheck] at h
    cases h

theorem build_tiered_iff {m : LinkModel} : build initial (.tiered tiers) = .ok m ↔
    (tiers ≠ [] ∧ Tier.Ordered tiers) ∧ m = tiered tiers initial := by
  rw [build_eq_ok_iff]
  constructor
  · rintro ⟨⟩
    rename_i hsome hsound hpairs
    exact ⟨⟨hsome, hsound, hpairs⟩, rfl⟩
  · rintro ⟨⟨hsome, hsound, hpairs⟩, rfl⟩
    exact .tiered hsome hsound hpairs

/-- Ordered tiers shape the distances below the last bound by their bands, and connect no others. -/
theorem tiered_bands (h : Tier.Ordered tiers) {last : Tier} (hlast : tiers.getLast? = some last)
    (d : Distance) :
    (d.value < last.maxDistance ∧ ∃ i hi, Tier.InBand tiers i hi d ∧
      (tiered tiers initial).decide d = .up tiers[i].shaping) ∨
    (last.maxDistance ≤ d.value ∧ (tiered tiers initial).decide d = .down) := by
  cases hfound : tiers.find? fun t => d.value < t.maxDistance with
  | none =>
    have hbeyond := List.find?_eq_none.mp hfound last (List.mem_of_getLast? hlast)
    have hnumber := (h.sound last (List.mem_of_getLast? hlast)).isNaN
    rw [decide_eq_true_iff, float_lt_iff_not_le d.valid.1 hnumber, not_not] at hbeyond
    exact .inr ⟨hbeyond, by simp only [tiered, hfound]⟩
  | some t =>
    obtain ⟨i, hi, rfl, hreached⟩ := (Tier.find?_eq_some_iff_reached h.sound).mp hfound
    refine .inl ⟨?_, i, hi, (Tier.inBand_iff_reached h).mpr hreached, tiered_decide h.sound hreached⟩
    rw [float_lt_iff_not_le d.valid.1 (h.sound last (List.mem_of_getLast? hlast)).isNaN]
    intro hle
    have hback := float_le_trans (h.le_last hlast (List.getElem_mem hi)) hle
    exact float_not_lt_of_le hback hreached.below

/-- Tiers are accepted exactly if there are some and they keep to the rules.  Otherwise what is said
is the first rule broken by the first tier that breaks one, with the index of that tier where an index
is given.  A model of accepted tiers decides by the only band that a distance lies in, and disconnects
at the last bound and beyond. -/
theorem build_tiered_exact (tiers : List Tier) (initial : Shaping) :
    ((∃ m, build initial (.tiered tiers) = .ok m) ↔ tiers ≠ [] ∧ Tier.Ordered tiers) ∧
    (∀ e, build initial (.tiered tiers) = .error e → (tiers = [] ∧ e = .noTiers) ∨
      ∃ i, ∃ hi : i < tiers.length, Tier.FirstBreak tiers i ∧
        Tier.Fault (tiers.take i) tiers[i] e) ∧
    (∀ e i, build initial (.tiered tiers) = .error e → e = .unorderedTiers i ∨ e = .betterTier i →
      Tier.FirstBreak tiers i) ∧
    ∀ m, build initial (.tiered tiers) = .ok m → ∃ last, tiers.getLast? = some last ∧ ∀ d,
      (d.value < last.maxDistance ∧ ∃ i hi, Tier.InBand tiers i hi d ∧
        (∀ j hj, Tier.InBand tiers j hj d → j = i) ∧ m.decide d = .up tiers[i].shaping) ∨
      (last.maxDistance ≤ d.value ∧ m.decide d = .down) := by
  have hfaults : ∀ e, build initial (.tiered tiers) = .error e → (tiers = [] ∧ e = .noTiers) ∨
      ∃ i, ∃ hi : i < tiers.length, Tier.FirstBreak tiers i ∧
        Tier.Fault (tiers.take i) tiers[i] e := by
    intro e h
    refine (checkTiers_fault (build_tiered_eq_error h)).imp_right ?_
    rintro ⟨before, t, after, rfl, hordered, hfault⟩
    refine ⟨before.length, by simp, hfault.firstBreak hordered after, ?_⟩
    simpa using hfault
  refine ⟨?_, hfaults, ?_, ?_⟩
  · simp only [build_tiered_iff, exists_and_left, exists_eq, and_true]
  · intro e i h hindex
    rcases hfaults e h with ⟨-, rfl⟩ | ⟨k, hk, hfirst, hfault⟩
    · rcases hindex with hindex | hindex <;> cases hindex
    · have hlength := hfault.index hindex
      rw [List.length_take, Nat.min_eq_left hk.le] at hlength
      rwa [hlength]
  · intro m h
    obtain ⟨⟨hsome, hordered⟩, rfl⟩ := build_tiered_iff.mp h
    refine ⟨tiers.getLast hsome, List.getLast?_eq_getLast_of_ne_nil hsome, fun d => ?_⟩
    refine (tiered_bands hordered (List.getLast?_eq_getLast_of_ne_nil hsome) d).imp_left ?_
    rintro ⟨hbelow, i, hi, hband, hdecide⟩
    exact ⟨hbelow, i, hi, hband, fun j hj hband' => hband.unique hordered hband', hdecide⟩

/-- A tier between two others that sets no loss does not hide the nearer one from the further one. -/
example : build .none (.tiered [⟨10.0, .loss 5.0⟩, ⟨20.0, ⟨some 1000, none, none⟩⟩,
    ⟨30.0, .loss 1.0⟩]) = .error (.betterTier 2) := rfl

end LinkModel

end ProximityNet
