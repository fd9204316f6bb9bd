import ProximityNet.Proofs.Causes
import ProximityNet.Proofs.Populations
import ProximityNet.Proofs.Strides

/-!
# The pairs that a walk reports

A walk lists each pair of its nodes once, the node with the smaller id first.  No pair gets lost on the
way: its nodes are distinct, and as their places are finite their distance is a number.

* `mem_pairsOf`, `length_pairsOf`, `nodup_pairsOf` — the pairs of a list in order;
* `SortedMap.get?_ofList` — the map of a list in which no key comes twice;
* `upright_hypotenuse` — the length of a hypotenuse is a number and not negative;
* `RandomWalk.ReportsPairs`, `RandomWalk.Roams.reportsPairs` — what the distances of a walk are;
* `Scenario.Drives`, `Scenario.Walks` — what the engine of a scenario is led to, and what stays so;
* `Scenario.walk_reports_pairs` — a walk reports each pair, so distances are never lacking.
-/

namespace ProximityNet

open Float.Model (UnpackedFloat)
open Float.Model.UnpackedFloat

/-! ### Pairs of a list -/

section Pairs

variable {α β : Type}

theorem pairsOf_map (f : α → β) (l : List α) :
    pairsOf (l.map f) = (pairsOf l).map (Prod.map f f) := by
  induction l with
  | nil => rfl
  | cons a rest ih => simp [pairsOf, ih, Function.comp_def, Prod.map]

/-- In a list that is in order the pairs are those of a smaller and a larger item. -/
theorem mem_pairsOf {r : α → Nat} {l : List α} (h : l.Pairwise fun a b => r a < r b) {a b : α} :
    (a, b) ∈ pairsOf l ↔ a ∈ l ∧ b ∈ l ∧ r a < r b := by
  induction h with
  | nil => simp [pairsOf]
  | @cons first rest hfirst hrest ih =>
    rw [pairsOf, List.mem_append, ih]
    constructor
    · rintro (hmem | ⟨ha, hb, hlt⟩)
      · obtain ⟨b', hb, heq⟩ := List.mem_map.mp hmem
        obtain ⟨rfl, rfl⟩ := Prod.mk.inj heq
        exact ⟨List.mem_cons_self, List.mem_cons_of_mem _ hb, hfirst _ hb⟩
      · exact ⟨List.mem_cons_of_mem _ ha, List.mem_cons_of_mem _ hb, hlt⟩
    · rintro ⟨ha, hb, hlt⟩
      rcases List.mem_cons.mp ha with rfl | ha' <;> rcases List.mem_cons.mp hb with rfl | hb'
      · exact absurd hlt (lt_irrefl _)
      · exact .inl (List.mem_map.mpr ⟨b, hb', rfl⟩)
      · exact absurd hlt (hfirst a ha').not_gt
      · exact .inr ⟨ha', hb', hlt⟩

theorem length_pairsOf (l : List α) : (pairsOf l).length = l.length * (l.length - 1) / 2 := by
  induction l with
  | nil => simp [pairsOf]
  | cons a rest ih =>
    rw [pairsOf, List.length_append, List.length_map, ih, List.length_cons, Nat.triangle_succ,
      Nat.add_comm]

example : pairsOf [1, 2, 3, 4] = [(1, 2), (1, 3), (1, 4), (2, 3), (2, 4), (3, 4)] := rfl

theorem nodup_pairsOf {l : List α} (h : l.Nodup) : (pairsOf l).Nodup := by
  induction h with
  | nil => exact .nil
  | @cons first rest hfirst hrest ih =>
    have hfst : ∀ {m : List α} {x : α × α}, x ∈ pairsOf m → x.1 ∈ m := by
      intro m
      induction m with
      | nil => exact fun hx => by cases hx
      | cons a m ihm =>
        intro x hx
        rcases List.mem_append.mp hx with hx | hx
        · obtain ⟨b, -, rfl⟩ := List.mem_map.mp hx
          exact List.mem_cons_self
        · exact List.mem_cons_of_mem a (ihm hx)
    refine List.nodup_append.mpr ⟨List.Nodup.map (fun a b hab => (Prod.mk.inj hab).2) hrest,
      ih, ?_⟩
    rintro x hx y hy rfl
    obtain ⟨b, -, rfl⟩ := List.mem_map.mp hx
    exact hfirst first (hfst hy) rfl

/-- Where every item gives something, and it is known under what key, all keys are in the result. -/
theorem map_fst_filterMap {κ ν : Type} {f : α → Option (κ × ν)} {k : α → κ} {l : List α}
    (h : ∀ a ∈ l, ∃ v, f a = some (k a, v)) : (l.filterMap f).map (·.1) = l.map k := by
  induction l with
  | nil => rfl
  | cons a rest ih =>
    obtain ⟨v, hv⟩ := h a List.mem_cons_self
    rw [List.filterMap_cons_some hv, List.map_cons, List.map_cons,
      ih fun b hb => h b (List.mem_cons_of_mem a hb)]

end Pairs

namespace SortedMap

variable {κ ν : Type} [Ranked κ]

theorem mem_pairsOf_entries {m : SortedMap κ ν} {p q : κ × ν} :
    (p, q) ∈ pairsOf m.entries ↔ p ∈ m.entries ∧ q ∈ m.entries ∧ rank p.1 < rank q.1 :=
  mem_pairsOf (r := fun e : κ × ν => rank e.1) m.ascending

/-- The map of a list in which no key comes twice has what stands in the list. -/
theorem get?_ofList {l : List (κ × ν)} (h : (l.map (·.1)).Nodup) {k : κ} {v : ν} :
    (ofList l).get? k = some v ↔ (k, v) ∈ l := by
  induction l generalizing k v with
  | nil => simp [ofList]
  | cons entry rest ih =>
    obtain ⟨first, u⟩ := entry
    obtain ⟨hfirst, hrest⟩ := List.nodup_cons.mp h
    have hnone : (ofList rest).get? first = none := by
      rw [Option.eq_none_iff_forall_ne_some]
      intro v' hv'
      exact hfirst (List.mem_map.mpr ⟨(first, v'), (ih hrest).mp hv', rfl⟩)
    rw [ofList, get?_alter, List.mem_cons]
    by_cases hk : first = k
    · subst hk
      rw [if_pos rfl, hnone, Option.getD_none]
      constructor
      · intro hu
        rw [Option.some.inj hu]
        exact .inl rfl
      · rintro (heq | hmem)
        · rw [(Prod.mk.inj heq).2]
        · exact absurd (List.mem_map.mpr ⟨(first, v), hmem, rfl⟩) hfirst
    · rw [if_neg fun hr => hk (rank_injective _ _ hr), ih hrest]
      exact (or_iff_right fun heq => hk (Prod.mk.inj heq).1.symm).symm

/-- It has as many entries as the list. -/
theorem size_ofList {l : List (κ × ν)} (h : (l.map (·.1)).Nodup) : (ofList l).size = l.length := by
  have hperm : (ofList l).keys.Perm (l.map (·.1)) := by
    refine (List.perm_ext_iff_of_nodup (keys_nodup _) h).mpr fun k => ?_
    rw [mem_keys_iff, List.mem_map]
    constructor
    · rintro ⟨v, hv⟩
      exact ⟨(k, v), (get?_ofList h).mp hv, rfl⟩
    · rintro ⟨⟨k', v⟩, hmem, rfl⟩
      exact ⟨v, (get?_ofList h).mpr hmem⟩
  have hlength := hperm.length_eq
  rwa [keys, List.length_map, List.length_map] at hlength

end SortedMap

/-! ### Distances of places -/

/-- What is rounded to something positive is not negative. -/
theorem upright_pack_round (m : ℕ) (e : ℤ) (acc : Accuracy) :
    Upright (Float.Model.pack (roundWithAccuracy .binary64 .positive m e acc)).unpack := by
  rw [roundWithAccuracy]
  dsimp only
  split
  · exact upright_pack rfl fun h => by cases h
  · exact upright_pack rfl fun h => by cases h

theorem upright_rootOfScaled (n : ℕ) (e : ℤ) : Upright (rootOfScaled n e).toModel.unpack := by
  rw [rootOfScaled]
  split
  · exact upright_pack_round _ _ _
  · exact .zero .positive

theorem upright_abs {x : Float} (h : x.isNaN = false) : Upright x.abs.toModel.unpack := by
  show Upright (Float.Model.pack x.toModel.unpack.abs).unpack
  change x.toModel.unpack.isNaN = false at h
  generalize x.toModel.unpack = u at h
  cases u with
  | notANumber => cases h
  | _ => exact upright_pack rfl fun h => by cases h

/-- The hypotenuse over legs that are numbers is a number and not negative. -/
theorem upright_hypotenuse {x y : Float} (hx : x.isNaN = false) (hy : y.isNaN = false) :
    Upright (hypotenuse x y).toModel.unpack := by
  have hinfinity : Upright (1.0 / 0.0 : Float).toModel.unpack :=
    upright_unpack (by decide) (by decide)
  rw [hypotenuse]
  change x.toModel.unpack.isNaN = false at hx
  change y.toModel.unpack.isNaN = false at hy
  split
  · exact hinfinity
  · exact hinfinity
  · rename_i hnan _
    rw [hnan] at hx
    cases hx
  · rename_i hnan _ _
    rw [hnan] at hy
    cases hy
  · exact .zero .positive
  · exact upright_abs hy
  · exact upright_abs hx
  · exact upright_rootOfScaled _ _

/-- The difference of two moderate numbers is a number. -/
theorem isNaN_sub {x y : Float} (hx : Moderate x) (hy : Moderate y) : (x - y).isNaN = false := by
  refine isNaN_pack ?_
  rw [sub_eq_add_neg_unpacked]
  exact isNaN_add (hx.upright.isFinite_iff.mpr hx.finite) (by rw [isNaN_neg, hy.upright.isNaN])

/-- What comes apart upright is a distance. -/
theorem Distance.exists_ofFloat? {x : Float} (h : Upright x.toModel.unpack) :
    ∃ d, Distance.ofFloat? x = some d ∧ d.value = x := by
  have hneg : ¬ x < 0.0 := by
    refine float_not_lt_of_le (float_le_iff.mpr ?_)
    exact zero_le h .positive
  exact ⟨⟨x, h.isNaN, hneg⟩, dif_pos ⟨h.isNaN, hneg⟩, rfl⟩

theorem WalkArea.Holds.exists_distance {area : WalkArea} {p q : Position} (hp : area.Holds p)
    (hq : area.Holds q) :
    ∃ d, Distance.ofFloat? (p.distance q) = some d ∧ d.value = p.distance q :=
  Distance.exists_ofFloat? (upright_hypotenuse (isNaN_sub hp.x hq.x) (isNaN_sub hp.y hq.y))

/-! ### Walks -/

namespace RandomWalk

variable {area : WalkArea} {ids : List NodeId} {w : RandomWalk}

/-- The distances of a walk are those of all pairs of its nodes, each given once with the smaller id
first. -/
structure ReportsPairs (w : RandomWalk) (ids : List NodeId) : Prop where
  size : w.distances.size = ids.dedup.length * (ids.dedup.length - 1) / 2
  pairs : ∀ pair, w.distances.contains pair = true ↔
    pair.low.toNat < pair.high.toNat ∧ pair.low ∈ ids ∧ pair.high ∈ ids
  places : ∀ pair d, w.distances.get? pair = some d → ∃ p q,
    w.position? pair.low = some p ∧ w.position? pair.high = some q ∧ d.value = p.distance q

/-- Two entries in order give an entry of the matrix. -/
theorem exists_entry {p q : NodeId × Position} (hlt : rank p.1 < rank q.1) (hp : area.Holds p.2)
    (hq : area.Holds q.2) :
    ∃ d, entry? p q = some (⟨p.1, q.1⟩, d) ∧ d.value = p.2.distance q.2 := by
  obtain ⟨d, hd, hvalue⟩ := hp.exists_distance hq
  have hpair : NodePair.of? p.1 q.1 = some ⟨p.1, q.1⟩ := if_pos hlt
  refine ⟨d, ?_, hvalue⟩
  unfold entry?
  rw [hpair, hd]
  rfl

namespace Roams

theorem holds_of_mem (h : w.Roams area ids) {p : NodeId × Position}
    (hp : p ∈ w.positions.entries) : area.Holds p.2 := h.settled.of_mem_entries hp

theorem exists_entry_of_pair (h : w.Roams area ids) {p q : NodeId × Position}
    (hpq : (p, q) ∈ pairsOf w.positions.entries) :
    ∃ d, entry? p q = some (⟨p.1, q.1⟩, d) ∧ d.value = p.2.distance q.2 := by
  obtain ⟨hp, hq, hlt⟩ := SortedMap.mem_pairsOf_entries.mp hpq
  exact exists_entry hlt (h.holds_of_mem hp) (h.holds_of_mem hq)

/-- No pair of entries is lost, and the keys are those of the entries. -/
theorem keys_eq (h : w.Roams area ids) :
    ((pairsOf w.positions.entries).filterMap fun (p, q) => entry? p q).map (·.1) =
      (pairsOf w.positions.entries).map fun x => ⟨x.1.1, x.2.1⟩ := by
  refine map_fst_filterMap fun x hx => ?_
  obtain ⟨d, hd, -⟩ := h.exists_entry_of_pair hx
  exact ⟨d, hd⟩

theorem keys_nodup (h : w.Roams area ids) :
    (((pairsOf w.positions.entries).filterMap fun (p, q) => entry? p q).map (·.1)).Nodup := by
  have hpairs : (pairsOf w.positions.entries).map (fun x => (⟨x.1.1, x.2.1⟩ : NodePair)) =
      (pairsOf w.positions.keys).map fun x => ⟨x.1, x.2⟩ := by
    rw [SortedMap.keys, pairsOf_map, List.map_map]
    rfl
  rw [h.keys_eq, hpairs]
  refine (nodup_pairsOf w.positions.keys_nodup).map fun x y hxy => ?_
  obtain ⟨hlow, hhigh⟩ := NodePair.mk.inj hxy
  exact Prod.ext hlow hhigh

/-- There are as many positions as there are distinct ids. -/
theorem length_entries (h : w.Roams area ids) : w.positions.entries.length = ids.dedup.length := by
  have hperm : w.positions.keys.Perm ids.dedup := by
    refine (List.perm_ext_iff_of_nodup w.positions.keys_nodup ids.nodup_dedup).mpr fun id => ?_
    rw [h.settled.mem_keys_iff, List.mem_dedup]
  rw [← hperm.length_eq, SortedMap.keys, List.length_map]

/-- What a walk reports of a pair comes from two positions. -/
theorem exists_of_get?_distances (h : w.Roams area ids) {pair : NodePair} {d : Distance}
    (hd : w.distances.get? pair = some d) : ∃ p q, (p, q) ∈ pairsOf w.positions.entries ∧
      pair = ⟨p.1, q.1⟩ ∧ d.value = p.2.distance q.2 := by
  rw [distances, SortedMap.get?_ofList h.keys_nodup, List.mem_filterMap] at hd
  obtain ⟨⟨p, q⟩, hpq, hentry⟩ := hd
  obtain ⟨d', hd', hvalue⟩ := h.exists_entry_of_pair hpq
  obtain ⟨rfl, rfl⟩ := Prod.mk.inj (Option.some.inj (hd'.symm.trans hentry))
  exact ⟨p, q, hpq, rfl, hvalue⟩

/-- Of any two positions something is reported. -/
theorem exists_get?_distances (h : w.Roams area ids) {p q : NodeId × Position}
    (hpq : (p, q) ∈ pairsOf w.positions.entries) : ∃ d, w.distances.get? ⟨p.1, q.1⟩ = some d := by
  obtain ⟨d, hd, -⟩ := h.exists_entry_of_pair hpq
  refine ⟨d, ?_⟩
  rw [distances, SortedMap.get?_ofList h.keys_nodup, List.mem_filterMap]
  exact ⟨(p, q), hpq, hd⟩

theorem mem_ids (h : w.Roams area ids) {p : NodeId × Position} (hp : p ∈ w.positions.entries) :
    p.1 ∈ ids := h.settled.mem_keys_iff.mp (List.mem_map_of_mem hp)

/-- A walk reports each pair of its nodes. -/
theorem reportsPairs (h : w.Roams area ids) : w.ReportsPairs ids where
  size := by
    rw [distances, SortedMap.size_ofList h.keys_nodup, ← List.length_map, h.keys_eq, List.length_map,
      length_pairsOf, h.length_entries]
  pairs pair := by
    rw [SortedMap.contains_iff]
    constructor
    · rintro ⟨d, hd⟩
      obtain ⟨p, q, hpq, rfl, -⟩ := h.exists_of_get?_distances hd
      obtain ⟨hp, hq, hlt⟩ := SortedMap.mem_pairsOf_entries.mp hpq
      exact ⟨hlt, h.mem_ids hp, h.mem_ids hq⟩
    · rintro ⟨hlt, hlow, hhigh⟩
      obtain ⟨p, hp, hplow⟩ := List.mem_map.mp (h.settled.mem_keys_iff.mpr hlow)
      obtain ⟨q, hq, hqhigh⟩ := List.mem_map.mp (h.settled.mem_keys_iff.mpr hhigh)
      obtain ⟨low, high⟩ := pair
      dsimp only at hlt hplow hqhigh
      subst hplow hqhigh
      exact h.exists_get?_distances (SortedMap.mem_pairsOf_entries.mpr ⟨hp, hq, hlt⟩)
  places pair d hd := by
    obtain ⟨p, q, hpq, rfl, hvalue⟩ := h.exists_of_get?_distances hd
    obtain ⟨hp, hq, -⟩ := SortedMap.mem_pairsOf_entries.mp hpq
    exact ⟨p.2, q.2, SortedMap.get?_eq_some_iff.mpr hp, SortedMap.get?_eq_some_iff.mpr hq, hvalue⟩

end Roams

end RandomWalk

/-! ### Engines of scenarios -/

/-- Nodes with ids of a list are no more than the list has. -/
theorem Engine.length_emulationNodes_le {σ μ : Type} {e : Engine σ μ} {ids : List NodeId}
    (h : ∀ id node, e.nodes.get? id = some node → node.isEmulation = true → id ∈ ids) :
    e.emulationNodes.length ≤ ids.length := by
  have hkeys : ((e.nodes.entries.filter fun x => x.2.isEmulation).map (·.1)).Nodup :=
    e.nodes.keys_nodup.sublist (List.filter_sublist.map _)
  have hsubset : (e.nodes.entries.filter fun x => x.2.isEmulation).map (·.1) ⊆ ids := by
    intro id hid
    obtain ⟨x, hx, rfl⟩ := List.mem_map.mp hid
    obtain ⟨hmem, hemulation⟩ := List.mem_filter.mp hx
    exact h x.1 x.2 (SortedMap.get?_eq_some_iff.mpr hmem) hemulation
  have hlength := (hkeys.subperm hsubset).length_le
  rw [List.length_map] at hlength
  rwa [Engine.emulationNodes, SortedMap.values, List.filter_map, List.length_map]

namespace Scenario

variable {σ : Type} {s : Scenario} {area : WalkArea} {seed : Nat} {backend : Backend σ}
  {tunnels : Part σ Ownership.Tunnels} {world : σ} {e e' : Engine σ Course}

/-- The engines that the one of a scenario is led to.  A walk knows nothing of nodes that are made known
later, so these are no emulation nodes where the scenario has a single one. -/
inductive Drives (s : Scenario) (backend : Backend σ) (tunnels : Part σ Ownership.Tunnels)
    (world : σ) : Engine σ Course → Prop
  | built {e : Engine σ Course} (h : s.engine backend tunnels world = .ok e) :
      Drives s backend tunnels world e
  | onSetup {e : Engine σ Course} (h : Drives s backend tunnels world e)
      (hook : ConnectionStore → σ → σ) : Drives s backend tunnels world (e.onSetup hook)
  | perform {e : Engine σ Course} {op : Operation} (h : Drives s backend tunnels world e)
      (hop : ∀ node, op = .addNode node → 1 < s.nodeCount ∨ node.isEmulation = false) :
      Drives s backend tunnels world (e.perform op)
  | reset {e : Engine σ Course} (h : Drives s backend tunnels world e) :
      Drives s backend tunnels world e.reset

/-- An engine whose nodes are on the walk of a scenario. -/
structure Walks (s : Scenario) (area : WalkArea) (e : Engine σ Course) : Prop where
  walk : ∃ w, e.movement = some (.randomWalk w) ∧ w.Roams area s.nodeIds
  known : 1 < s.nodeCount ∨
    ∀ id node, e.nodes.get? id = some node → node.isEmulation = true → id ∈ s.nodeIds

namespace Walks

theorem congr (h : s.Walks area e) (hmovement : e'.movement = e.movement)
    (hnodes : e'.nodes = e.nodes) : s.Walks area e' := by
  obtain ⟨hwalk, hknown⟩ := h
  exact ⟨by rwa [hmovement], by rwa [hnodes]⟩

/-- The next step takes its distances from a walk of the same nodes. -/
theorem of_nextMovement? (h : s.Walks area e) {m : Course} (hm : e.nextMovement? = some (.ok m)) :
    ∃ w, m = .randomWalk w ∧ w.Roams area s.nodeIds := by
  obtain ⟨w, hw, hroams⟩ := h.walk
  rw [Engine.nextMovement?, hw] at hm
  have hm := Option.some.inj hm
  split at hm
  · exact ⟨w, (Except.ok.inj hm).symm, hroams⟩
  · change w.advance.map Course.randomWalk = .ok m at hm
    cases hw' : w.advance with
    | error fault =>
      rw [hw'] at hm
      cases hm
    | ok w' =>
      rw [hw'] at hm
      exact ⟨w', (Except.ok.inj hm).symm, RandomWalk.roams_of_advance hroams hw'⟩

/-- What an operation leaves of an engine. -/
theorem perform (h : s.Walks area e) {op : Operation}
    (hop : ∀ node, op = .addNode node → 1 < s.nodeCount ∨ node.isEmulation = false) :
    s.Walks area (e.perform op) := by
  have happly : ∀ {e : Engine σ Course} (distances : DistanceMatrix), s.Walks area e →
      s.Walks area (e.applyDistances distances).2 := by
    intro e distances h
    refine h.congr (Engine.applyDistances_movement e distances) ?_
    rw [Engine.applyDistances]
    dsimp only
    split <;> rfl
  cases op with
  | connectManagement => exact h.congr rfl rfl
  | apply distances => exact happly distances h
  | addNode node =>
    rw [Engine.perform, Engine.addNode]
    split
    · rename_i hadd
      split at hadd
      · cases hadd
      · obtain rfl := Except.ok.inj hadd
        refine ⟨h.walk, ?_⟩
        rcases hop node rfl with hmany | hother
        · exact .inl hmany
        · refine h.known.imp_right fun hknown id known hget hemulation => ?_
          change (e.nodes.insert node.id node).get? id = some known at hget
          by_cases hid : node.id = id
          · subst hid
            rw [SortedMap.get?_insert_self] at hget
            obtain rfl := Option.some.inj hget
            rw [hother] at hemulation
            cases hemulation
          · rw [SortedMap.get?_insert_of_ne _ _ hid] at hget
            exact hknown id known hget hemulation
    · exact h
  | step =>
    have hmoving : ∀ {m}, e.nextMovement? = some (.ok m) → s.Walks area (e.moving (some m)) := by
      intro m hm
      obtain ⟨w, rfl, hroams⟩ := h.of_nextMovement? hm
      exact ⟨⟨w, rfl, hroams⟩, h.known⟩
    show s.Walks area e.runStep.2
    rcases e.runStep_cases with ⟨-, hrun⟩ | ⟨fault, -, hrun⟩ | ⟨m, hm, ⟨-, hrun⟩ | ⟨-, hrun⟩⟩ <;>
      rw [hrun]
    · exact h
    · exact h
    · exact hmoving hm
    · exact happly _ (hmoving hm)

/-- Distances are never lacking: of two nodes there is a pair, and one node needs none. -/
theorem not_lacks (h : s.Walks area e) (hs : s.Valid) {w : RandomWalk}
    (hw : w.Roams area s.nodeIds) : ¬ e.Lacks w.distances := by
  have hlength : s.nodeIds.length = s.nodeCount := by simp [nodeIds]
  intro hlacks
  rw [Engine.Lacks, Bool.and_eq_true, decide_eq_true_eq] at hlacks
  obtain ⟨hempty, hmany⟩ := hlacks
  -- several nodes are known, so the walk is of several
  have hseveral : 1 < s.nodeCount := by
    rcases h.known with hseveral | hknown
    · exact hseveral
    · have hnodes := Engine.length_emulationNodes_le hknown
      omega
  have hsize := hw.reportsPairs.size
  rw [hs.nodeIds_nodup.dedup, hlength, SortedMap.size, List.isEmpty_iff.mp hempty, List.length_nil,
    Nat.mul_comm] at hsize
  have hpairs : 1 * 2 ≤ (s.nodeCount - 1) * s.nodeCount := Nat.mul_le_mul (by omega) hseveral
  omega

end Walks

/-- A new engine has the nodes of the scenario on a walk that has just begun. -/
theorem walks_of_engine (hs : s.Valid) (hplan : s.movement = .randomWalk area seed)
    (h : s.engine backend tunnels world = .ok e) : s.Walks area e := by
  rw [engine] at h
  obtain ⟨-, -, h⟩ := exists_of_bind h
  obtain ⟨model, -, h⟩ := exists_of_bind h
  obtain ⟨c, hcourse, h⟩ := exists_of_bind h
  obtain ⟨nodes, hnodes, h⟩ := exists_of_bind h
  have hadd := eq_ok_of_mapError h
  have hwalk : ∃ w, c = .randomWalk w ∧ w.Roams area s.nodeIds := by
    rw [course, hplan] at hcourse
    dsimp only at hcourse
    cases hstart : RandomWalk.start s.nodeIds area seed with
    | error fault =>
      rw [hstart] at hcourse
      cases hcourse
    | ok w =>
      rw [hstart] at hcourse
      exact ⟨w, (Except.ok.inj hcourse).symm, RandomWalk.roams_of_start hstart⟩
  obtain ⟨w, rfl, hroams⟩ := hwalk
  refine ⟨⟨w, ?_, hroams⟩, .inr fun id node hget hemulation => ?_⟩
  · rw [Engine.addNodes_eq hadd]
    rfl
  · rcases (Engine.known_of_addNodes hadd id node).mp hget with hnone | ⟨hmem, rfl⟩
    · cases hnone
    · rw [← (hs.populated_nodes (eq_ok_of_mapError hnodes)).emulated]
      exact List.mem_map_of_mem (List.mem_filter.mpr ⟨hmem, hemulation⟩)

/-- Every engine that the one of a scenario with a walk is led to has its nodes on that walk. -/
theorem Drives.walks (h : s.Drives backend tunnels world e) (hs : s.Valid)
    (hplan : s.movement = .randomWalk area seed) : s.Walks area e := by
  induction h with
  | built h => exact walks_of_engine hs hplan h
  | onSetup _ hook ih => exact ih.congr rfl rfl
  | perform _ hop ih => exact ih.perform hop
  | reset _ ih => exact ih.congr rfl rfl

/-- Whatever list of nodes a walk is begun with and however many steps it makes, it reports each pair of
distinct nodes once.  So a step of an engine with the walk of a scenario that passes validation never
fails for want of distances, whatever was done to the engine before. -/
theorem walk_reports_pairs :
    (∀ (ids : List NodeId) (area : WalkArea) (seed n : Nat) (w : RandomWalk),
      RandomWalk.walked ids area seed n = .ok w → w.ReportsPairs ids) ∧
    ∀ {σ : Type} (s : Scenario) (area : WalkArea) (seed : Nat) (backend : Backend σ)
      (tunnels : Part σ Ownership.Tunnels) (world : σ) (e : Engine σ Course),
      s.validate = .ok () → s.movement = .randomWalk area seed → s.Drives backend tunnels world e →
        ∀ step, e.runStep.1 ≠ .error (.refused (.emptyDistanceMatrix step)) := by
  refine ⟨fun ids area seed n w hw => (RandomWalk.roams_of_walked hw).reportsPairs, ?_⟩
  intro σ s area seed backend tunnels world e hs hplan hdrives step hfails
  have hvalid := valid_of_validate hs
  have hwalks := hdrives.walks hvalid hplan
  rcases (e.runStep_error_iff _).mp hfails with ⟨-, heq⟩ | ⟨fault, -, heq⟩ | ⟨m, hm, hlacks, -⟩
  · cases heq
  · cases heq
  · obtain ⟨w, rfl, hroams⟩ := hwalks.of_nextMovement? hm
    exact hwalks.not_lacks hvalid hroams hlacks

/-- A list in which a node comes twice is reported, and where nothing is said an engine gets to its first
step. -/
theorem standard_reports_pairs :
    (∃ w, RandomWalk.walked [.ofNat 3, .ofNat 1, .ofNat 3] ⟨100.0, 100.0, 5.0⟩ 42 10 = .ok w ∧
      w.ReportsPairs [.ofNat 3, .ofNat 1, .ofNat 3]) ∧
    standard.validate = .ok () ∧ ∃ e : Engine Ownership.Tunnels Course,
      standard.engine .silent ⟨id, fun t _ => t⟩ .empty = .ok e ∧
        ∀ step, e.runStep.1 ≠ .error (.refused (.emptyDistanceMatrix step)) := by
  have hvalidate : standard.validate = .ok () := by decide +kernel
  have hstep := (moderate_maxStep hvalidate rfl).upright
  have hwalk : ∃ w, RandomWalk.walked [.ofNat 3, .ofNat 1, .ofNat 3] ⟨100.0, 100.0, 5.0⟩ 42 10 =
      .ok w := by
    refine (RandomWalk.succeeds_walked ?_ ?_ hstep (List.cons_ne_nil _ _) 42 10).1.mpr
      ⟨?_, ?_, .inr ?_⟩ <;> decide +kernel
  obtain ⟨w, hw⟩ := hwalk
  have hengine := (valid_of_validate hvalidate).succeeds_engine hvalidate .silent
    (⟨id, fun t _ => t⟩ : Part Ownership.Tunnels Ownership.Tunnels) .empty
  obtain ⟨e, he⟩ := hengine.1.mpr ⟨⟨by decide +kernel, by decide +kernel⟩, fun kind => by
    cases kind <;> decide⟩
  exact ⟨⟨w, hw, walk_reports_pairs.1 _ _ _ _ w hw⟩, hvalidate, e, he,
    walk_reports_pairs.2 _ _ _ _ _ _ e hvalidate rfl (.built he)⟩

end Scenario

end ProximityNet
