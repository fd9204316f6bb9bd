import ProximityNet.Proofs.Receding
import ProximityNet.Proofs.Wiring

/-!
# What is different between two matrices

The changes from one matrix to the next are all the pairs at which the two differ, and nothing else.
Distances are compared as numbers, so the two zeros are no difference, and a pair that is gone is one
even if it was out of range.  Of how a matrix was written nothing is seen but the last distance
between any two nodes.

* `SortedMap.beq_iff` — maps are equal when all their lookups are;
* `DistanceMatrix.Differ` — the two matrices say different things of a pair;
* `change_eq_none_iff`, `contains_changesSince_iff` — exactly these pairs have changed;
* `isEmpty_changesSince_iff` — nothing has changed between equal matrices only;
* `lastBetween?`, `between?_ofEntries` — what a list of entries says of two nodes;
* `changes_exact` — all of it.
-/

namespace ProximityNet

/-! ### Equal maps -/

namespace SortedMap

variable {κ ν : Type} [Ranked κ]

/-- What two ascending lists have under a key goes together if their entries do one by one. -/
theorem rel_find_of_forall₂ {R : ν → ν → Prop} {l l' : List (κ × ν)}
    (h : List.Forall₂ (fun e e' => e.1 = e'.1 ∧ R e.2 e'.2) l l') (k : κ) :
    Option.Rel R (find k l) (find k l') := by
  induction h with
  | nil => exact .none
  | @cons e e' rest rest' hhead _ ih =>
    obtain ⟨hkey, hvalue⟩ := hhead
    rw [find, find, hkey]
    split
    · exact .some hvalue
    · exact ih

variable [BEq ν]

theorem agrees_iff {l l' : List (κ × ν)} :
    agrees l l' = true ↔ List.Forall₂ (fun e e' => e.1 = e'.1 ∧ (e.2 == e'.2) = true) l l' := by
  induction l generalizing l' with
  | nil => cases l' <;> simp [agrees]
  | cons e rest ih =>
    cases l' with
    | nil => simp [agrees]
    | cons e' rest' => simp [agrees, ih]

/-- Maps are equal when they have equal values under every key, or none. -/
theorem beq_iff {m m' : SortedMap κ ν} :
    (m == m') = true ↔ ∀ k, Option.Rel (fun v w => (v == w) = true) (m.get? k) (m'.get? k) :=
  ⟨fun h => rel_find_of_forall₂ (agrees_iff.mp h), fun h => agrees_iff.mpr (forall₂_entries h)⟩

end SortedMap

/-! ### Entries -/

/-- An entry gives the distance between these two nodes, in either order. -/
def DistanceEntry.Joins (x : DistanceEntry) (a b : NodeId) : Prop :=
  (x.a = a ∧ x.b = b) ∨ (x.a = b ∧ x.b = a)

instance (x : DistanceEntry) (a b : NodeId) : Decidable (x.Joins a b) :=
  inferInstanceAs (Decidable (_ ∨ _))

/-- The last distance between two nodes in a list of entries. -/
def lastBetween? (a b : NodeId) : List DistanceEntry → Option Distance
  | [] => none
  | x :: rest => (lastBetween? a b rest).or (if x.Joins a b then some x.distance else none)

namespace NodePair

variable {a b x y : NodeId} {p q : NodePair}

theorem of?_comm (a b : NodeId) : of? a b = of? b a := by
  rw [of?, of?]
  rcases Nat.lt_trichotomy a.toNat b.toNat with hlt | heq | hgt
  · rw [if_pos hlt, if_neg (Nat.lt_asymm hlt), if_pos hlt]
  · rw [heq]
    simp
  · rw [if_neg (Nat.lt_asymm hgt), if_pos hgt, if_pos hgt]

/-- A node makes no pair with itself, and with every other one. -/
theorem of?_eq_none_iff : of? a b = none ↔ a = b := by
  rw [of?]
  constructor
  · intro h
    split at h
    · cases h
    · split at h
      · cases h
      · exact rank_injective a b (show a.toNat = b.toNat by omega)
  · rintro rfl
    rw [if_neg (Nat.lt_irrefl _), if_neg (Nat.lt_irrefl _)]

/-- Two pairs of nodes are one pair when their nodes are the same, in either order. -/
theorem eq_iff_of_of? (hp : of? x y = some p) (hq : of? a b = some q) :
    p = q ↔ (x = a ∧ y = b) ∨ (x = b ∧ y = a) := by
  constructor
  · rintro rfl
    rcases eq_of_of? hp with rfl | rfl <;> rcases eq_of_of? hq with h | h <;>
      obtain ⟨rfl, rfl⟩ := NodePair.mk.inj h
    · exact .inl ⟨rfl, rfl⟩
    · exact .inr ⟨rfl, rfl⟩
    · exact .inr ⟨rfl, rfl⟩
    · exact .inl ⟨rfl, rfl⟩
  · rintro (⟨rfl, rfl⟩ | ⟨rfl, rfl⟩)
    · exact Option.some.inj (hp.symm.trans hq)
    · rw [of?_comm] at hq
      exact Option.some.inj (hp.symm.trans hq)

/-- A pair that two nodes make is the pair of its own nodes. -/
theorem of?_self (h : of? a b = some p) : of? p.low p.high = some p := by
  rcases eq_of_of? h with rfl | rfl
  · exact h
  · rwa [of?_comm] at h

end NodePair

namespace DistanceMatrix

/-- A matrix of entries has distances of pairs that two nodes make, and of no others. -/
theorem of?_of_ofEntries {l : List DistanceEntry} {m : DistanceMatrix} (h : ofEntries l = .ok m)
    {pair : NodePair} (hnone : NodePair.of? pair.low pair.high ≠ some pair) :
    m.get? pair = none := by
  refine ofEntries_induction (P := fun m => m.get? pair = none) rfl (fun m m' x hm hset => ?_) h
  rw [set, NodePair.make] at hset
  cases hp : NodePair.of? x.a x.b with
  | none =>
    rw [hp] at hset
    cases hset
  | some p =>
    rw [hp] at hset
    obtain rfl := Except.ok.inj hset
    have hne : p ≠ pair := by
      rintro rfl
      exact hnone (NodePair.of?_self hp)
    exact (SortedMap.get?_insert_of_ne m _ hne).trans hm

/-- An entry decides about the nodes that it joins and about no others. -/
theorem between?_set {m m' : DistanceMatrix} {x : DistanceEntry}
    (h : m.set x.a x.b x.distance = .ok m') (a b : NodeId) :
    m'.between? a b = if x.Joins a b then some x.distance else m.between? a b := by
  rw [set, NodePair.make] at h
  cases hp : NodePair.of? x.a x.b with
  | none =>
    rw [hp] at h
    cases h
  | some p =>
    rw [hp] at h
    obtain rfl := Except.ok.inj h
    rw [between?, between?]
    cases hq : NodePair.of? a b with
    | none =>
      -- a node is joined with itself by no entry, since that could not have been set
      have hjoins : ¬ x.Joins a b := by
        obtain rfl := NodePair.of?_eq_none_iff.mp hq
        rintro (⟨ha, hb⟩ | ⟨ha, hb⟩) <;> rw [ha, hb, hq] at hp <;> cases hp
      rw [if_neg hjoins]
      rfl
    | some q =>
      rw [Option.bind_some, Option.bind_some, SortedMap.get?_insert]
      exact if_congr (rank_inj.trans (NodePair.eq_iff_of_of? hp hq)) rfl rfl

/-- A matrix of entries has the last distance that they give two nodes, whatever the order of the
others and of the nodes in each. -/
theorem between?_ofEntries {l : List DistanceEntry} {m : DistanceMatrix} (h : ofEntries l = .ok m)
    (a b : NodeId) : m.between? a b = lastBetween? a b l := by
  have onto : ∀ m₀ : DistanceMatrix, ofEntriesOnto m₀ l = .ok m →
      m.between? a b = (lastBetween? a b l).or (m₀.between? a b) := by
    clear h
    induction l with
    | nil =>
      intro m₀ h
      rw [← Except.ok.inj h]
      rfl
    | cons x rest ih =>
      intro m₀ h
      rw [ofEntriesOnto] at h
      split at h
      · rename_i m₁ hset
        rw [ih m₁ h, between?_set hset, lastBetween?, Option.or_assoc]
        split <;> rfl
      · cases h
  have hempty : between? .empty a b = none := by
    rw [between?]
    cases NodePair.of? a b <;> rfl
  rw [onto .empty h, hempty, Option.or_none]

/-! ### Changes -/

/-- A pair is in only one of two matrices, or in both at distances that are different numbers. -/
inductive Differ (m m' : DistanceMatrix) (pair : NodePair) : Prop
  | first {d : Distance} (h : m.get? pair = some d) (h' : m'.get? pair = none)
  | second {d : Distance} (h : m.get? pair = none) (h' : m'.get? pair = some d)
  | both {d d' : Distance} (h : m.get? pair = some d) (h' : m'.get? pair = some d')
    (hne : (d.value == d'.value) = false)

/-- Nothing is reported of a pair that has no distance before and after, or equal ones. -/
theorem change_eq_none_iff {now before : Option Distance} :
    change now before = none ↔ Option.Rel (fun d d' => (d == d') = true) now before := by
  refine ⟨fun h => ?_, change_of_rel⟩
  cases now with
  | none =>
    cases before with
    | none => exact .none
    | some d' => cases h
  | some d =>
    cases before with
    | none => cases h
    | some d' =>
      rw [change] at h
      split at h
      · rename_i heq
        exact .some heq
      · cases h

variable {m m' earlier : DistanceMatrix} {pair : NodePair}

theorem differ_iff :
    m.Differ m' pair ↔
      ¬ Option.Rel (fun d d' => (d == d') = true) (m.get? pair) (m'.get? pair) := by
  constructor
  · intro hdiffer hrel
    cases hdiffer with
    | first h h' =>
      rw [h, h'] at hrel
      cases hrel
    | second h h' =>
      rw [h, h'] at hrel
      cases hrel
    | both h h' hne =>
      rw [h, h'] at hrel
      cases hrel with
      | some heq => exact Bool.false_ne_true (hne.symm.trans heq)
  · intro hrel
    cases h : m.get? pair with
    | none =>
      cases h' : m'.get? pair with
      | none =>
        rw [h, h'] at hrel
        exact absurd .none hrel
      | some d' => exact .second h h'
    | some d =>
      cases h' : m'.get? pair with
      | none => exact .first h h'
      | some d' =>
        rw [h, h'] at hrel
        exact .both h h' (Bool.eq_false_iff.mpr fun heq => hrel (.some heq))

theorem contains_changesSince_iff :
    (m.changesSince earlier).contains pair = true ↔ m.Differ earlier pair := by
  rw [differ_iff, ← change_eq_none_iff, ← get?_changesSince, SortedMap.contains,
    Option.isSome_iff_ne_none]

theorem isEmpty_changesSince_iff :
    (m.changesSince earlier).isEmpty = true ↔ (m == earlier) = true := by
  rw [SortedMap.isEmpty_iff, SortedMap.beq_iff]
  refine forall_congr' fun pair => ?_
  rw [get?_changesSince, change_eq_none_iff]

/-- The changes from an earlier matrix are the pairs at which the two differ, each with the distance
that it has now, or the unlimited one if it is gone.  There are none exactly if the matrices are
equal; for matrices of entries that is, if the last distances they give any two nodes are. -/
theorem changes_exact (m earlier : DistanceMatrix) :
    (∀ pair, (m.changesSince earlier).contains pair = true ↔ m.Differ earlier pair) ∧
    (∀ pair d, (m.changesSince earlier).get? pair = some d →
      d = (m.get? pair).getD .unlimited) ∧
    ((m.changesSince earlier).isEmpty = true ↔ (m == earlier) = true) ∧
    ∀ l l', ofEntries l = .ok m → ofEntries l' = .ok earlier →
      ((m.changesSince earlier).isEmpty = true ↔
        ∀ a b, Option.Rel (fun d d' => (d == d') = true) (lastBetween? a b l)
          (lastBetween? a b l')) := by
  refine ⟨fun pair => contains_changesSince_iff, fun pair d h => ?_, isEmpty_changesSince_iff,
    fun l l' hl hl' => ?_⟩
  · rw [get?_changesSince] at h
    exact (getD_of_change h).symm
  · rw [isEmpty_changesSince_iff, SortedMap.beq_iff]
    simp only [← between?_ofEntries hl, ← between?_ofEntries hl', between?]
    constructor
    · intro h a b
      cases NodePair.of? a b with
      | none => exact .none
      | some pair => exact h pair
    · intro h pair
      by_cases hof : NodePair.of? pair.low pair.high = some pair
      · have hpair := h pair.low pair.high
        rw [hof] at hpair
        exact hpair
      · rw [of?_of_ofEntries hl hof, of?_of_ofEntries hl' hof]
        exact .none

/-- The two zeros are no change, and a pair that goes is one even if it was out of range. -/
example : ((apart ⟨-0.0, by decide⟩).changesSince (apart .zero)).isEmpty = true ∧
    (changesSince .empty (apart .unlimited)).values = [.unlimited] := by
  decide +kernel

end DistanceMatrix

end ProximityNet
