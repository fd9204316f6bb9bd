import ProximityNet.Link.Store
import ProximityNet.Proofs.Maps

/-!
# Partitions through their lookups

A partition is a map of maps.  `Partition.find?` looks a connection up under both of its keys, and a
partition in which no pair of nodes stands with an empty inner map (`NoEmpty`) is known by these
lookups:

* `find?_put`, `find?_remove` — what writing and removing do to every lookup;
* `NoEmpty.put`, `NoEmpty.remove` — both keep the partition free of empty inner maps;
* `NoEmpty.ext` — partitions with the same lookups are the same partition;
* `mem_connections_iff`, `connections_nodup`, `forall₂_connections` — the list of all connections;
* `count_eq`, `NoEmpty.isEmpty_iff` — how many there are, and whether there are any.
-/

namespace ProximityNet.Partition

/-- No pair of nodes stands in the partition without a connection. -/
def NoEmpty (p : Partition) : Prop :=
  ∀ pair inner, p.get? pair = some inner → inner.isEmpty = false

theorem find?_eq {p : Partition} {pair : NodePair} {i : InterfacePair} {inner}
    (h : p.get? pair = some inner) : p.find? pair i = inner.get? i := by
  rw [find?, h]
  rfl

theorem find?_eq_none {p : Partition} {pair : NodePair} (i : InterfacePair)
    (h : p.get? pair = none) : p.find? pair i = none := by
  rw [find?, h]
  rfl

theorem find?_eq_get?_ofPair (p : Partition) (pair : NodePair) (i : InterfacePair) :
    p.find? pair i = (p.ofPair pair).get? i := by
  rw [find?, ofPair]
  cases p.get? pair <;> rfl

@[simp] theorem find?_empty (pair : NodePair) (i : InterfacePair) :
    find? SortedMap.empty pair i = none := rfl

theorem noEmpty_empty : NoEmpty SortedMap.empty := by
  intro pair inner h
  cases h

/-! ### Writing and removing -/

theorem find?_put (p : Partition) (pair : NodePair) (i : InterfacePair) (c : Connection)
    (pair' : NodePair) (i' : InterfacePair) :
    (p.put pair i c).find? pair' i' =
      if pair = pair' ∧ i = i' then some c else p.find? pair' i' := by
  by_cases hp : pair = pair'
  · subst hp
    rw [put, find?_eq (SortedMap.get?_insert_self p pair _), SortedMap.get?_insert,
      ← find?_eq_get?_ofPair]
    simp
  · rw [find?, put, SortedMap.get?_insert_of_ne p _ hp, if_neg (fun h => hp h.1)]
    rfl

theorem find?_remove (p : Partition) (pair : NodePair) (i : InterfacePair)
    (pair' : NodePair) (i' : InterfacePair) :
    (p.remove pair i).find? pair' i' =
      if pair = pair' ∧ i = i' then none else p.find? pair' i' := by
  cases hg : p.get? pair with
  | none =>
    have hsame : p.remove pair i = p := by rw [remove, hg]
    rw [hsame]
    by_cases hp : pair = pair'
    · subst hp
      simp [find?_eq_none _ hg]
    · simp [hp]
  | some inner =>
    have hinner : p.remove pair i =
        if (inner.erase i).isEmpty then p.erase pair else p.insert pair (inner.erase i) := by
      rw [remove, hg]
    rw [hinner]
    by_cases hp : pair = pair'
    · subst hp
      have hlook : (inner.erase i).get? i' = if i = i' then none else p.find? pair i' := by
        rw [SortedMap.get?_erase, find?_eq hg]
        simp only [rank_inj]
      simp only [true_and]
      rw [← hlook]
      split
      · rename_i hempty
        rw [find?_eq_none _ (SortedMap.get?_erase_self p pair),
          SortedMap.isEmpty_iff.mp hempty]
      · exact find?_eq (SortedMap.get?_insert_self p pair _)
    · have hother : ¬(pair = pair' ∧ i = i') := fun h => hp h.1
      rw [if_neg hother]
      split
      · rw [find?, SortedMap.get?_erase_of_ne p hp]
        rfl
      · rw [find?, SortedMap.get?_insert_of_ne p _ hp]
        rfl

theorem NoEmpty.put {p : Partition} (h : p.NoEmpty) (pair : NodePair) (i : InterfacePair)
    (c : Connection) : (p.put pair i c).NoEmpty := by
  intro pair' inner hg
  by_cases hp : pair = pair'
  · subst hp
    rw [Partition.put, SortedMap.get?_insert_self, Option.some.injEq] at hg
    rw [← hg]
    exact SortedMap.isEmpty_eq_false_iff.mpr ⟨i, c, SortedMap.get?_insert_self _ _ _⟩
  · rw [Partition.put, SortedMap.get?_insert_of_ne p _ hp] at hg
    exact h pair' inner hg

theorem NoEmpty.remove {p : Partition} (h : p.NoEmpty) (pair : NodePair) (i : InterfacePair) :
    (p.remove pair i).NoEmpty := by
  intro pair' inner hg
  rw [Partition.remove] at hg
  cases hpair : p.get? pair with
  | none =>
    rw [hpair] at hg
    exact h pair' inner hg
  | some found =>
    rw [hpair] at hg
    simp only at hg
    by_cases hp : pair = pair'
    · subst hp
      split at hg
      · rw [SortedMap.get?_erase_self] at hg
        cases hg
      · rename_i hempty
        rw [SortedMap.get?_insert_self, Option.some.injEq] at hg
        rw [← hg]
        simpa using hempty
    · split at hg
      · rw [SortedMap.get?_erase_of_ne p hp] at hg
        exact h pair' inner hg
      · rw [SortedMap.get?_insert_of_ne p _ hp] at hg
        exact h pair' inner hg

/-! ### What a partition holds -/

theorem NoEmpty.get?_eq_some {p : Partition} (h : p.NoEmpty) {pair : NodePair} {inner}
    (hg : p.get? pair = some inner) : ∃ i c, p.find? pair i = some c := by
  obtain ⟨i, c, hc⟩ := SortedMap.isEmpty_eq_false_iff.mp (h pair inner hg)
  exact ⟨i, c, by rw [find?_eq hg, hc]⟩

theorem get?_of_find? {p : Partition} {pair : NodePair} {i : InterfacePair} {c : Connection}
    (h : p.find? pair i = some c) : ∃ inner, p.get? pair = some inner ∧ inner.get? i = some c := by
  rw [find?, Option.bind_eq_some_iff] at h
  exact h

/-- Partitions with the same lookups have the same pairs of nodes, with related inner maps. -/
theorem NoEmpty.rel_get? {R : Connection → Connection → Prop} {p q : Partition} (hp : p.NoEmpty)
    (hq : q.NoEmpty) (h : ∀ pair i, Option.Rel R (p.find? pair i) (q.find? pair i))
    (pair : NodePair) :
    Option.Rel (fun a b => ∀ i, Option.Rel R (a.get? i) (b.get? i)) (p.get? pair) (q.get? pair) := by
  cases ha : p.get? pair with
  | none =>
    cases hb : q.get? pair with
    | none => exact Option.Rel.none
    | some inner =>
      obtain ⟨i, c, hc⟩ := hq.get?_eq_some hb
      have hrel := h pair i
      rw [find?_eq_none i ha, hc] at hrel
      cases hrel
  | some inner =>
    cases hb : q.get? pair with
    | none =>
      obtain ⟨i, c, hc⟩ := hp.get?_eq_some ha
      have hrel := h pair i
      rw [find?_eq_none i hb, hc] at hrel
      cases hrel
    | some inner' =>
      refine Option.Rel.some fun i => ?_
      have hrel := h pair i
      rwa [find?_eq ha, find?_eq hb] at hrel

/-- Partitions with the same lookups are the same partition. -/
theorem NoEmpty.ext {p q : Partition} (hp : p.NoEmpty) (hq : q.NoEmpty)
    (h : ∀ pair i, p.find? pair i = q.find? pair i) : p = q := by
  apply SortedMap.ext_get?
  intro pair
  have hrel := hp.rel_get? hq (fun pair i => SortedMap.rel_eq_iff.mpr (h pair i)) pair
  cases ha : p.get? pair with
  | none =>
    rw [ha] at hrel
    cases hb : q.get? pair with
    | none => rfl
    | some inner' => rw [hb] at hrel; cases hrel
  | some inner =>
    rw [ha] at hrel
    cases hb : q.get? pair with
    | none => rw [hb] at hrel; cases hrel
    | some inner' =>
      rw [hb] at hrel
      cases hrel with
      | some hi => exact congrArg some (SortedMap.ext_get? fun i => SortedMap.rel_eq_iff.mp (hi i))

theorem mem_connections_iff {p : Partition} {c : Connection} :
    c ∈ p.connections ↔ ∃ pair i, p.find? pair i = some c := by
  rw [connections, List.mem_flatMap]
  constructor
  · rintro ⟨⟨pair, inner⟩, he, hc⟩
    obtain ⟨i, hi⟩ := SortedMap.mem_values_iff.mp hc
    exact ⟨pair, i, by rw [find?_eq (SortedMap.get?_eq_some_iff.mpr he), hi]⟩
  · rintro ⟨pair, i, hc⟩
    obtain ⟨inner, hinner, hi⟩ := get?_of_find? hc
    exact ⟨(pair, inner), SortedMap.get?_eq_some_iff.mp hinner, SortedMap.mem_values_iff.mpr ⟨i, hi⟩⟩

/-- Partitions whose lookups are related list related connections in the same order. -/
theorem NoEmpty.forall₂_connections {R : Connection → Connection → Prop} {p q : Partition}
    (hp : p.NoEmpty) (hq : q.NoEmpty)
    (h : ∀ pair i, Option.Rel R (p.find? pair i) (q.find? pair i)) :
    List.Forall₂ R p.connections q.connections := by
  have hentries := SortedMap.forall₂_entries (hp.rel_get? hq h)
  rw [connections, connections]
  generalize p.entries = l at hentries
  generalize q.entries = l' at hentries
  induction hentries with
  | nil => exact List.Forall₂.nil
  | cons he _ ih =>
    rw [List.flatMap_cons, List.flatMap_cons]
    exact List.rel_append (SortedMap.forall₂_values he.2) ih

/-- A partition in which every connection stands under its own keys lists none twice. -/
theorem connections_nodup {p : Partition}
    (h : ∀ pair i c, p.find? pair i = some c → c.pair = pair ∧ c.interfaces = i) :
    p.connections.Nodup := by
  rw [connections, List.nodup_flatMap]
  constructor
  · rintro ⟨pair, inner⟩ he
    have hinner := SortedMap.get?_eq_some_iff.mpr he
    -- the connections of one pair differ in their interfaces
    show (inner.entries.map (·.2)).Nodup
    refine (List.nodup_map_iff_inj_on inner.entries_nodup).mpr ?_
    rintro ⟨i, c⟩ hc ⟨i', c'⟩ hc' heq
    obtain rfl : c = c' := heq
    have hi := (h pair i c (by rw [find?_eq hinner, SortedMap.get?_eq_some_iff.mpr hc])).2
    have hi' := (h pair i' c (by rw [find?_eq hinner, SortedMap.get?_eq_some_iff.mpr hc'])).2
    rw [← hi, ← hi']
  · refine p.ascending.imp_of_mem ?_
    rintro ⟨pair, inner⟩ ⟨pair', inner'⟩ he he' hlt c hc hc'
    obtain ⟨i, hi⟩ := SortedMap.mem_values_iff.mp hc
    obtain ⟨i', hi'⟩ := SortedMap.mem_values_iff.mp hc'
    have hfind : p.find? pair i = some c := by
      rw [find?_eq (SortedMap.get?_eq_some_iff.mpr he), hi]
    have hfind' : p.find? pair' i' = some c := by
      rw [find?_eq (SortedMap.get?_eq_some_iff.mpr he'), hi']
    have heq : pair = pair' := (h pair i c hfind).1.symm.trans (h pair' i' c hfind').1
    rw [heq] at hlt
    exact Nat.lt_irrefl _ hlt

/-- A partition counts the connections that it lists. -/
theorem count_eq (p : Partition) : p.count = p.connections.length := by
  rw [count, connections, SortedMap.values]
  induction p.entries with
  | nil => rfl
  | cons e rest ih =>
    rw [List.flatMap_cons, List.length_append, ← ih, SortedMap.values, List.length_map]
    rfl

/-- Without empty inner maps a partition is empty when it lists no connection. -/
theorem NoEmpty.isEmpty_iff {p : Partition} (h : p.NoEmpty) :
    p.isEmpty = true ↔ p.connections = [] := by
  rw [SortedMap.isEmpty_iff, List.eq_nil_iff_forall_not_mem]
  simp only [mem_connections_iff]
  constructor
  · rintro hnone c ⟨pair, i, hc⟩
    rw [find?_eq_none i (hnone pair)] at hc
    cases hc
  · intro hno pair
    rw [Option.eq_none_iff_forall_ne_some]
    intro inner hinner
    obtain ⟨i, c, hc⟩ := h.get?_eq_some hinner
    exact hno c ⟨pair, i, hc⟩

theorem contains_iff {p : Partition} (h : p.NoEmpty) {pair : NodePair} :
    p.contains pair = true ↔ ∃ i c, p.find? pair i = some c := by
  rw [SortedMap.contains_iff]
  constructor
  · rintro ⟨inner, hinner⟩
    exact h.get?_eq_some hinner
  · rintro ⟨i, c, hc⟩
    obtain ⟨inner, hinner, _⟩ := get?_of_find? hc
    exact ⟨inner, hinner⟩

theorem mem_keys_ofPair_iff {p : Partition} {pair : NodePair} {i : InterfacePair} :
    i ∈ (p.ofPair pair).keys ↔ ∃ c, p.find? pair i = some c := by
  simp only [SortedMap.mem_keys_iff, find?_eq_get?_ofPair]

end ProximityNet.Partition
