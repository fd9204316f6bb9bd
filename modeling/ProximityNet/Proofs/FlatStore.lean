import ProximityNet.Proofs.StoreRuns

/-!
# The store against one flat map

What a caller can learn from the store does not depend on its two partitions.  A `FlatStore` is one
map from a pair of nodes and a pair of interfaces to a connection: storing overwrites, marking
changes the flag of the connection that stands there, and what is up and what is not are the
entries with and without the flag, each in the order of the keys.

* `LinkKey`, `LinkKey.rank_lt_iff` — both keys of a connection as one, ordered by the pair of nodes
  and then by the interfaces;
* `FlatStore.act` — what every operation of the store means on one map;
* `Partition.flat` — a partition as one map, with the connections, counts and keys of the partition;
* `Flattens.act` — one operation gets the same reply from a store and from the map it flattens to,
  and they still agree afterwards;
* `Flattens.replies`, `replies_flat` — so does every sequence of operations.
-/

namespace ProximityNet

/-- Both keys that a connection is filed under. -/
structure LinkKey where
  pair : NodePair
  interfaces : InterfacePair
deriving DecidableEq

theorem InterfacePair.rank_lt (i : InterfacePair) : rank i < 210453397504 := by
  calc rank i = rank i.low * 458752 + rank i.high := rfl
    _ < (rank i.low + 1) * 458752 := by
      rw [Nat.add_mul, Nat.one_mul]
      exact Nat.add_lt_add_left i.high.rank_lt _
    _ ≤ 458752 * 458752 := Nat.mul_le_mul_right _ i.low.rank_lt
    _ = 210453397504 := rfl

namespace LinkKey

instance : Ranked LinkKey where
  rank k := rank k.pair * 210453397504 + rank k.interfaces
  rank_injective := by
    rintro ⟨p, i⟩ ⟨p', i'⟩ h
    obtain ⟨hp, hi⟩ := eq_and_eq_of_places i.rank_lt i'.rank_lt h
    exact congr (congrArg mk (rank_injective _ _ hp)) (rank_injective _ _ hi)

/-- Going up in the order is going up in the pair of nodes, or staying there and going up in the
interfaces. -/
theorem rank_lt_iff {k l : LinkKey} :
    rank k < rank l ↔
      rank k.pair < rank l.pair ∨ (k.pair = l.pair ∧ rank k.interfaces < rank l.interfaces) := by
  have hk := k.interfaces.rank_lt
  have hl := l.interfaces.rank_lt
  rw [← rank_inj (a := k.pair)]
  show rank k.pair * 210453397504 + rank k.interfaces <
    rank l.pair * 210453397504 + rank l.interfaces ↔ _
  omega

end LinkKey

/-- All connections in one map, and the number of the next one. -/
structure FlatStore where
  records : SortedMap LinkKey Connection
  nextNumber : Nat

namespace FlatStore

def empty : FlatStore := ⟨.empty, 0⟩

/-- The entries that are up, or those that are not, in the order of their keys. -/
def standing (f : FlatStore) (active : Bool) : List (LinkKey × Connection) :=
  f.records.entries.filter fun e => e.2.connected = active

/-- The interfaces of a pair of nodes among the entries that are up, or those that are not. -/
def interfaces (f : FlatStore) (pair : NodePair) (active : Bool) : List InterfacePair :=
  ((f.standing active).filter fun e => e.1.pair = pair).map (·.1.interfaces)

/-- All connections, those that are up first. -/
def connections (f : FlatStore) : List Connection :=
  (f.standing true ++ f.standing false).map (·.2)

/-- Write one entry. -/
def write (f : FlatStore) (key : LinkKey) (c : Connection) : FlatStore :=
  { f with records := f.records.insert key c }

/-- Write what a change makes of the entry under a key, if there is one. -/
def change (f : FlatStore) (key : LinkKey) (g : Connection → Connection) : FlatStore :=
  match f.records.get? key with
  | some c => f.write key (g c)
  | none => f

/-- What an operation of the store means on one map. -/
def act (f : FlatStore) : StoreOperation → StoreReply × FlatStore
  | .freshId => (.id ⟨f.nextNumber⟩, { f with nextNumber := f.nextNumber + 1 })
  | .put c active =>
    (.record (f.records.get? ⟨c.pair, c.interfaces⟩),
      f.write ⟨c.pair, c.interfaces⟩ { c with connected := active })
  | .setActive pair interfaces active =>
    match f.records.get? ⟨pair, interfaces⟩ with
    | some c =>
      (.record (some { c with connected := active }),
        f.write ⟨pair, interfaces⟩ { c with connected := active })
    | none => (.failed (.missingConnection pair interfaces), f)
  | .edit pair interfaces g =>
    (.record (f.records.get? ⟨pair, interfaces⟩), f.change ⟨pair, interfaces⟩ g.apply)
  | .clear => (.done, .empty)
  | .find pair interfaces => (.record (f.records.get? ⟨pair, interfaces⟩), f)
  | .isActive pair interfaces =>
    (.flag ((f.records.get? ⟨pair, interfaces⟩).map (·.connected)), f)
  | .activeInterfaces pair => (.interfaces (f.interfaces pair true), f)
  | .inactiveInterfaces pair => (.interfaces (f.interfaces pair false), f)
  | .activeCount => (.count (f.standing true).length, f)
  | .inactiveCount => (.count (f.standing false).length, f)
  | .size => (.count f.records.size, f)
  | .isEmpty => (.truth f.records.isEmpty, f)
  | .containsPair pair => (.truth (f.records.keys.any fun k => k.pair = pair), f)
  | .byId id => (.record (f.connections.find? fun c => c.id = id), f)
  | .query filter => (.listed (f.connections.filter filter.accepts), f)

end FlatStore

/-! ### A partition as one map -/

namespace Partition

/-- The connections of one pair of nodes under both of their keys. -/
def row (e : NodePair × SortedMap InterfacePair Connection) : List (LinkKey × Connection) :=
  e.2.entries.map fun x => (⟨e.1, x.1⟩, x.2)

theorem pair_of_mem_row {e : NodePair × SortedMap InterfacePair Connection}
    {x : LinkKey × Connection} (h : x ∈ row e) : x.1.pair = e.1 := by
  obtain ⟨y, _, rfl⟩ := List.mem_map.mp h
  rfl

theorem ascending_row (e : NodePair × SortedMap InterfacePair Connection) :
    (row e).Pairwise fun a b => rank a.1 < rank b.1 := by
  rw [row, List.pairwise_map]
  refine e.2.ascending.imp fun {a b} hab => ?_
  exact LinkKey.rank_lt_iff.mpr (Or.inr ⟨rfl, hab⟩)

/-- All connections of a partition in one map. -/
def flat (p : Partition) : SortedMap LinkKey Connection where
  entries := p.entries.flatMap row
  ascending := by
    rw [List.pairwise_flatMap]
    refine ⟨fun e _ => ascending_row e, p.ascending.imp fun {e e'} hlt a ha b hb => ?_⟩
    rw [LinkKey.rank_lt_iff, pair_of_mem_row ha, pair_of_mem_row hb]
    exact Or.inl hlt

theorem get?_flat (p : Partition) (pair : NodePair) (i : InterfacePair) :
    p.flat.get? ⟨pair, i⟩ = p.find? pair i := by
  refine Option.ext fun c => ?_
  rw [SortedMap.get?_eq_some_iff, flat, List.mem_flatMap]
  constructor
  · rintro ⟨⟨pair', inner⟩, he, hx⟩
    obtain ⟨⟨i', c'⟩, hy, heq⟩ := List.mem_map.mp hx
    obtain ⟨⟨rfl, rfl⟩, rfl⟩ : (pair' = pair ∧ i' = i) ∧ c' = c := by simpa using heq
    rw [find?_eq (SortedMap.get?_eq_some_iff.mpr he), SortedMap.get?_eq_some_iff]
    exact hy
  · intro hc
    obtain ⟨inner, hinner, hi⟩ := get?_of_find? hc
    exact ⟨(pair, inner), SortedMap.get?_eq_some_iff.mp hinner,
      List.mem_map.mpr ⟨(i, c), SortedMap.get?_eq_some_iff.mp hi, rfl⟩⟩

theorem connections_eq_flat (p : Partition) : p.connections = p.flat.entries.map (·.2) := by
  rw [connections, flat, List.map_flatMap]
  refine List.flatMap_congr fun e _ => ?_
  rw [row, List.map_map]
  rfl

theorem count_eq_flat (p : Partition) : p.count = p.flat.entries.length := by
  rw [count_eq, connections_eq_flat, List.length_map]

/-- The rows of the other pairs hold nothing of this one. -/
theorem filter_row_of_ne {e : NodePair × SortedMap InterfacePair Connection} {pair : NodePair}
    (h : e.1 ≠ pair) : (row e).filter (fun x => x.1.pair = pair) = [] := by
  rw [List.filter_eq_nil_iff]
  intro x hx
  rw [pair_of_mem_row hx]
  simpa using h

theorem keys_ofPair_eq_flat (p : Partition) (pair : NodePair) :
    (p.ofPair pair).keys =
      (p.flat.entries.filter fun e => e.1.pair = pair).map (·.1.interfaces) := by
  obtain ⟨l, hl⟩ := p
  show (((SortedMap.find pair l).getD .empty).entries.map (·.1)) =
    ((l.flatMap row).filter fun e => e.1.pair = pair).map (·.1.interfaces)
  induction l with
  | nil => rfl
  | cons e rest ih =>
    obtain ⟨pair', inner⟩ := e
    obtain ⟨hhead, hrest⟩ := List.pairwise_cons.mp hl
    rw [List.flatMap_cons, List.filter_append, List.map_append]
    by_cases hp : pair' = pair
    · subst hp
      have hown : (row (pair', inner)).filter (fun x => x.1.pair = pair') = row (pair', inner) := by
        rw [List.filter_eq_self]
        intro x hx
        rw [pair_of_mem_row hx]
        exact decide_eq_true rfl
      have hlater : (rest.flatMap row).filter (fun x => x.1.pair = pair') = [] := by
        rw [List.filter_flatMap, List.flatMap_eq_nil_iff]
        intro e he
        refine filter_row_of_ne fun heq => ?_
        exact absurd (hhead e he) (by rw [heq]; exact Nat.lt_irrefl _)
      rw [hown, hlater, SortedMap.find, if_pos rfl, row, List.map_map, List.map_nil,
        List.append_nil]
      rfl
    · rw [filter_row_of_ne hp, List.map_nil, List.nil_append, SortedMap.find,
        if_neg (fun hr => hp (rank_injective _ _ hr))]
      exact ih hrest

end Partition

/-! ### A store and the map it flattens to -/

/-- The flat store holds what the store finds, under both keys at once. -/
structure ConnectionStore.Flattens (s : ConnectionStore) (f : FlatStore) : Prop where
  wellFormed : s.WellFormed
  finds : ∀ pair i, s.find? pair i = f.records.get? ⟨pair, i⟩
  next : s.nextNumber = f.nextNumber

namespace ConnectionStore.Flattens

variable {s : ConnectionStore} {f : FlatStore}

theorem start : empty.Flattens .empty := ⟨wellFormed_empty, fun _ _ => rfl, rfl⟩

/-! ### What both show -/

/-- A map in ascending order is known by its lookups, also after a filter on the values. -/
theorem entries_filter {m m' : SortedMap LinkKey Connection} {p : Connection → Bool}
    (h : ∀ k, m.get? k = (m'.get? k).filter p) : m.entries = m'.entries.filter fun e => p e.2 := by
  have hm : m = ⟨m'.entries.filter fun e => p e.2, m'.ascending.filter _⟩ := by
    refine SortedMap.ext_get? fun k => Option.ext fun c => ?_
    rw [h, Option.filter_eq_some_iff, SortedMap.get?_eq_some_iff, SortedMap.get?_eq_some_iff,
      List.mem_filter]
  rw [hm]

theorem active (h : s.Flattens f) : s.active.flat.entries = f.standing true := by
  refine entries_filter (p := fun c => c.connected = true) fun ⟨pair, i⟩ => ?_
  rw [Partition.get?_flat, h.wellFormed.active_find?_eq, h.finds]

theorem inactive (h : s.Flattens f) : s.inactive.flat.entries = f.standing false := by
  refine entries_filter (p := fun c => c.connected = false) fun ⟨pair, i⟩ => ?_
  rw [Partition.get?_flat, h.wellFormed.inactive_find?_eq, h.finds]

theorem activeInterfaces (h : s.Flattens f) (pair : NodePair) :
    s.activeInterfaces pair = f.interfaces pair true := by
  rw [ConnectionStore.activeInterfaces, Partition.keys_ofPair_eq_flat, h.active]
  rfl

theorem inactiveInterfaces (h : s.Flattens f) (pair : NodePair) :
    s.inactiveInterfaces pair = f.interfaces pair false := by
  rw [ConnectionStore.inactiveInterfaces, Partition.keys_ofPair_eq_flat, h.inactive]
  rfl

theorem activeCount (h : s.Flattens f) : s.activeCount = (f.standing true).length := by
  rw [ConnectionStore.activeCount, Partition.count_eq_flat, h.active]

theorem inactiveCount (h : s.Flattens f) : s.inactiveCount = (f.standing false).length := by
  rw [ConnectionStore.inactiveCount, Partition.count_eq_flat, h.inactive]

theorem size (h : s.Flattens f) : s.size = f.records.size := by
  have hsplit : f.standing false = f.records.entries.filter fun e => !decide (e.2.connected = true) :=
    List.filter_congr fun e _ => by cases e.2.connected <;> rfl
  rw [ConnectionStore.size, h.activeCount, h.inactiveCount, hsplit, FlatStore.standing,
    ← List.length_eq_length_filter_add]
  rfl

theorem isEmpty (h : s.Flattens f) : s.isEmpty = f.records.isEmpty := by
  rw [Bool.eq_iff_iff, h.wellFormed.isEmpty_iff, h.size, SortedMap.size, SortedMap.isEmpty,
    List.length_eq_zero_iff, List.isEmpty_iff]

theorem containsPair (h : s.Flattens f) (pair : NodePair) :
    s.containsPair pair = f.records.keys.any fun k => k.pair = pair := by
  rw [Bool.eq_iff_iff, h.wellFormed.containsPair_iff, List.any_eq_true]
  constructor
  · rintro ⟨i, c, hc⟩
    rw [h.finds] at hc
    exact ⟨⟨pair, i⟩, SortedMap.mem_keys_iff.mpr ⟨c, hc⟩, decide_eq_true rfl⟩
  · rintro ⟨⟨pair', i⟩, hk, heq⟩
    obtain ⟨c, hc⟩ := SortedMap.mem_keys_iff.mp hk
    obtain rfl : pair' = pair := of_decide_eq_true heq
    exact ⟨i, c, by rw [h.finds, hc]⟩

theorem connections (h : s.Flattens f) : s.connections = f.connections := by
  rw [ConnectionStore.connections, Partition.connections_eq_flat, Partition.connections_eq_flat,
    h.active, h.inactive, FlatStore.connections, List.map_append]

/-! ### What both do -/

/-- Filing a connection writes one entry. -/
theorem file (h : s.Flattens f) (c : Connection) :
    (s.file c).Flattens (f.write ⟨c.pair, c.interfaces⟩ c) where
  wellFormed := h.wellFormed.file c
  finds pair i := by
    rw [h.wellFormed.find?_file, FlatStore.write, SortedMap.get?_insert, h.finds]
    simp only [rank_inj, LinkKey.mk.injEq]
  next := by rw [file_nextNumber, h.next]; rfl

theorem act (h : s.Flattens f) (op : StoreOperation) :
    (s.act op).1 = (f.act op).1 ∧ (s.act op).2.Flattens (f.act op).2 := by
  cases op with
  | freshId =>
    refine ⟨?_, h.wellFormed.freshId, h.finds, ?_⟩
    · simp only [ConnectionStore.act, ConnectionStore.freshId, FlatStore.act, h.next]
    · simp only [ConnectionStore.act, ConnectionStore.freshId, FlatStore.act, h.next]
  | put c active =>
    have hprev : (s.put c active).1 = f.records.get? ⟨c.pair, c.interfaces⟩ := by
      rw [← h.finds, ← take_fst]
      rfl
    refine ⟨congrArg StoreReply.record hprev, ?_⟩
    show (s.put c active).2.Flattens _
    rw [WellFormed.put_eq]
    exact h.file { c with connected := active }
  | setActive pair i active =>
    have hfind := h.finds pair i
    cases hc : s.find? pair i with
    | some c =>
      obtain ⟨rfl, rfl⟩ := h.wellFormed.keys_eq hc
      rw [hc] at hfind
      simp only [ConnectionStore.act, h.wellFormed.setActive?_eq hc, FlatStore.act, ← hfind]
      refine ⟨?_, h.file { c with connected := active }⟩
      rw [h.wellFormed.find?_file_self rfl rfl]
    | none =>
      rw [hc] at hfind
      simp only [ConnectionStore.act, WellFormed.setActive?_eq_none hc, FlatStore.act, ← hfind,
        take_eq_self hc, true_and]
      exact h
  | edit pair i g =>
    have hfind := h.finds pair i
    refine ⟨congrArg StoreReply.record hfind, ?_⟩
    show (s.modify pair i g.apply).Flattens (f.change ⟨pair, i⟩ g.apply)
    cases hc : s.find? pair i with
    | some c =>
      obtain ⟨rfl, rfl⟩ := h.wellFormed.keys_eq hc
      have hedit := h.file (g.apply c)
      rw [h.wellFormed.modify_eq hc (g.pair c) (g.interfaces c) (g.connected c), FlatStore.change,
        ← hfind, hc]
      rwa [g.pair, g.interfaces] at hedit
    | none =>
      rw [modify_eq_self hc, FlatStore.change, ← hfind, hc]
      exact h
  | clear => exact ⟨rfl, start⟩
  | find pair i => exact ⟨congrArg StoreReply.record (h.finds pair i), h⟩
  | isActive pair i =>
    refine ⟨congrArg StoreReply.flag ?_, h⟩
    rw [h.wellFormed.isActive?_eq, h.finds]
  | activeInterfaces pair => exact ⟨congrArg StoreReply.interfaces (h.activeInterfaces pair), h⟩
  | inactiveInterfaces pair =>
    exact ⟨congrArg StoreReply.interfaces (h.inactiveInterfaces pair), h⟩
  | activeCount => exact ⟨congrArg StoreReply.count h.activeCount, h⟩
  | inactiveCount => exact ⟨congrArg StoreReply.count h.inactiveCount, h⟩
  | size => exact ⟨congrArg StoreReply.count h.size, h⟩
  | isEmpty => exact ⟨congrArg StoreReply.truth h.isEmpty, h⟩
  | containsPair pair => exact ⟨congrArg StoreReply.truth (h.containsPair pair), h⟩
  | byId id =>
    refine ⟨congrArg StoreReply.record ?_, h⟩
    rw [byId?, h.connections]
  | query filter =>
    refine ⟨congrArg StoreReply.listed ?_, h⟩
    rw [query, h.connections]

/-- A sequence of operations gets the same replies from a store and from the map it flattens to. -/
theorem replies (h : s.Flattens f) (ops : List StoreOperation) :
    StoreOperation.replies ConnectionStore.act s ops = StoreOperation.replies FlatStore.act f ops := by
  induction ops generalizing s f with
  | nil => rfl
  | cons op rest ih =>
    obtain ⟨hreply, hleft⟩ := h.act op
    rw [StoreOperation.replies, StoreOperation.replies, hreply, ih hleft]

end ConnectionStore.Flattens

/-- Whatever is asked of a store that starts empty, its replies are those of one flat map; marking a
connection that is not there is an error that leaves the store as it is. -/
theorem replies_flat (ops : List StoreOperation) :
    StoreOperation.replies ConnectionStore.act .empty ops =
        StoreOperation.replies FlatStore.act .empty ops ∧
      ∀ pair i active, (StoreOperation.after ConnectionStore.act .empty ops).find? pair i = none →
        (StoreOperation.after ConnectionStore.act .empty ops).act (.setActive pair i active) =
          (.failed (.missingConnection pair i),
            StoreOperation.after ConnectionStore.act .empty ops) := by
  refine ⟨ConnectionStore.Flattens.start.replies ops, fun pair i active hnone => ?_⟩
  simp only [ConnectionStore.act, ConnectionStore.WellFormed.setActive?_eq_none hnone,
    ConnectionStore.take_eq_self hnone]

end ProximityNet
