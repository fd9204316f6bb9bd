import ProximityNet.Proofs.Partitions

/-!
# The store as one flat map

The store keeps its connections in two partitions.  In a well-formed store the partitions are
disjoint, every connection is filed under its own keys, and its `connected` flag names the partition
it stands in.  Such a store is one flat map from keys to connections, read by `find?`:

* `ConnectionStore.file` — put a connection where its flag says it belongs;
* `WellFormed.find?_file` — filing overwrites one key and leaves the others alone;
* `WellFormed.setActive?_eq`, `WellFormed.modify_eq` — both of them file the changed connection;
* `WellFormed.ext` — well-formed stores with the same lookups and counter are the same store;
* `mem_activeInterfaces_iff`, `containsPair_iff`, `mem_active_iff` — the views of the store.

`Numbered` adds that no two connections share an id and that all ids are below the counter; such a
store can be read by ids (`Named`), and filing overwrites one id (`Numbered.named_file`).
-/

namespace ProximityNet.ConnectionStore

/-- The partitions agree with the keys and the flags of the connections in them. -/
structure WellFormed (s : ConnectionStore) : Prop where
  active : ∀ {pair i c}, s.active.find? pair i = some c →
    c.pair = pair ∧ c.interfaces = i ∧ c.connected = true
  inactive : ∀ {pair i c}, s.inactive.find? pair i = some c →
    c.pair = pair ∧ c.interfaces = i ∧ c.connected = false
  apart : ∀ {pair i c}, s.active.find? pair i = some c → s.inactive.find? pair i = none
  activeFull : s.active.NoEmpty
  inactiveFull : s.inactive.NoEmpty

/-- Put a connection where its flag says it belongs. -/
def file (s : ConnectionStore) (c : Connection) : ConnectionStore := (s.put c c.connected).2

variable {s s' : ConnectionStore} {pair pair' : NodePair} {i i' : InterfacePair}
  {c c' : Connection}

@[simp] theorem find?_empty (pair : NodePair) (i : InterfacePair) : empty.find? pair i = none := rfl

theorem wellFormed_empty : empty.WellFormed where
  active h := by cases h
  inactive h := by cases h
  apart h := by cases h
  activeFull := Partition.noEmpty_empty
  inactiveFull := Partition.noEmpty_empty

namespace WellFormed

theorem keys_eq (h : s.WellFormed) (hc : s.find? pair i = some c) :
    c.pair = pair ∧ c.interfaces = i := by
  rw [find?, Option.or_eq_some_iff] at hc
  rcases hc with hc | ⟨_, hc⟩
  · exact ⟨(h.active hc).1, (h.active hc).2.1⟩
  · exact ⟨(h.inactive hc).1, (h.inactive hc).2.1⟩

/-- The connections that are up are those with the flag set. -/
theorem active_find?_iff (h : s.WellFormed) :
    s.active.find? pair i = some c ↔ s.find? pair i = some c ∧ c.connected = true := by
  rw [find?]
  constructor
  · intro hc
    exact ⟨by rw [hc]; rfl, (h.active hc).2.2⟩
  · rintro ⟨hc, hflag⟩
    rw [Option.or_eq_some_iff] at hc
    rcases hc with hc | ⟨_, hc⟩
    · exact hc
    · rw [(h.inactive hc).2.2] at hflag
      cases hflag

/-- The connections that are not up are those without the flag set. -/
theorem inactive_find?_iff (h : s.WellFormed) :
    s.inactive.find? pair i = some c ↔ s.find? pair i = some c ∧ c.connected = false := by
  rw [find?]
  constructor
  · intro hc
    have hnone : s.active.find? pair i = none := by
      cases ha : s.active.find? pair i with
      | none => rfl
      | some c' =>
        rw [h.apart ha] at hc
        cases hc
    exact ⟨by rw [hnone, hc]; rfl, (h.inactive hc).2.2⟩
  · rintro ⟨hc, hflag⟩
    rw [Option.or_eq_some_iff] at hc
    rcases hc with hc | ⟨_, hc⟩
    · rw [(h.active hc).2.2] at hflag
      cases hflag
    · exact hc

theorem active_find?_eq (h : s.WellFormed) (pair : NodePair) (i : InterfacePair) :
    s.active.find? pair i = (s.find? pair i).filter fun c => c.connected = true := by
  refine Option.ext fun c => ?_
  rw [h.active_find?_iff, Option.filter_eq_some_iff, decide_eq_true_iff]

theorem inactive_find?_eq (h : s.WellFormed) (pair : NodePair) (i : InterfacePair) :
    s.inactive.find? pair i = (s.find? pair i).filter fun c => c.connected = false := by
  refine Option.ext fun c => ?_
  rw [h.inactive_find?_iff, Option.filter_eq_some_iff, decide_eq_true_iff]

/-- Well-formed stores with the same lookups and the same counter are the same store. -/
theorem ext (h : s.WellFormed) (h' : s'.WellFormed)
    (hfind : ∀ pair i, s.find? pair i = s'.find? pair i) (hnext : s.nextNumber = s'.nextNumber) :
    s = s' := by
  have hactive : s.active = s'.active := by
    refine h.activeFull.ext h'.activeFull fun pair i => Option.ext fun c => ?_
    rw [h.active_find?_iff, h'.active_find?_iff, hfind]
  have hinactive : s.inactive = s'.inactive := by
    refine h.inactiveFull.ext h'.inactiveFull fun pair i => Option.ext fun c => ?_
    rw [h.inactive_find?_iff, h'.inactive_find?_iff, hfind]
  obtain ⟨a, b, n⟩ := s
  obtain ⟨a', b', n'⟩ := s'
  simp only at hactive hinactive hnext
  rw [hactive, hinactive, hnext]

end WellFormed

/-! ### Taking out and entering -/

theorem take_fst (s : ConnectionStore) (pair : NodePair) (i : InterfacePair) :
    (s.take pair i).1 = s.find? pair i := by
  rw [take, find?]
  cases s.active.find? pair i with
  | some c => rfl
  | none =>
    cases s.inactive.find? pair i <;> rfl

/-- Where nothing is stored there is nothing to take out. -/
theorem take_eq_self (hc : s.find? pair i = none) : s.take pair i = (none, s) := by
  rw [find?, Option.or_eq_none_iff] at hc
  simp only [take, hc.1, hc.2]

@[simp] theorem take_nextNumber (s : ConnectionStore) (pair : NodePair) (i : InterfacePair) :
    (s.take pair i).2.nextNumber = s.nextNumber := by
  rw [take]
  cases s.active.find? pair i with
  | some c => rfl
  | none =>
    cases s.inactive.find? pair i <;> rfl

@[simp] theorem enter_nextNumber (s : ConnectionStore) (pair : NodePair) (i : InterfacePair)
    (c : Connection) (active : Bool) : (s.enter pair i c active).nextNumber = s.nextNumber := by
  cases active <;> rfl

namespace WellFormed

/-- What is taken out stands in neither partition any more. -/
theorem take_finds (h : s.WellFormed) (pair : NodePair) (i : InterfacePair) (pair' : NodePair)
    (i' : InterfacePair) :
    (s.take pair i).2.active.find? pair' i' =
        (if pair = pair' ∧ i = i' then none else s.active.find? pair' i') ∧
      (s.take pair i).2.inactive.find? pair' i' =
        if pair = pair' ∧ i = i' then none else s.inactive.find? pair' i' := by
  -- a lookup that finds nothing is not changed by the removal of its keys
  have absent : ∀ p : Partition, p.find? pair i = none →
      p.find? pair' i' = if pair = pair' ∧ i = i' then none else p.find? pair' i' := by
    intro p hp
    split
    · rename_i heq
      rw [← heq.1, ← heq.2, hp]
    · rfl
  cases ha : s.active.find? pair i with
  | some c =>
    have htake : s.take pair i = (some c, { s with active := s.active.remove pair i }) := by
      simp only [ConnectionStore.take, ha]
    rw [htake]
    exact ⟨Partition.find?_remove .., absent _ (h.apart ha)⟩
  | none =>
    cases hb : s.inactive.find? pair i with
    | some c =>
      have htake : s.take pair i = (some c, { s with inactive := s.inactive.remove pair i }) := by
        simp only [ConnectionStore.take, ha, hb]
      rw [htake]
      exact ⟨absent _ ha, Partition.find?_remove ..⟩
    | none =>
      have htake : s.take pair i = (none, s) := by
        simp only [ConnectionStore.take, ha, hb]
      rw [htake]
      exact ⟨absent _ ha, absent _ hb⟩

theorem take (h : s.WellFormed) (pair : NodePair) (i : InterfacePair) :
    (s.take pair i).2.WellFormed where
  active hc := by
    rw [(h.take_finds pair i _ _).1] at hc
    split at hc
    · cases hc
    · exact h.active hc
  inactive hc := by
    rw [(h.take_finds pair i _ _).2] at hc
    split at hc
    · cases hc
    · exact h.inactive hc
  apart hc := by
    rw [(h.take_finds pair i _ _).1] at hc
    rw [(h.take_finds pair i _ _).2]
    split at hc
    · cases hc
    · rename_i hne
      rw [if_neg hne]
      exact h.apart hc
  activeFull := by
    rw [ConnectionStore.take]
    cases s.active.find? pair i with
    | some c => exact h.activeFull.remove pair i
    | none =>
      cases s.inactive.find? pair i <;> exact h.activeFull
  inactiveFull := by
    rw [ConnectionStore.take]
    cases s.active.find? pair i with
    | some c => exact h.inactiveFull
    | none =>
      cases s.inactive.find? pair i with
      | some c => exact h.inactiveFull.remove pair i
      | none => exact h.inactiveFull

theorem find?_take (h : s.WellFormed) (pair : NodePair) (i : InterfacePair) (pair' : NodePair)
    (i' : InterfacePair) :
    (s.take pair i).2.find? pair' i' = if pair = pair' ∧ i = i' then none else s.find? pair' i' := by
  obtain ⟨ha, hb⟩ := h.take_finds pair i pair' i'
  rw [find?, ha, hb]
  split <;> rfl

/-- Entering under free keys keeps a store well-formed and adds one lookup. -/
theorem enter (h : s.WellFormed) (hfree : s.find? pair i = none) (hpair : c.pair = pair)
    (hi : c.interfaces = i) (active : Bool) :
    (s.enter pair i c active).WellFormed ∧ ∀ pair' i',
      (s.enter pair i c active).find? pair' i' =
        if pair = pair' ∧ i = i' then some { c with connected := active }
        else s.find? pair' i' := by
  have hfa : s.active.find? pair i = none := by
    rw [find?, Option.or_eq_none_iff] at hfree
    exact hfree.1
  have hfb : s.inactive.find? pair i = none := by
    rw [find?, Option.or_eq_none_iff] at hfree
    exact hfree.2
  cases active with
  | true =>
    have hput := Partition.find?_put s.active pair i { c with connected := true }
    refine ⟨⟨fun hc => ?_, fun hc => h.inactive hc, fun hc => ?_, h.activeFull.put _ _ _,
      h.inactiveFull⟩, fun pair' i' => ?_⟩
    · rw [ConnectionStore.enter, if_pos rfl] at hc
      simp only [hput] at hc
      split at hc
      · rename_i heq
        rw [← Option.some.inj hc]
        exact ⟨hpair.trans heq.1, hi.trans heq.2, rfl⟩
      · exact h.active hc
    · rw [ConnectionStore.enter, if_pos rfl] at hc ⊢
      simp only [hput] at hc ⊢
      split at hc
      · rename_i heq
        obtain ⟨rfl, rfl⟩ := heq
        exact hfb
      · exact h.apart hc
    · rw [find?, ConnectionStore.enter, if_pos rfl]
      simp only [hput]
      split
      · rfl
      · rfl
  | false =>
    have hput := Partition.find?_put s.inactive pair i { c with connected := false }
    refine ⟨⟨fun hc => h.active hc, fun hc => ?_, fun hc => ?_, h.activeFull,
      h.inactiveFull.put _ _ _⟩, fun pair' i' => ?_⟩
    · rw [ConnectionStore.enter, if_neg Bool.false_ne_true] at hc
      simp only [hput] at hc
      split at hc
      · rename_i heq
        rw [← Option.some.inj hc]
        exact ⟨hpair.trans heq.1, hi.trans heq.2, rfl⟩
      · exact h.inactive hc
    · rw [ConnectionStore.enter, if_neg Bool.false_ne_true] at hc ⊢
      simp only [hput]
      split
      · rename_i heq
        obtain ⟨rfl, rfl⟩ := heq
        rw [hfa] at hc
        cases hc
      · exact h.apart hc
    · rw [find?, ConnectionStore.enter, if_neg Bool.false_ne_true]
      simp only [hput]
      split
      · rename_i heq
        obtain ⟨rfl, rfl⟩ := heq
        rw [hfa]
        rfl
      · rfl

/-- Taking out and entering again overwrites one lookup. -/
theorem enter_take (h : s.WellFormed) (hpair : c.pair = pair) (hi : c.interfaces = i)
    (active : Bool) :
    ((s.take pair i).2.enter pair i c active).WellFormed ∧ ∀ pair' i',
      ((s.take pair i).2.enter pair i c active).find? pair' i' =
        if pair = pair' ∧ i = i' then some { c with connected := active }
        else s.find? pair' i' := by
  have hfree : (s.take pair i).2.find? pair i = none := by
    rw [h.find?_take, if_pos ⟨rfl, rfl⟩]
  obtain ⟨hw, hfind⟩ := (h.take pair i).enter hfree hpair hi active
  refine ⟨hw, fun pair' i' => ?_⟩
  rw [hfind, h.find?_take]
  split <;> rfl

/-! ### Filing -/

theorem file (h : s.WellFormed) (c : Connection) : (s.file c).WellFormed :=
  (h.enter_take rfl rfl c.connected).1

/-- Filing a connection overwrites what stands under its keys. -/
theorem find?_file (h : s.WellFormed) (c : Connection) (pair : NodePair) (i : InterfacePair) :
    (s.file c).find? pair i =
      if c.pair = pair ∧ c.interfaces = i then some c else s.find? pair i :=
  (h.enter_take rfl rfl c.connected).2 pair i

theorem find?_file_self (h : s.WellFormed) (hpair : c.pair = pair) (hi : c.interfaces = i) :
    (s.file c).find? pair i = some c := by
  rw [h.find?_file, if_pos ⟨hpair, hi⟩]

end WellFormed

@[simp] theorem file_nextNumber (s : ConnectionStore) (c : Connection) :
    (s.file c).nextNumber = s.nextNumber := by
  rw [file, put]
  simp

namespace WellFormed

/-- Of two connections filed under the same keys the later stays. -/
theorem file_file (h : s.WellFormed) (hpair : c.pair = c'.pair)
    (hi : c.interfaces = c'.interfaces) : (s.file c).file c' = s.file c' := by
  refine ((h.file c).file c').ext (h.file c') (fun pair i => ?_) (by simp)
  rw [(h.file c).find?_file, h.find?_file, h.find?_file, hpair, hi]
  split <;> rfl

/-- Storing a connection as not up is filing it without the flag. -/
theorem put_eq (s : ConnectionStore) (c : Connection) (active : Bool) :
    (s.put c active).2 = s.file { c with connected := active } := by
  cases active <;> rfl

/-- Marking a stored connection files it with the flag changed. -/
theorem setActive?_eq (h : s.WellFormed) (hc : s.find? pair i = some c) (active : Bool) :
    s.setActive? pair i active = some (s.file { c with connected := active }) := by
  obtain ⟨rfl, rfl⟩ := h.keys_eq hc
  have htake : (s.take c.pair c.interfaces).1 = some c := by rw [take_fst, hc]
  rw [setActive?]
  generalize ht : s.take c.pair c.interfaces = t at htake
  obtain ⟨o, s₁⟩ := t
  simp only at htake
  subst htake
  simp only [← put_eq, put, ht]

/-- Marking finds nothing where nothing is stored. -/
theorem setActive?_eq_none (hc : s.find? pair i = none) (active : Bool) :
    s.setActive? pair i active = none := by
  rw [← take_fst] at hc
  rw [setActive?]
  generalize s.take pair i = t at hc
  obtain ⟨o, s₁⟩ := t
  simp only at hc
  subst hc
  rfl

/-- Changing a stored connection where it stands files the changed one. -/
theorem modify_eq (h : s.WellFormed) {f : Connection → Connection} (hc : s.find? pair i = some c)
    (hpair : (f c).pair = c.pair) (hi : (f c).interfaces = c.interfaces)
    (hflag : (f c).connected = c.connected) : s.modify pair i f = s.file (f c) := by
  obtain ⟨rfl, rfl⟩ := h.keys_eq hc
  -- in both partitions the lookups and the counter decide
  have key : ∀ t : ConnectionStore, t.WellFormed → t.nextNumber = s.nextNumber →
      (∀ pair i, t.find? pair i =
        if c.pair = pair ∧ c.interfaces = i then some (f c) else s.find? pair i) →
      t = s.file (f c) := by
    intro t ht hn hfind
    refine ht.ext (h.file (f c)) (fun pair i => ?_) (by simp [hn])
    rw [hfind, h.find?_file, hpair, hi]
  cases hflag' : c.connected with
  | true =>
    have ha := h.active_find?_iff.mpr ⟨hc, hflag'⟩
    have hput := Partition.find?_put s.active c.pair c.interfaces (f c)
    have hmodify : s.modify c.pair c.interfaces f =
        { s with active := s.active.put c.pair c.interfaces (f c) } := by
      simp only [modify, ha]
    rw [hmodify]
    refine key _ ⟨fun hx => ?_, fun hx => h.inactive hx, fun hx => ?_, h.activeFull.put _ _ _,
      h.inactiveFull⟩ rfl fun pair i => ?_
    · rw [hput] at hx
      split at hx
      · rename_i heq
        rw [← Option.some.inj hx]
        exact ⟨hpair.trans heq.1, hi.trans heq.2, hflag.trans hflag'⟩
      · exact h.active hx
    · rw [hput] at hx
      split at hx
      · rename_i heq
        obtain ⟨rfl, rfl⟩ := heq
        exact h.apart ha
      · exact h.apart hx
    · rw [find?, hput, find?]
      split <;> rfl
  | false =>
    have hb := h.inactive_find?_iff.mpr ⟨hc, hflag'⟩
    have hnone : s.active.find? c.pair c.interfaces = none := by
      cases ha : s.active.find? c.pair c.interfaces with
      | none => rfl
      | some x =>
        rw [h.apart ha] at hb
        cases hb
    have hput := Partition.find?_put s.inactive c.pair c.interfaces (f c)
    have hmodify : s.modify c.pair c.interfaces f =
        { s with inactive := s.inactive.put c.pair c.interfaces (f c) } := by
      simp only [modify, hnone, hb]
    rw [hmodify]
    refine key _ ⟨fun hx => h.active hx, fun hx => ?_, fun hx => ?_, h.activeFull,
      h.inactiveFull.put _ _ _⟩ rfl fun pair i => ?_
    · rw [hput] at hx
      split at hx
      · rename_i heq
        rw [← Option.some.inj hx]
        exact ⟨hpair.trans heq.1, hi.trans heq.2, hflag.trans hflag'⟩
      · exact h.inactive hx
    · rw [hput]
      split
      · rename_i heq
        obtain ⟨rfl, rfl⟩ := heq
        rw [hnone] at hx
        cases hx
      · exact h.apart hx
    · rw [find?, hput, find?]
      split
      · rename_i heq
        obtain ⟨rfl, rfl⟩ := heq
        rw [hnone]
        rfl
      · rfl

/-! ### Views -/

theorem isActive?_eq (h : s.WellFormed) (pair : NodePair) (i : InterfacePair) :
    s.isActive? pair i = (s.find? pair i).map (·.connected) := by
  rw [isActive?, find?]
  cases ha : s.active.find? pair i with
  | some c => simp [(h.active ha).2.2]
  | none =>
    cases hb : s.inactive.find? pair i with
    | some c => simp [(h.inactive hb).2.2]
    | none => rfl

theorem mem_activeInterfaces_iff (h : s.WellFormed) :
    i ∈ s.activeInterfaces pair ↔ ∃ c, s.find? pair i = some c ∧ c.connected = true := by
  rw [activeInterfaces, Partition.mem_keys_ofPair_iff]
  simp only [h.active_find?_iff]

theorem mem_inactiveInterfaces_iff (h : s.WellFormed) :
    i ∈ s.inactiveInterfaces pair ↔ ∃ c, s.find? pair i = some c ∧ c.connected = false := by
  rw [inactiveInterfaces, Partition.mem_keys_ofPair_iff]
  simp only [h.inactive_find?_iff]

theorem containsPair_iff (h : s.WellFormed) :
    s.containsPair pair = true ↔ ∃ i c, s.find? pair i = some c := by
  rw [containsPair, Bool.or_eq_true, Partition.contains_iff h.activeFull,
    Partition.contains_iff h.inactiveFull]
  simp only [h.active_find?_iff, h.inactive_find?_iff]
  constructor
  · rintro (⟨i, c, hc, _⟩ | ⟨i, c, hc, _⟩) <;> exact ⟨i, c, hc⟩
  · rintro ⟨i, c, hc⟩
    rcases Bool.eq_false_or_eq_true c.connected with hflag | hflag
    · exact Or.inl ⟨i, c, hc, hflag⟩
    · exact Or.inr ⟨i, c, hc, hflag⟩

/-- The connections listed as up are those that are stored with the flag set. -/
theorem mem_active_iff (h : s.WellFormed) :
    c ∈ s.active.connections ↔ (∃ pair i, s.find? pair i = some c) ∧ c.connected = true := by
  rw [Partition.mem_connections_iff]
  simp only [h.active_find?_iff, exists_and_right]

theorem mem_connections_iff (h : s.WellFormed) :
    c ∈ s.connections ↔ ∃ pair i, s.find? pair i = some c := by
  rw [connections, List.mem_append, Partition.mem_connections_iff, Partition.mem_connections_iff]
  simp only [h.active_find?_iff, h.inactive_find?_iff]
  constructor
  · rintro (⟨pair, i, hc, _⟩ | ⟨pair, i, hc, _⟩) <;> exact ⟨pair, i, hc⟩
  · rintro ⟨pair, i, hc⟩
    rcases Bool.eq_false_or_eq_true c.connected with hflag | hflag
    · exact Or.inl ⟨pair, i, hc, hflag⟩
    · exact Or.inr ⟨pair, i, hc, hflag⟩

theorem connections_nodup (h : s.WellFormed) : s.connections.Nodup := by
  rw [connections, List.nodup_append]
  refine ⟨Partition.connections_nodup fun pair i c hc => ?_,
    Partition.connections_nodup fun pair i c hc => ?_, ?_⟩
  · exact ⟨(h.active hc).1, (h.active hc).2.1⟩
  · exact ⟨(h.inactive hc).1, (h.inactive hc).2.1⟩
  · rintro c hc c' hc' rfl
    obtain ⟨pair, i, hfind⟩ := Partition.mem_connections_iff.mp hc
    obtain ⟨pair', i', hfind'⟩ := Partition.mem_connections_iff.mp hc'
    have hup := (h.active hfind).2.2
    rw [(h.inactive hfind').2.2] at hup
    cases hup

theorem freshId (h : s.WellFormed) : s.freshId.2.WellFormed :=
  ⟨h.active, h.inactive, h.apart, h.activeFull, h.inactiveFull⟩

end WellFormed

/-- Where nothing is stored there is nothing to change. -/
theorem modify_eq_self {f : Connection → Connection} (hc : s.find? pair i = none) :
    s.modify pair i f = s := by
  rw [find?, Option.or_eq_none_iff] at hc
  rw [modify, hc.1, hc.2]

theorem activeInterfaces_nodup (s : ConnectionStore) (pair : NodePair) :
    (s.activeInterfaces pair).Nodup := SortedMap.keys_nodup _

theorem inactiveInterfaces_nodup (s : ConnectionStore) (pair : NodePair) :
    (s.inactiveInterfaces pair).Nodup := SortedMap.keys_nodup _

/-! ### Ids -/

/-- A well-formed store in which an id names one connection and the next id names none. -/
structure Numbered (s : ConnectionStore) : Prop extends s.WellFormed where
  unique : ∀ {pair i c pair' i' c'}, s.find? pair i = some c → s.find? pair' i' = some c' →
    c.id = c'.id → pair = pair' ∧ i = i'
  below : ∀ {pair i c}, s.find? pair i = some c → c.id.value < s.nextNumber

/-- The connection with this id. -/
def Named (s : ConnectionStore) (id : ConnectionId) (c : Connection) : Prop :=
  c.id = id ∧ ∃ pair i, s.find? pair i = some c

theorem named_of_find? (h : s.find? pair i = some c) : s.Named c.id c := ⟨rfl, pair, i, h⟩

/-- Filing a connection whose id stands under its own keys, or nowhere. -/
theorem WellFormed.named_file (h : s.WellFormed)
    (own : ∀ x, s.find? c.pair c.interfaces = some x → x.id = c.id)
    (only : ∀ {pair i x}, s.find? pair i = some x → x.id = c.id →
      c.pair = pair ∧ c.interfaces = i) (id : ConnectionId) (x : Connection) :
    (s.file c).Named id x ↔ if id = c.id then x = c else s.Named id x := by
  constructor
  · rintro ⟨rfl, pair, i, hx⟩
    rw [h.find?_file] at hx
    split at hx
    · rw [← Option.some.inj hx, if_pos rfl]
    · rename_i hne
      split
      · rename_i hid
        exact absurd (only hx hid) hne
      · exact named_of_find? hx
  · intro hx
    split at hx
    · rename_i hid
      rw [hx, hid]
      exact named_of_find? (h.find?_file_self rfl rfl)
    · rename_i hid
      obtain ⟨rfl, pair, i, hx⟩ := hx
      refine ⟨rfl, pair, i, ?_⟩
      rw [h.find?_file, if_neg]
      · exact hx
      · rintro ⟨rfl, rfl⟩
        exact hid (own x hx)

theorem numbered_empty : empty.Numbered where
  toWellFormed := wellFormed_empty
  unique h := by cases h
  below h := by cases h

namespace Numbered

theorem freshId (h : s.Numbered) : s.freshId.2.Numbered where
  toWellFormed := h.toWellFormed.freshId
  unique := h.unique
  below hc := Nat.lt_succ_of_lt (h.below hc)

/-- Filing under the keys of a connection with the same id. -/
theorem file (h : s.Numbered) (hc : s.find? pair i = some c) (hid : c'.id = c.id)
    (hpair : c'.pair = c.pair) (hi : c'.interfaces = c.interfaces) : (s.file c').Numbered := by
  obtain ⟨rfl, rfl⟩ := h.keys_eq hc
  -- whatever is found afterwards was found before, with the same id
  have back : ∀ {pair i x}, (s.file c').find? pair i = some x →
      ∃ y, s.find? pair i = some y ∧ y.id = x.id := by
    intro pair i x hx
    rw [h.find?_file, hpair, hi] at hx
    split at hx
    · rename_i heq
      obtain ⟨rfl, rfl⟩ := heq
      exact ⟨c, hc, by rw [← Option.some.inj hx, hid]⟩
    · exact ⟨x, hx, rfl⟩
  refine ⟨h.toWellFormed.file c', fun hx hy heq => ?_, fun hx => ?_⟩
  · obtain ⟨x', hx', hxid⟩ := back hx
    obtain ⟨y', hy', hyid⟩ := back hy
    exact h.unique hx' hy' (by rw [hxid, hyid, heq])
  · obtain ⟨x', hx', hxid⟩ := back hx
    rw [file_nextNumber, ← hxid]
    exact h.below hx'

/-- Filing a new connection with the next id. -/
theorem fileFresh (h : s.Numbered) (hid : c.id.value = s.nextNumber) :
    (s.freshId.2.file c).Numbered := by
  have hw := h.toWellFormed.freshId
  have old : ∀ {pair i x}, s.find? pair i = some x → x.id ≠ c.id := by
    intro pair i x hx heq
    have := h.below hx
    rw [heq, hid] at this
    exact Nat.lt_irrefl _ this
  refine ⟨hw.file c, fun hx hy heq => ?_, fun hx => ?_⟩
  · rw [hw.find?_file] at hx hy
    split at hx <;> split at hy
    · rename_i h1 h2
      exact ⟨h1.1.symm.trans h2.1, h1.2.symm.trans h2.2⟩
    · rw [← Option.some.inj hx] at heq
      exact absurd heq.symm (old hy)
    · rw [← Option.some.inj hy] at heq
      exact absurd heq (old hx)
    · exact h.unique hx hy heq
  · rw [hw.find?_file] at hx
    rw [file_nextNumber]
    split at hx
    · rw [← Option.some.inj hx, hid]
      exact Nat.lt_succ_self _
    · exact Nat.lt_succ_of_lt (h.below hx)

theorem named_inj (h : s.Numbered) {id : ConnectionId} (hc : s.Named id c) (hc' : s.Named id c') :
    c = c' := by
  obtain ⟨hid, pair, i, hfind⟩ := hc
  obtain ⟨hid', pair', i', hfind'⟩ := hc'
  obtain ⟨rfl, rfl⟩ := h.unique hfind hfind' (hid.trans hid'.symm)
  rw [hfind] at hfind'
  exact Option.some.inj hfind'

theorem not_named_next (h : s.Numbered) : ¬ s.Named ⟨s.nextNumber⟩ c := by
  rintro ⟨hid, pair, i, hfind⟩
  have hlt := h.below hfind
  rw [hid] at hlt
  exact Nat.lt_irrefl _ hlt

/-- Filing a changed connection. -/
theorem named_file (h : s.Numbered) (hc : s.find? pair i = some c) (hid : c'.id = c.id)
    (hpair : c'.pair = c.pair) (hi : c'.interfaces = c.interfaces) (id : ConnectionId)
    (x : Connection) : (s.file c').Named id x ↔ if id = c.id then x = c' else s.Named id x := by
  obtain ⟨rfl, rfl⟩ := h.keys_eq hc
  rw [← hid]
  refine h.toWellFormed.named_file (fun x hx => ?_) (fun {pair i x} hx hxid => ?_) id x
  · rw [hpair, hi, hc] at hx
    rw [← Option.some.inj hx, hid]
  · rw [hpair, hi]
    exact h.unique hc hx (by rw [hxid, hid])

/-- Filing a new connection with the next id. -/
theorem named_fileFresh (h : s.Numbered) (hid : c.id.value = s.nextNumber)
    (free : s.find? c.pair c.interfaces = none) (id : ConnectionId) (x : Connection) :
    (s.freshId.2.file c).Named id x ↔ if id = c.id then x = c else s.Named id x := by
  refine h.toWellFormed.freshId.named_file (fun x hx => ?_) (fun {pair i x} hx hxid => ?_) id x
  · rw [show s.freshId.2.find? c.pair c.interfaces = none from free] at hx
    cases hx
  · have hlt := h.below hx
    rw [hxid, hid] at hlt
    exact absurd hlt (Nat.lt_irrefl _)

end Numbered

end ProximityNet.ConnectionStore
