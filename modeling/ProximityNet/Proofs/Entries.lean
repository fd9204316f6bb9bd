import ProximityNet.Proofs.Changes

/-!
# Matrices and lists of entries

A matrix can be written as the list of its entries and is made of them again without a loss.  The
other way round a list may give a pair of nodes several times, in both orders, or pair a node with
itself.  In the last case no matrix is made, and the error names the first such node.  Otherwise the
matrix has each pair once, at the distance that was given last, and in the order of the pairs.

* `DistanceMatrix.Canonical` — a matrix whose keys are pairs that two nodes make;
* `set_of_eq`, `set_of_ne` — one entry, of a node with itself and of two nodes;
* `ofEntries_toEntries` — the entries of a matrix make that matrix;
* `ofEntries_eq_error_iff`, `exists_ofEntries` — when a list makes no matrix, and when it makes one;
* `Condenses`, `Condenses.unique` — a list that says once and in order what another one says;
* `condenses_ofEntries` — the entries of a matrix condense the list that it was made of;
* `entries_lossless` — all of it.
-/

namespace ProximityNet

/-- Two nodes that make a pair are its low and its high node. -/
theorem NodePair.of?_low_high {a b : NodeId} {pair : NodePair} (h : NodePair.of? a b = some pair) :
    pair.low.toNat < pair.high.toNat := by
  rw [NodePair.of?] at h
  split_ifs at h with hlt hgt
  · rw [← Option.some.inj h]
    exact hlt
  · rw [← Option.some.inj h]
    exact hgt

namespace DistanceMatrix

/-- Every key is a pair that some two nodes make. -/
def Canonical (m : DistanceMatrix) : Prop :=
  ∀ pair ∈ m.keys, ∃ a b, NodePair.make a b = .ok pair

/-! ### One entry -/

theorem set_of_eq (m : DistanceMatrix) {x : DistanceEntry} (h : x.a = x.b) :
    m.set x.a x.b x.distance = .error (.selfPair x.a) := by
  rw [set, NodePair.make, NodePair.of?_eq_none_iff.mpr h]
  rfl

theorem set_of_ne (m : DistanceMatrix) {x : DistanceEntry} (h : x.a ≠ x.b) :
    ∃ pair, NodePair.of? x.a x.b = some pair ∧
      m.set x.a x.b x.distance = .ok (m.insert pair x.distance) := by
  cases hpair : NodePair.of? x.a x.b with
  | none => exact absurd (NodePair.of?_eq_none_iff.mp hpair) h
  | some pair =>
    refine ⟨pair, rfl, ?_⟩
    rw [set, NodePair.make, hpair]
    rfl

theorem of?_of_make {a b : NodeId} {pair : NodePair} (h : NodePair.make a b = .ok pair) :
    NodePair.of? pair.low pair.high = some pair := by
  rw [NodePair.make] at h
  split at h
  · rename_i hpair
    rw [← Except.ok.inj h]
    exact NodePair.of?_self hpair
  · cases h

/-! ### From a matrix to its entries and back -/

/-- Entries of ascending pairs are added to a matrix, each under its own pair. -/
theorem ofEntriesOnto_ascending (m : DistanceMatrix) {l : List (NodePair × Distance)}
    (hascending : l.Pairwise fun e e' => rank e.1 < rank e'.1)
    (hpairs : ∀ e ∈ l, NodePair.of? e.1.low e.1.high = some e.1) :
    ∃ m', ofEntriesOnto m (l.map fun e => ⟨e.1.low, e.1.high, e.2⟩) = .ok m' ∧
      ∀ pair, m'.get? pair = (SortedMap.find pair l).or (m.get? pair) := by
  induction l generalizing m with
  | nil => exact ⟨m, rfl, fun _ => rfl⟩
  | cons e rest ih =>
    obtain ⟨hfirst, hrest⟩ := List.pairwise_cons.mp hascending
    obtain ⟨hpair, hothers⟩ := List.forall_mem_cons.mp hpairs
    have hset : m.set e.1.low e.1.high e.2 = .ok (m.insert e.1 e.2) := by
      rw [set, NodePair.make, hpair]
      rfl
    obtain ⟨m', hm', hget⟩ := ih (m.insert e.1 e.2) hrest hothers
    refine ⟨m', ?_, fun pair => ?_⟩
    · rw [List.map_cons, ofEntriesOnto, hset]
      exact hm'
    · rw [hget, SortedMap.get?_insert, SortedMap.find]
      by_cases heq : rank e.1 = rank pair
      · -- no later entry has the pair of this one
        have hnone : SortedMap.find pair rest = none := by
          refine SortedMap.find_eq_none fun e' he' => ?_
          have hlt := hfirst e' he'
          omega
        rw [if_pos heq, if_pos heq, hnone]
        rfl
      · rw [if_neg heq, if_neg heq]

/-- The entries of a matrix make that matrix. -/
theorem ofEntries_toEntries {m : DistanceMatrix} (h : m.Canonical) : ofEntries m.toEntries = .ok m := by
  have hpairs : ∀ e ∈ m.entries, NodePair.of? e.1.low e.1.high = some e.1 := by
    intro e he
    obtain ⟨a, b, hmake⟩ := h e.1 (List.mem_map_of_mem he)
    exact of?_of_make hmake
  obtain ⟨m', hm', hget⟩ := ofEntriesOnto_ascending .empty m.ascending hpairs
  have heq : m' = m := by
    refine SortedMap.ext_get? fun pair => ?_
    rw [hget, SortedMap.get?_empty, Option.or_none, SortedMap.get?]
  rw [ofEntries, toEntries, hm', heq]

/-! ### Lists that make no matrix -/

/-- A list makes no matrix exactly if an entry pairs a node with itself, and the first one that does
is named. -/
theorem ofEntriesOnto_eq_error_iff (m : DistanceMatrix) (l : List DistanceEntry)
    (err : TopologyError) :
    ofEntriesOnto m l = .error err ↔
      ∃ before x after, l = before ++ x :: after ∧ (∀ y ∈ before, y.a ≠ y.b) ∧ x.a = x.b ∧
        err = .selfPair x.a := by
  induction l generalizing m with
  | nil => simp [ofEntriesOnto]
  | cons x rest ih =>
    rw [ofEntriesOnto]
    by_cases hself : x.a = x.b
    · rw [set_of_eq m hself]
      constructor
      · intro h
        exact ⟨[], x, rest, rfl, by simp, hself, (Except.error.inj h).symm⟩
      · rintro ⟨before, y, after, hl, hbefore, hy, rfl⟩
        cases before with
        | nil => rw [(List.cons.inj hl).1]
        | cons first before =>
          rw [← (List.cons.inj hl).1] at hbefore
          exact absurd hself (hbefore x List.mem_cons_self)
    · obtain ⟨pair, -, hset⟩ := set_of_ne m hself
      rw [hset]
      dsimp only
      rw [ih]
      constructor
      · rintro ⟨before, y, after, rfl, hbefore, hy, herr⟩
        exact ⟨x :: before, y, after, rfl, List.forall_mem_cons.mpr ⟨hself, hbefore⟩, hy, herr⟩
      · rintro ⟨before, y, after, hl, hbefore, hy, herr⟩
        cases before with
        | nil =>
          rw [← (List.cons.inj hl).1] at hy
          exact absurd hy hself
        | cons first before =>
          exact ⟨before, y, after, (List.cons.inj hl).2, (List.forall_mem_cons.mp hbefore).2, hy,
            herr⟩

theorem exists_ofEntries {l : List DistanceEntry} (h : ∀ x ∈ l, x.a ≠ x.b) :
    ∃ m, ofEntries l = .ok m := by
  cases hresult : ofEntries l with
  | ok m => exact ⟨m, rfl⟩
  | error err =>
    obtain ⟨before, x, after, hl, -, hself, -⟩ :=
      (ofEntriesOnto_eq_error_iff .empty l err).mp hresult
    have hx : x ∈ l := by simp [hl]
    exact absurd hself (h x hx)

theorem canonical_ofEntries {l : List DistanceEntry} {m : DistanceMatrix}
    (h : ofEntries l = .ok m) : m.Canonical := by
  intro pair hpair
  refine ⟨pair.low, pair.high, ?_⟩
  have hof : NodePair.of? pair.low pair.high = some pair := by
    by_contra hnot
    obtain ⟨d, hd⟩ := SortedMap.mem_keys_iff.mp hpair
    rw [of?_of_ofEntries h hnot] at hd
    cases hd
  rw [NodePair.make, hof]

/-! ### Lists that say the same in short -/

/-- The nodes that a list of entries gives a distance are those that an entry joins. -/
theorem lastBetween?_isSome_iff {a b : NodeId} {l : List DistanceEntry} :
    (∃ d, lastBetween? a b l = some d) ↔ ∃ x ∈ l, x.Joins a b := by
  induction l with
  | nil => simp [lastBetween?]
  | cons x rest ih =>
    rw [List.exists_mem_cons_iff, ← ih, lastBetween?]
    cases lastBetween? a b rest with
    | none => simp
    | some d => simp

/-- A list has one entry for any two nodes that another list mentions, at the distance that this one
gives them last; the low node comes first, and the entries are in the order of their pairs. -/
structure Condenses (es l : List DistanceEntry) : Prop where
  oriented : ∀ x ∈ es, x.a.toNat < x.b.toNat
  ascending : es.Pairwise fun x y =>
    x.a.toNat < y.a.toNat ∨ x.a = y.a ∧ x.b.toNat < y.b.toNat
  mentioned : ∀ a b, (∃ x ∈ l, x.Joins a b) ↔ ∃! x, x ∈ es ∧ x.Joins a b
  last : ∀ x ∈ es, lastBetween? x.a x.b l = some x.distance

/-- Entries with the low node first that join the same nodes have them in the same order. -/
theorem nodes_eq_of_joins {x y : DistanceEntry} {a b : NodeId} (hx : x.a.toNat < x.b.toNat)
    (hy : y.a.toNat < y.b.toNat) (hjoins : x.Joins a b) (hjoins' : y.Joins a b) :
    x.a = y.a ∧ x.b = y.b := by
  rcases hjoins with ⟨rfl, rfl⟩ | ⟨rfl, rfl⟩ <;> rcases hjoins' with ⟨ha, hb⟩ | ⟨ha, hb⟩
  · exact ⟨ha.symm, hb.symm⟩
  · rw [ha, hb] at hy
    omega
  · rw [ha, hb] at hy
    omega
  · exact ⟨ha.symm, hb.symm⟩

/-- There is only one way to say it. -/
theorem Condenses.unique {es es' l : List DistanceEntry} (h : Condenses es l)
    (h' : Condenses es' l) : es = es' := by
  have subset : ∀ {es es' : List DistanceEntry}, Condenses es l → Condenses es' l → es ⊆ es' := by
    intro es es' h h' x hx
    obtain ⟨y, ⟨hy, hjoins⟩, -⟩ := (h'.mentioned x.a x.b).mp
      (lastBetween?_isSome_iff.mp ⟨_, h.last x hx⟩)
    obtain ⟨ha, hb⟩ := nodes_eq_of_joins (h.oriented x hx) (h'.oriented y hy) (.inl ⟨rfl, rfl⟩) hjoins
    have hdistance := h.last x hx
    rw [ha, hb, h'.last y hy] at hdistance
    have heq : y = x := by
      obtain ⟨a, b, d⟩ := x
      obtain ⟨a', b', d'⟩ := y
      simp only at ha hb hdistance
      rw [ha, hb, Option.some.inj hdistance]
    rw [← heq]
    exact hy
  have nodup : ∀ {es : List DistanceEntry}, Condenses es l → es.Nodup := by
    intro es h
    refine h.ascending.imp ?_
    intro x y hlt heq
    subst heq
    omega
  have hperm : es.Perm es' := (List.perm_ext_iff_of_nodup (nodup h) (nodup h')).mpr fun x =>
    ⟨fun hx => subset h h' hx, fun hx => subset h' h hx⟩
  refine hperm.eq_of_pairwise ?_ h.ascending h'.ascending
  intro x y _ _ hxy hyx
  rcases hxy with hxy | ⟨hxy, hlt⟩ <;> rcases hyx with hyx | ⟨hyx, hlt'⟩
  · omega
  · rw [hyx] at hxy
    omega
  · rw [hxy] at hyx
    omega
  · omega

/-- The entries of a matrix condense the list that it was made of. -/
theorem condenses_ofEntries {l : List DistanceEntry} {m : DistanceMatrix}
    (h : ofEntries l = .ok m) : Condenses m.toEntries l := by
  have hentry : ∀ e ∈ m.entries, NodePair.of? e.1.low e.1.high = some e.1 ∧
      lastBetween? e.1.low e.1.high l = some e.2 := by
    intro e he
    obtain ⟨a, b, hmake⟩ := canonical_ofEntries h e.1 (List.mem_map_of_mem he)
    have hof := of?_of_make hmake
    refine ⟨hof, ?_⟩
    rw [← between?_ofEntries h, between?, hof, Option.bind_some]
    exact SortedMap.get?_eq_some_iff.mpr he
  have horiented : ∀ x ∈ m.toEntries, x.a.toNat < x.b.toNat := by
    intro x hx
    obtain ⟨e, he, rfl⟩ := List.mem_map.mp hx
    exact NodePair.of?_low_high (hentry e he).1
  have hlast : ∀ x ∈ m.toEntries, lastBetween? x.a x.b l = some x.distance := by
    intro x hx
    obtain ⟨e, he, rfl⟩ := List.mem_map.mp hx
    exact (hentry e he).2
  refine ⟨horiented, ?_, fun a b => ⟨fun hmentioned => ?_, ?_⟩, hlast⟩
  · rw [toEntries, List.pairwise_map]
    exact m.ascending.imp fun hlt => NodePair.rank_lt_iff.mp hlt
  · obtain ⟨d, hd⟩ := lastBetween?_isSome_iff.mpr hmentioned
    rw [← between?_ofEntries h, between?] at hd
    obtain ⟨pair, hof, hget⟩ := Option.bind_eq_some_iff.mp hd
    have hmem : (⟨pair.low, pair.high, d⟩ : DistanceEntry) ∈ m.toEntries :=
      List.mem_map.mpr ⟨(pair, d), SortedMap.get?_eq_some_iff.mp hget, rfl⟩
    have hjoins : (⟨pair.low, pair.high, d⟩ : DistanceEntry).Joins a b := by
      rcases eq_of_of? hof with rfl | rfl
      · exact .inl ⟨rfl, rfl⟩
      · exact .inr ⟨rfl, rfl⟩
    refine ⟨_, ⟨hmem, hjoins⟩, ?_⟩
    rintro x ⟨hx, hxjoins⟩
    obtain ⟨ha, hb⟩ := nodes_eq_of_joins (horiented x hx) (horiented _ hmem) hxjoins hjoins
    have hdistance := hlast x hx
    rw [ha, hb, hlast _ hmem] at hdistance
    obtain ⟨a', b', d'⟩ := x
    simp only at ha hb hdistance
    rw [ha, hb, Option.some.inj hdistance]
  · rintro ⟨x, ⟨hx, hjoins⟩, -⟩
    have hof : m.between? x.a x.b = some x.distance := by
      rw [between?_ofEntries h]
      exact hlast x hx
    have hab : m.between? a b = some x.distance := by
      rcases hjoins with ⟨rfl, rfl⟩ | ⟨rfl, rfl⟩
      · exact hof
      · rw [between?, NodePair.of?_comm]
        exact hof
    rw [between?_ofEntries h] at hab
    exact lastBetween?_isSome_iff.mp ⟨_, hab⟩

/-- The entries of a matrix make that matrix again.  A list of entries makes no matrix exactly if it
pairs a node with itself, and the error names the first such node; any other list makes one, whose
entries say each thing once that the list says last. -/
theorem entries_lossless :
    (∀ m : DistanceMatrix, m.Canonical → ofEntries m.toEntries = .ok m) ∧
    ∀ l : List DistanceEntry,
      (∀ err, ofEntries l = .error err ↔
        ∃ before x after, l = before ++ x :: after ∧ (∀ y ∈ before, y.a ≠ y.b) ∧ x.a = x.b ∧
          err = .selfPair x.a) ∧
      ((∀ x ∈ l, x.a ≠ x.b) →
        ∃ m, ofEntries l = .ok m ∧ m.Canonical ∧ Condenses m.toEntries l) := by
  refine ⟨fun m hm => ofEntries_toEntries hm, fun l => ⟨ofEntriesOnto_eq_error_iff .empty l, ?_⟩⟩
  intro hdistinct
  obtain ⟨m, hm⟩ := exists_ofEntries hdistinct
  exact ⟨m, hm, canonical_ofEntries hm, condenses_ofEntries hm⟩

/-- Of three distances between two nodes, given in both orders, the last one stays. -/
theorem repeated_entries_condensed :
    let l : List DistanceEntry := [⟨⟨2⟩, ⟨1⟩, .unlimited⟩, ⟨⟨3⟩, ⟨1⟩, .zero⟩,
      ⟨⟨1⟩, ⟨2⟩, .unlimited⟩, ⟨⟨2⟩, ⟨1⟩, .zero⟩]
    (∀ x ∈ l, x.a ≠ x.b) ∧ ∃ m, ofEntries l = .ok m ∧
      m.toEntries = [⟨⟨1⟩, ⟨2⟩, .zero⟩, ⟨⟨1⟩, ⟨3⟩, .zero⟩] ∧ Condenses m.toEntries l ∧
      m.Canonical ∧ ofEntries m.toEntries = .ok m := by
  intro l
  have hdistinct : ∀ x ∈ l, x.a ≠ x.b := by decide
  obtain ⟨m, hm, hcanonical, hcondenses⟩ := (entries_lossless.2 l).2 hdistinct
  have hentries : (ofEntries l).toOption.map toEntries =
      some [⟨⟨1⟩, ⟨2⟩, .zero⟩, ⟨⟨1⟩, ⟨3⟩, .zero⟩] := by decide +kernel
  rw [hm] at hentries
  exact ⟨hdistinct, m, hm, Option.some.inj hentries, hcondenses, hcanonical,
    entries_lossless.1 m hcanonical⟩

end DistanceMatrix

end ProximityNet
