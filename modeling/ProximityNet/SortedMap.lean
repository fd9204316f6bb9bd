/-!
# Maps kept in the order of their keys

A `SortedMap` holds its entries as one list in strictly ascending key order, so a key stands in it
at most once and walking the map visits the keys in order.  Keys are ordered by a natural number
that tells them apart (`Ranked`).

* `alter` changes what stands under one key, and `insert` replaces it.
* `merge` walks two maps together and decides for every key from what both have under it.
* `get?_alter`, `get?_insert`, `get?_erase`, `get?_filter`, `get?_merge`, `get?_overlay` say what
  these do to every lookup.
* `ext_get?`: maps with the same lookups are the same map.
-/

namespace ProximityNet

/-- Keys that a natural number tells apart; a map lists its keys in the order of that number. -/
class Ranked (κ : Type) where
  /-- The place of a key in the order of all keys. -/
  rank : κ → Nat
  rank_injective : ∀ a b, rank a = rank b → a = b

export Ranked (rank rank_injective)

@[simp] theorem rank_inj {κ : Type} [Ranked κ] {a b : κ} : rank a = rank b ↔ a = b :=
  ⟨rank_injective a b, fun h => h ▸ rfl⟩

/-- Entries with strictly ascending keys. -/
structure SortedMap (κ ν : Type) [Ranked κ] where
  entries : List (κ × ν)
  ascending : entries.Pairwise fun a b => rank a.1 < rank b.1

namespace SortedMap

variable {κ ν μ ξ : Type} [Ranked κ]

/-! ### Lookups in the entry list -/

/-- The value under `k` in a list of entries. -/
def find (k : κ) : List (κ × ν) → Option ν
  | [] => none
  | (k', v) :: rest => if rank k' = rank k then some v else find k rest

theorem find_eq_none {q : κ} {l : List (κ × ν)} (h : ∀ e ∈ l, rank e.1 ≠ rank q) :
    find q l = none := by
  induction l with
  | nil => rfl
  | cons head rest ih =>
    obtain ⟨k', v'⟩ := head
    rw [find, if_neg (h (k', v') List.mem_cons_self)]
    exact ih fun e he => h e (List.mem_cons_of_mem _ he)

theorem find_append (q : κ) (l l' : List (κ × ν)) :
    find q (l ++ l') = (find q l).or (find q l') := by
  induction l with
  | nil => rfl
  | cons head rest ih =>
    obtain ⟨k', v'⟩ := head
    by_cases h : rank k' = rank q <;> simp [find, h, ih]

theorem find_filter {q : κ} {p : κ → Bool} {l : List (κ × ν)} :
    find q (l.filter fun e => p e.1) = if p q then find q l else none := by
  induction l with
  | nil => simp [find]
  | cons head rest ih =>
    obtain ⟨k', v'⟩ := head
    by_cases hk : k' = q
    · subst hk
      by_cases hp : p k' <;> simp [find, hp, ih]
    · by_cases hp : p k' <;> simp [find, hp, hk, ih]

/-! ### Changing one entry -/

/-- Put under `k` what `f` makes of the value that stands there, in an ascending list. -/
def place (k : κ) (f : Option ν → ν) : List (κ × ν) → List (κ × ν)
  | [] => [(k, f none)]
  | (k', v') :: rest =>
    if rank k < rank k' then (k, f none) :: (k', v') :: rest
    else if rank k' < rank k then (k', v') :: place k f rest
    else (k, f (some v')) :: rest

theorem fst_of_mem_place {k : κ} {f : Option ν → ν} {e : κ × ν} {l : List (κ × ν)}
    (h : e ∈ place k f l) : e.1 = k ∨ e ∈ l := by
  induction l with
  | nil =>
    rw [List.mem_singleton.1 h]
    exact Or.inl rfl
  | cons head rest ih =>
    obtain ⟨k', v'⟩ := head
    simp only [place] at h
    split at h
    · rcases List.mem_cons.1 h with rfl | h
      · exact Or.inl rfl
      · exact Or.inr h
    · split at h
      · rcases List.mem_cons.1 h with rfl | h
        · exact Or.inr List.mem_cons_self
        · exact (ih h).imp_right (List.mem_cons_of_mem _)
      · rcases List.mem_cons.1 h with rfl | h
        · exact Or.inl rfl
        · exact Or.inr (List.mem_cons_of_mem _ h)

theorem pairwise_place {k : κ} {f : Option ν → ν} {l : List (κ × ν)}
    (h : l.Pairwise fun a b => rank a.1 < rank b.1) :
    (place k f l).Pairwise fun a b => rank a.1 < rank b.1 := by
  induction l with
  | nil => simp [place]
  | cons head rest ih =>
    obtain ⟨k', v'⟩ := head
    obtain ⟨hhead, hrest⟩ := List.pairwise_cons.1 h
    simp only [place]
    split
    · rename_i hlt
      refine List.pairwise_cons.2 ⟨fun e he => ?_, h⟩
      rcases List.mem_cons.1 he with rfl | he
      · exact hlt
      · exact Nat.lt_trans hlt (hhead e he)
    · split
      · rename_i hlt
        refine List.pairwise_cons.2 ⟨fun e he => ?_, ih hrest⟩
        rcases fst_of_mem_place he with he | he
        · exact he ▸ hlt
        · exact hhead e he
      · have hk : rank k = rank k' := by omega
        exact List.pairwise_cons.2 ⟨fun e he => hk ▸ hhead e he, hrest⟩

theorem find_place {k q : κ} {f : Option ν → ν} {l : List (κ × ν)}
    (h : l.Pairwise fun a b => rank a.1 < rank b.1) :
    find q (place k f l) = if rank k = rank q then some (f (find k l)) else find q l := by
  induction l with
  | nil => simp [place, find]
  | cons head rest ih =>
    obtain ⟨k', v'⟩ := head
    obtain ⟨hhead, hrest⟩ := List.pairwise_cons.1 h
    simp only [place]
    split
    · rename_i hlt
      have hnone : find k ((k', v') :: rest) = none := by
        refine find_eq_none fun e he => ?_
        rcases List.mem_cons.1 he with rfl | he
        · exact Nat.ne_of_gt hlt
        · exact Nat.ne_of_gt (Nat.lt_trans hlt (hhead e he))
      rw [hnone]
      simp [find]
    · split
      · rename_i hlt
        have hkk : k' ≠ k := fun h => absurd hlt (h ▸ Nat.lt_irrefl _)
        by_cases hq : k' = q
        · subst hq
          simp [find, Ne.symm hkk]
        · simp [find, hq, hkk, ih hrest]
      · have hk : k' = k := rank_injective _ _ (by omega)
        subst hk
        by_cases hq : k' = q <;> simp [find, hq]

/-! ### Walking two lists together -/

/-- The entries of an ascending list below `k`, the value under `k`, and the entries above `k`. -/
def cut (k : κ) : List (κ × ν) → List (κ × ν) × Option ν × List (κ × ν)
  | [] => ([], none, [])
  | (k', v') :: rest =>
    if rank k' < rank k then
      let (below, here, above) := cut k rest
      ((k', v') :: below, here, above)
    else if rank k < rank k' then ([], none, (k', v') :: rest)
    else ([], some v', rest)

/-- An entry, unless there is no value for it. -/
def entry (k : κ) (v : Option ν) : List (κ × ν) := (v.map fun v => (k, v)).toList

omit [Ranked κ] in
theorem eq_of_mem_entry {k : κ} {v : Option ν} {e : κ × ν} (h : e ∈ entry k v) : e.1 = k := by
  cases v with
  | none => simp [entry] at h
  | some v => simp [entry] at h; rw [h]

theorem find_entry (k q : κ) (v : Option ν) :
    find q (entry k v) = if rank k = rank q then v else none := by
  cases v <;> simp [entry, find]

theorem cut_eq (k : κ) (l : List (κ × ν)) :
    (cut k l).1 ++ entry k (cut k l).2.1 ++ (cut k l).2.2 = l := by
  induction l with
  | nil => rfl
  | cons head rest ih =>
    obtain ⟨k', v'⟩ := head
    simp only [cut]
    split
    · simpa using ih
    · split
      · rfl
      · have hk : k' = k := rank_injective _ _ (by omega)
        rw [hk]
        rfl

theorem rank_lt_of_mem_cut {k : κ} {l : List (κ × ν)} {e : κ × ν} (h : e ∈ (cut k l).1) :
    rank e.1 < rank k := by
  induction l with
  | nil => simp [cut] at h
  | cons head rest ih =>
    obtain ⟨k', v'⟩ := head
    simp only [cut] at h
    split at h
    · rcases List.mem_cons.1 h with rfl | h
      · assumption
      · exact ih h
    · split at h <;> simp at h

theorem lt_rank_of_mem_cut {k : κ} {l : List (κ × ν)}
    (hl : l.Pairwise fun a b => rank a.1 < rank b.1) {e : κ × ν} (h : e ∈ (cut k l).2.2) :
    rank k < rank e.1 := by
  induction l with
  | nil => simp [cut] at h
  | cons head rest ih =>
    obtain ⟨k', v'⟩ := head
    obtain ⟨hhead, hrest⟩ := List.pairwise_cons.1 hl
    simp only [cut] at h
    split at h
    · exact ih hrest h
    · split at h
      · rename_i hlt
        rcases List.mem_cons.1 h with rfl | h
        · exact hlt
        · exact Nat.lt_trans hlt (hhead e h)
      · have := hhead e h
        simp only at this
        omega

/-- What `g` makes of the value of each entry; where it makes nothing there is no entry. -/
def keep (g : μ → Option ξ) (l : List (κ × μ)) : List (κ × ξ) :=
  l.flatMap fun e => entry e.1 (g e.2)

/-- Walk two ascending lists together: `f` decides for every key from what both have under it. -/
def mergeLists (f : Option ν → Option μ → Option ξ) :
    List (κ × ν) → List (κ × μ) → List (κ × ξ)
  | [], l' => keep (fun w => f none (some w)) l'
  | (k, v) :: l, l' =>
    let (below, here, above) := cut k l'
    keep (fun w => f none (some w)) below ++ entry k (f (some v) here) ++ mergeLists f l above

omit [Ranked κ] in
theorem fst_of_mem_keep {g : μ → Option ξ} {l : List (κ × μ)} {e : κ × ξ} (h : e ∈ keep g l) :
    ∃ e' ∈ l, e'.1 = e.1 := by
  obtain ⟨e', he', h⟩ := List.mem_flatMap.1 h
  exact ⟨e', he', (eq_of_mem_entry h).symm⟩

theorem pairwise_keep {g : μ → Option ξ} {l : List (κ × μ)}
    (h : l.Pairwise fun a b => rank a.1 < rank b.1) :
    (keep g l).Pairwise fun a b => rank a.1 < rank b.1 := by
  induction l with
  | nil => exact List.Pairwise.nil
  | cons head rest ih =>
    obtain ⟨hhead, hrest⟩ := List.pairwise_cons.1 h
    rw [keep, List.flatMap_cons, List.pairwise_append]
    refine ⟨?_, ih hrest, fun a ha b hb => ?_⟩
    · cases hg : g head.2 <;> simp [entry]
    · obtain ⟨e', he', hb⟩ := fst_of_mem_keep hb
      rw [eq_of_mem_entry ha, ← hb]
      exact hhead e' he'

theorem find_keep {q : κ} {g : μ → Option ξ} {l : List (κ × μ)}
    (h : l.Pairwise fun a b => rank a.1 < rank b.1) :
    find q (keep g l) = (find q l).bind g := by
  induction l with
  | nil => rfl
  | cons head rest ih =>
    obtain ⟨k', v'⟩ := head
    obtain ⟨hhead, hrest⟩ := List.pairwise_cons.1 h
    rw [keep, List.flatMap_cons, find_append, find_entry, ← keep, ih hrest]
    by_cases hq : k' = q
    · subst hq
      have hnone : find k' rest = none :=
        find_eq_none fun e he => Nat.ne_of_gt (hhead e he)
      simp [find, hnone]
    · simp [find, hq]

theorem fst_of_mem_mergeLists {f : Option ν → Option μ → Option ξ} {l : List (κ × ν)}
    {l' : List (κ × μ)} {e : κ × ξ} (h : e ∈ mergeLists f l l') :
    (∃ e' ∈ l, e'.1 = e.1) ∨ ∃ e' ∈ l', e'.1 = e.1 := by
  induction l generalizing l' with
  | nil => exact Or.inr (fst_of_mem_keep h)
  | cons head rest ih =>
    obtain ⟨k, v⟩ := head
    have hcut := cut_eq k l'
    rcases List.mem_append.1 h with h | h
    · rcases List.mem_append.1 h with h | h
      · obtain ⟨e', he', h⟩ := fst_of_mem_keep h
        refine Or.inr ⟨e', ?_, h⟩
        rw [← hcut]
        simp [he']
      · exact Or.inl ⟨(k, v), List.mem_cons_self, (eq_of_mem_entry h).symm⟩
    · rcases ih h with ⟨e', he', h⟩ | ⟨e', he', h⟩
      · exact Or.inl ⟨e', List.mem_cons_of_mem _ he', h⟩
      · refine Or.inr ⟨e', ?_, h⟩
        rw [← hcut]
        simp [he']

/-- What is above `k` in one list and in the other is above `k` in both together. -/
theorem rank_lt_of_mem_mergeLists {f : Option ν → Option μ → Option ξ} {k : κ} {l : List (κ × ν)}
    {l' : List (κ × μ)} (h : ∀ e ∈ l, rank k < rank e.1) (h' : ∀ e ∈ l', rank k < rank e.1)
    {e : κ × ξ} (he : e ∈ mergeLists f l l') : rank k < rank e.1 := by
  rcases fst_of_mem_mergeLists he with ⟨e', he', hk⟩ | ⟨e', he', hk⟩
  · exact hk ▸ h e' he'
  · exact hk ▸ h' e' he'

theorem pairwise_cut {k : κ} {l : List (κ × ν)}
    (h : l.Pairwise fun a b => rank a.1 < rank b.1) :
    (cut k l).1.Pairwise (fun a b => rank a.1 < rank b.1) ∧
      (cut k l).2.2.Pairwise fun a b => rank a.1 < rank b.1 := by
  rw [← cut_eq k l, List.pairwise_append, List.pairwise_append] at h
  exact ⟨h.1.1, h.2.1⟩

theorem pairwise_mergeLists {f : Option ν → Option μ → Option ξ} {l : List (κ × ν)}
    {l' : List (κ × μ)} (h : l.Pairwise fun a b => rank a.1 < rank b.1)
    (h' : l'.Pairwise fun a b => rank a.1 < rank b.1) :
    (mergeLists f l l').Pairwise fun a b => rank a.1 < rank b.1 := by
  induction l generalizing l' with
  | nil => exact pairwise_keep h'
  | cons head rest ih =>
    obtain ⟨k, v⟩ := head
    obtain ⟨hhead, hrest⟩ := List.pairwise_cons.1 h
    obtain ⟨hbelow, habove⟩ := pairwise_cut (k := k) h'
    have hafter : ∀ e ∈ mergeLists f rest (cut k l').2.2, rank k < rank e.1 := fun e he =>
      rank_lt_of_mem_mergeLists hhead (fun e he => lt_rank_of_mem_cut h' he) he
    have hbefore : ∀ e ∈ keep (fun w => f none (some w)) (cut k l').1,
        rank e.1 < rank k := fun e he => by
      obtain ⟨e', he', hk⟩ := fst_of_mem_keep he
      exact hk ▸ rank_lt_of_mem_cut he'
    show List.Pairwise _ ((_ ++ _) ++ _)
    refine List.pairwise_append.2 ⟨List.pairwise_append.2 ⟨pairwise_keep hbelow, ?_,
      fun a ha b hb => ?_⟩, ih hrest habove, fun a ha b hb => ?_⟩
    · cases f (some v) (cut k l').2.1 <;> simp [entry]
    · rw [eq_of_mem_entry hb]
      exact hbefore a ha
    · rcases List.mem_append.1 ha with ha | ha
      · exact Nat.lt_trans (hbefore a ha) (hafter b hb)
      · rw [eq_of_mem_entry ha]
        exact hafter b hb

theorem find_mergeLists {f : Option ν → Option μ → Option ξ} (hf : f none none = none) {q : κ}
    {l : List (κ × ν)} {l' : List (κ × μ)} (h : l.Pairwise fun a b => rank a.1 < rank b.1)
    (h' : l'.Pairwise fun a b => rank a.1 < rank b.1) :
    find q (mergeLists f l l') = f (find q l) (find q l') := by
  induction l generalizing l' with
  | nil =>
    rw [mergeLists, find_keep h']
    cases hw : find q l' <;> simp [find, hf]
  | cons head rest ih =>
    obtain ⟨k, v⟩ := head
    obtain ⟨hhead, hrest⟩ := List.pairwise_cons.1 h
    obtain ⟨hbelow, habove⟩ := pairwise_cut (k := k) h'
    have hl' : find q l' =
        ((find q (cut k l').1).or (if rank k = rank q then (cut k l').2.1 else none)).or
          (find q (cut k l').2.2) := by
      conv => lhs; rw [← cut_eq k l']
      rw [find_append, find_append, find_entry]
    have hmerge : find q (mergeLists f ((k, v) :: rest) l') =
        (((find q (cut k l').1).bind fun w => f none (some w)).or
          (if rank k = rank q then f (some v) (cut k l').2.1 else none)).or
          (f (find q rest) (find q (cut k l').2.2)) := by
      show find q ((_ ++ _) ++ _) = _
      rw [find_append, find_append, find_entry, ih hrest habove,
        find_keep hbelow]
    rw [hmerge, hl']
    have below_none : rank k ≤ rank q → find q (cut k l').1 = none := fun hk =>
      find_eq_none fun e he =>
        Nat.ne_of_lt (Nat.lt_of_lt_of_le (rank_lt_of_mem_cut he) hk)
    have above_none : rank q ≤ rank k → find q (cut k l').2.2 = none := fun hk =>
      find_eq_none fun e he =>
        Nat.ne_of_gt (Nat.lt_of_le_of_lt hk (lt_rank_of_mem_cut h' he))
    have rest_none : rank q ≤ rank k → find q rest = none := fun hk =>
      find_eq_none fun e he => Nat.ne_of_gt (Nat.lt_of_le_of_lt hk (hhead e he))
    by_cases hq : k = q
    · subst hq
      simp [find, below_none, above_none, rest_none, hf]
    · have hne : rank k ≠ rank q := fun h => hq (rank_injective _ _ h)
      rcases Nat.lt_or_gt_of_ne hne with hlt | hgt
      · simp [find, hq, below_none (Nat.le_of_lt hlt)]
      · cases hw : find q (cut k l').1 <;>
          simp [find, hq, above_none (Nat.le_of_lt hgt), rest_none (Nat.le_of_lt hgt), hf]

/-! ### The map -/

/-- The map without entries. -/
def empty : SortedMap κ ν := ⟨[], List.Pairwise.nil⟩

instance : Inhabited (SortedMap κ ν) := ⟨empty⟩

/-- The value under `k`. -/
def get? (m : SortedMap κ ν) (k : κ) : Option ν := find k m.entries

def contains (m : SortedMap κ ν) (k : κ) : Bool := (m.get? k).isSome

/-- Put under `k` what `f` makes of the value that stands there. -/
def alter (m : SortedMap κ ν) (k : κ) (f : Option ν → ν) : SortedMap κ ν :=
  ⟨place k f m.entries, pairwise_place m.ascending⟩

/-- Put `v` under `k`, in place of what stands there. -/
def insert (m : SortedMap κ ν) (k : κ) (v : ν) : SortedMap κ ν := m.alter k fun _ => v

/-- The entries whose keys a test admits. -/
def filter (m : SortedMap κ ν) (p : κ → Bool) : SortedMap κ ν :=
  ⟨m.entries.filter fun e => p e.1, m.ascending.filter _⟩

/-- Take the entry under `k` away. -/
def erase (m : SortedMap κ ν) (k : κ) : SortedMap κ ν := m.filter fun k' => rank k' != rank k

/-- What `f` makes of what two maps have under each key; where it makes nothing of it there is no
entry. -/
def merge (f : Option ν → Option μ → Option ξ) (a : SortedMap κ ν) (b : SortedMap κ μ) :
    SortedMap κ ξ :=
  ⟨mergeLists f a.entries b.entries, pairwise_mergeLists a.ascending b.ascending⟩

/-- Lay `other` over `m`: where both have a key, the value of `other` stays. -/
def overlay (m other : SortedMap κ ν) : SortedMap κ ν := merge (fun old new => new.or old) m other

/-- The map of a list of entries; of two entries with one key the later stays. -/
def ofList : List (κ × ν) → SortedMap κ ν
  | [] => empty
  | (k, v) :: rest => (ofList rest).alter k (·.getD v)

def size (m : SortedMap κ ν) : Nat := m.entries.length

def isEmpty (m : SortedMap κ ν) : Bool := m.entries.isEmpty

/-- All keys, ascending. -/
def keys (m : SortedMap κ ν) : List κ := m.entries.map (·.1)

/-- All values, in the order of their keys. -/
def values (m : SortedMap κ ν) : List ν := m.entries.map (·.2)

/-- Two maps agree when they have the same keys with agreeing values. -/
def agrees [BEq ν] : List (κ × ν) → List (κ × ν) → Bool
  | [], [] => true
  | (k, v) :: l, (k', v') :: l' => rank k == rank k' && v == v' && agrees l l'
  | _, _ => false

instance [BEq ν] : BEq (SortedMap κ ν) := ⟨fun a b => agrees a.entries b.entries⟩

/-! ### Lookups -/

@[simp] theorem get?_empty (q : κ) : (empty : SortedMap κ ν).get? q = none := rfl

theorem get?_alter (m : SortedMap κ ν) (k q : κ) (f : Option ν → ν) :
    (m.alter k f).get? q = if rank k = rank q then some (f (m.get? k)) else m.get? q :=
  find_place m.ascending

theorem get?_insert (m : SortedMap κ ν) (k q : κ) (v : ν) :
    (m.insert k v).get? q = if rank k = rank q then some v else m.get? q :=
  get?_alter m k q _

theorem get?_filter (m : SortedMap κ ν) (p : κ → Bool) (q : κ) :
    (m.filter p).get? q = if p q then m.get? q else none :=
  find_filter

theorem get?_erase (m : SortedMap κ ν) (k q : κ) :
    (m.erase k).get? q = if rank k = rank q then none else m.get? q := by
  rw [erase, get?_filter]
  by_cases h : k = q
  · simp [h]
  · simp [h, Ne.symm h]

theorem get?_merge {f : Option ν → Option μ → Option ξ} (hf : f none none = none)
    (a : SortedMap κ ν) (b : SortedMap κ μ) (q : κ) :
    (merge f a b).get? q = f (a.get? q) (b.get? q) :=
  find_mergeLists hf a.ascending b.ascending

theorem get?_overlay (m other : SortedMap κ ν) (q : κ) :
    (m.overlay other).get? q = (other.get? q).or (m.get? q) :=
  get?_merge rfl m other q

theorem get?_eq_some_iff {m : SortedMap κ ν} {k : κ} {v : ν} :
    m.get? k = some v ↔ (k, v) ∈ m.entries := by
  obtain ⟨l, hl⟩ := m
  show find k l = some v ↔ (k, v) ∈ l
  induction l with
  | nil => simp [find]
  | cons head rest ih =>
    obtain ⟨k', v'⟩ := head
    obtain ⟨hhead, hrest⟩ := List.pairwise_cons.1 hl
    by_cases hk : rank k' = rank k
    · have hkk : k' = k := rank_injective _ _ hk
      subst hkk
      have hnot : ∀ w, (k', w) ∉ rest := fun w hw => absurd (hhead _ hw) (Nat.lt_irrefl _)
      simp [find, hnot, eq_comm]
    · have hne : ¬(k = k') := fun h => hk (h ▸ rfl)
      rw [find, if_neg hk, ih hrest]
      simp [hne]

/-- Maps with the same lookups are the same map. -/
theorem ext_get? {a b : SortedMap κ ν} (h : ∀ k, a.get? k = b.get? k) : a = b := by
  have hmem : ∀ e, e ∈ a.entries ↔ e ∈ b.entries := fun e => by
    rw [← get?_eq_some_iff (k := e.1) (v := e.2), h, get?_eq_some_iff]
  obtain ⟨la, ha⟩ := a
  obtain ⟨lb, hb⟩ := b
  suffices la = lb by subst this; rfl
  clear h
  simp only at hmem
  induction la generalizing lb with
  | nil =>
    cases lb with
    | nil => rfl
    | cons e rest => exact absurd ((hmem e).2 List.mem_cons_self) (by simp)
  | cons e rest ih =>
    cases lb with
    | nil => exact absurd ((hmem e).1 List.mem_cons_self) (by simp)
    | cons e' rest' =>
      obtain ⟨h1, h1'⟩ := List.pairwise_cons.1 ha
      obtain ⟨h2, h2'⟩ := List.pairwise_cons.1 hb
      have hee : e = e' := by
        rcases List.mem_cons.1 ((hmem e).1 List.mem_cons_self) with h | h
        · exact h
        · rcases List.mem_cons.1 ((hmem e').2 List.mem_cons_self) with h' | h'
          · exact h'.symm
          · exact absurd (h1 e' h') (Nat.lt_asymm (h2 e h))
      subst hee
      have hrest : ∀ x, x ∈ rest ↔ x ∈ rest' := fun x => by
        constructor
        · intro hx
          rcases List.mem_cons.1 ((hmem x).1 (List.mem_cons_of_mem _ hx)) with rfl | h
          · exact absurd (h1 x hx) (Nat.lt_irrefl _)
          · exact h
        · intro hx
          rcases List.mem_cons.1 ((hmem x).2 (List.mem_cons_of_mem _ hx)) with rfl | h
          · exact absurd (h2 x hx) (Nat.lt_irrefl _)
          · exact h
      rw [ih h1' rest' h2' hrest]

end SortedMap

end ProximityNet
