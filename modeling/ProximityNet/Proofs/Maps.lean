import Mathlib.Data.List.Forall2
import Mathlib.Data.List.Nodup
import ProximityNet.SortedMap

/-!
# Sorted maps through their lookups

A sorted map is known by its lookups (`SortedMap.ext_get?`).  This file says in lookups what its
lists of keys, values and entries hold, and what writing under one key comes to:

* `insert_insert`, `insert_of_get?` — of two values the later stays, and one that stands changes nothing;
* `mem_keys_iff`, `mem_values_iff`, `isEmpty_iff`, `contains_iff` — the lists and tests of a map;
* `keys_nodup` — no key stands in a map twice;
* `get?_ofList_const` — a map made of a list of keys with one value;
* `forall₂_entries` — maps whose lookups are related have related entries in the same order.
-/

namespace ProximityNet.SortedMap

variable {κ ν μ : Type} [Ranked κ]

theorem get?_insert_self (m : SortedMap κ ν) (k : κ) (v : ν) : (m.insert k v).get? k = some v := by
  rw [get?_insert, if_pos rfl]

theorem get?_insert_of_ne (m : SortedMap κ ν) {k q : κ} (v : ν) (h : k ≠ q) :
    (m.insert k v).get? q = m.get? q := by
  rw [get?_insert, if_neg (fun hr => h (rank_injective _ _ hr))]

theorem get?_erase_self (m : SortedMap κ ν) (k : κ) : (m.erase k).get? k = none := by
  rw [get?_erase, if_pos rfl]

theorem get?_erase_of_ne (m : SortedMap κ ν) {k q : κ} (h : k ≠ q) :
    (m.erase k).get? q = m.get? q := by
  rw [get?_erase, if_neg (fun hr => h (rank_injective _ _ hr))]

/-! ### Writing under one key -/

theorem insert_insert (m : SortedMap κ ν) (k : κ) (v w : ν) :
    (m.insert k v).insert k w = m.insert k w := by
  apply ext_get?
  intro q
  rw [get?_insert, get?_insert, get?_insert]
  split <;> rfl

/-- Writing what stands there already. -/
theorem insert_of_get? {m : SortedMap κ ν} {k : κ} {v : ν} (h : m.get? k = some v) :
    m.insert k v = m := by
  apply ext_get?
  intro q
  rw [get?_insert]
  split
  · rename_i hk
    rw [← rank_injective _ _ hk, h]
  · rfl

/-! ### Keys, values and tests -/

theorem mem_keys_iff {m : SortedMap κ ν} {k : κ} : k ∈ m.keys ↔ ∃ v, m.get? k = some v := by
  constructor
  · intro h
    obtain ⟨e, he, rfl⟩ := List.mem_map.mp h
    exact ⟨e.2, get?_eq_some_iff.mpr he⟩
  · rintro ⟨v, hv⟩
    exact List.mem_map.mpr ⟨(k, v), get?_eq_some_iff.mp hv, rfl⟩

theorem mem_values_iff {m : SortedMap κ ν} {v : ν} : v ∈ m.values ↔ ∃ k, m.get? k = some v := by
  constructor
  · intro h
    obtain ⟨e, he, rfl⟩ := List.mem_map.mp h
    exact ⟨e.1, get?_eq_some_iff.mpr he⟩
  · rintro ⟨k, hk⟩
    exact List.mem_map.mpr ⟨(k, v), get?_eq_some_iff.mp hk, rfl⟩

theorem keys_nodup (m : SortedMap κ ν) : m.keys.Nodup := by
  rw [keys, List.Nodup, List.pairwise_map]
  refine m.ascending.imp ?_
  intro a b hab heq
  rw [heq] at hab
  exact Nat.lt_irrefl _ hab

theorem entries_nodup (m : SortedMap κ ν) : m.entries.Nodup := by
  refine m.ascending.imp ?_
  intro a b hab heq
  rw [heq] at hab
  exact Nat.lt_irrefl _ hab

theorem isEmpty_iff {m : SortedMap κ ν} : m.isEmpty = true ↔ ∀ k, m.get? k = none := by
  rw [isEmpty, List.isEmpty_iff]
  constructor
  · intro h k
    rw [get?, h]
    rfl
  · intro h
    rw [List.eq_nil_iff_forall_not_mem]
    intro e he
    have hsome := get?_eq_some_iff.mpr he
    rw [h] at hsome
    cases hsome

theorem isEmpty_eq_false_iff {m : SortedMap κ ν} :
    m.isEmpty = false ↔ ∃ k v, m.get? k = some v := by
  rw [← Bool.not_eq_true, isEmpty_iff, not_forall]
  simp only [Option.ne_none_iff_exists']

theorem contains_iff {m : SortedMap κ ν} {k : κ} : m.contains k = true ↔ ∃ v, m.get? k = some v := by
  rw [contains, Option.isSome_iff_exists]

theorem get?_ofList_const {l : List κ} {v : ν} {q : κ} [DecidableEq κ] :
    (ofList (l.map fun k => (k, v))).get? q = if q ∈ l then some v else none := by
  induction l with
  | nil => rfl
  | cons k rest ih =>
    show ((ofList (rest.map fun k => (k, v))).alter k (·.getD v)).get? q = _
    rw [get?_alter, ih]
    by_cases hk : k = q
    · subst hk
      have hv : ((ofList (rest.map fun k => (k, v))).get? k).getD v = v := by
        rw [ih]
        split <;> rfl
      simp [hv]
    · have hq : q ≠ k := fun h => hk h.symm
      simp [hk, hq]

/-! ### Related maps -/

theorem rel_eq_iff {α : Type} {a b : Option α} : Option.Rel (· = ·) a b ↔ a = b := by
  constructor
  · intro h
    cases h with
    | none => rfl
    | some heq => rw [heq]
  · rintro rfl
    cases a with
    | none => exact Option.Rel.none
    | some x => exact Option.Rel.some rfl

theorem rel_of_mem {α β : Type} {R : α → β → Prop} {a : Option α} {b : Option β} {x : α} {y : β}
    (h : Option.Rel R a b) (ha : a = some x) (hb : b = some y) : R x y := by
  subst ha hb
  cases h
  assumption

/-- The entries of two ascending lists whose lookups are related go together one by one. -/
theorem forall₂_of_find {R : ν → μ → Prop} {l : List (κ × ν)} {l' : List (κ × μ)}
    (hl : l.Pairwise fun a b => rank a.1 < rank b.1)
    (hl' : l'.Pairwise fun a b => rank a.1 < rank b.1)
    (h : ∀ k, Option.Rel R (find k l) (find k l')) :
    List.Forall₂ (fun e e' => e.1 = e'.1 ∧ R e.2 e'.2) l l' := by
  induction l generalizing l' with
  | nil =>
    cases l' with
    | nil => exact List.Forall₂.nil
    | cons e' rest' =>
      have hk := h e'.1
      simp only [find, if_true] at hk
      cases hk
  | cons e rest ih =>
    obtain ⟨k, v⟩ := e
    obtain ⟨hhead, hrest⟩ := List.pairwise_cons.mp hl
    cases l' with
    | nil =>
      have hk := h k
      simp only [find, if_true] at hk
      cases hk
    | cons e' rest' =>
      obtain ⟨k', v'⟩ := e'
      obtain ⟨hhead', hrest'⟩ := List.pairwise_cons.mp hl'
      -- the smaller of the two first keys would be missing on the other side
      have hkk : k = k' := by
        rcases Nat.lt_trichotomy (rank k) (rank k') with hlt | heq | hgt
        · have hnone : find k ((k', v') :: rest') = none := by
            refine find_eq_none fun e he => ?_
            rcases List.mem_cons.mp he with rfl | he
            · exact Nat.ne_of_gt hlt
            · exact Nat.ne_of_gt (Nat.lt_trans hlt (hhead' e he))
          have hk := h k
          rw [hnone] at hk
          simp only [find, if_true] at hk
          cases hk
        · exact rank_injective _ _ heq
        · have hnone : find k' ((k, v) :: rest) = none := by
            refine find_eq_none fun e he => ?_
            rcases List.mem_cons.mp he with rfl | he
            · exact Nat.ne_of_gt hgt
            · exact Nat.ne_of_gt (Nat.lt_trans hgt (hhead e he))
          have hk := h k'
          rw [hnone] at hk
          simp only [find, if_true] at hk
          cases hk
      subst hkk
      refine List.Forall₂.cons ⟨rfl, ?_⟩ (ih hrest hrest' fun q => ?_)
      · exact rel_of_mem (h k) (by simp [find]) (by simp [find])
      · by_cases hq : rank k = rank q
        · have hn : find q rest = none :=
            find_eq_none fun e he => hq ▸ Nat.ne_of_gt (hhead e he)
          have hn' : find q rest' = none :=
            find_eq_none fun e he => hq ▸ Nat.ne_of_gt (hhead' e he)
          rw [hn, hn']
          exact Option.Rel.none
        · have hk := h q
          simpa only [find, if_neg hq] using hk

/-- Maps whose lookups are related have related entries in the same order. -/
theorem forall₂_entries {R : ν → μ → Prop} {a : SortedMap κ ν} {b : SortedMap κ μ}
    (h : ∀ k, Option.Rel R (a.get? k) (b.get? k)) :
    List.Forall₂ (fun e e' => e.1 = e'.1 ∧ R e.2 e'.2) a.entries b.entries :=
  forall₂_of_find a.ascending b.ascending h

/-- Maps whose lookups are related have related values in the same order. -/
theorem forall₂_values {R : ν → μ → Prop} {a : SortedMap κ ν} {b : SortedMap κ μ}
    (h : ∀ k, Option.Rel R (a.get? k) (b.get? k)) : List.Forall₂ R a.values b.values := by
  rw [values, values, List.forall₂_map_left_iff, List.forall₂_map_right_iff]
  exact (forall₂_entries h).imp fun _ _ he => he.2

/-- Keys are listed in their order, so maps with the same keys list them alike. -/
theorem keys_eq_of_mem {a : SortedMap κ ν} {b : SortedMap κ μ} (h : ∀ k, k ∈ a.keys ↔ k ∈ b.keys) :
    a.keys = b.keys := by
  have hrel : ∀ k, Option.Rel (fun _ _ => True) (a.get? k) (b.get? k) := by
    intro k
    have hk := h k
    rw [mem_keys_iff, mem_keys_iff] at hk
    cases ha : a.get? k with
    | none =>
      cases hb : b.get? k with
      | none => exact .none
      | some v => simp [ha, hb] at hk
    | some v =>
      cases hb : b.get? k with
      | none => simp [ha, hb] at hk
      | some v' => exact .some trivial
  have hkeys : List.Forall₂ (· = ·) a.keys b.keys := by
    rw [keys, keys, List.forall₂_map_left_iff, List.forall₂_map_right_iff]
    exact (forall₂_entries hrel).imp fun _ _ he => he.1
  rw [List.forall₂_eq_eq_eq] at hkeys
  exact hkeys

end ProximityNet.SortedMap
