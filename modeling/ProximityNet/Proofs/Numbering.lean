import Mathlib.Data.List.ProdSigma
import Mathlib.Data.List.Zip
import ProximityNet.Proofs.Populations
import ProximityNet.Proofs.Wiring

/-!
# Interfaces have numbers of their own

An emulation node numbers its interfaces as they come: each has the number of those of its kind before
it.  Kind and number together tell the interfaces of a node apart, so a pairing that takes every
interface, or every two interfaces, once takes no pair of them twice.

* `Counted` — interfaces with the kinds on a list, each with the number of its kind before it;
* `counted_of_numbered`, `Counted.nodup` — numbering counts, and what is counted is told apart;
* `emulation_cases` — when an emulation node cannot be made, and what it is otherwise;
* `Built.interfaces_nodup` — the interfaces of any node that can be made are distinct;
* `Pairing.Fair` — no pair comes twice, and the two nodes can be swapped;
* `fair_equal`, `fair_product` — the pairings are fair;
* `candidates_distinct` — all of it.
-/

namespace ProximityNet

namespace Node

/-! ### Numbers -/

/-- Interfaces with the kinds on a list, each numbered with the count of its kind before it. -/
structure Counted (kinds : List InterfaceKind) (interfaces : List Interface) : Prop where
  length_eq : interfaces.length = kinds.length
  kind_eq : ∀ i (h : i < interfaces.length) (h' : i < kinds.length), interfaces[i].kind = kinds[i]
  number_eq : ∀ i (h : i < interfaces.length) (h' : i < kinds.length),
    interfaces[i].number.toNat = (kinds.take i).count kinds[i]

/-- Each kind goes on from the count that it has already. -/
theorem number_of_numbered {used : SortedMap InterfaceKind Nat} {kinds : List InterfaceKind}
    {interfaces : List Interface} (h : numbered used kinds = some interfaces) :
    ∀ i (_ : i < interfaces.length) (_ : i < kinds.length),
      interfaces[i].number.toNat = (used.get? kinds[i]).getD 0 + (kinds.take i).count kinds[i] := by
  induction kinds generalizing used interfaces with
  | nil =>
    intro i _ h'
    exact absurd h' (Nat.not_lt_zero i)
  | cons kind rest ih =>
    rw [numbered] at h
    split at h
    · rename_i hfree
      obtain ⟨later, hlater, rfl⟩ := Option.map_eq_some_iff.mp h
      intro i hi hi'
      cases i with
      | zero =>
        show (UInt16.ofNat ((used.get? kind).getD 0)).toNat = _
        rw [UInt16.toNat_ofNat_of_lt' hfree]
        simp
      | succ i =>
        have hi : i < later.length := Nat.lt_of_succ_lt_succ hi
        have hi' : i < rest.length := Nat.lt_of_succ_lt_succ hi'
        have hnumber := ih hlater i hi hi'
        simp only [List.getElem_cons_succ, List.take_succ_cons]
        rw [hnumber]
        by_cases hk : kind = rest[i]
        · rw [← hk, SortedMap.get?_insert_self, Option.getD_some, List.count_cons_self]
          omega
        · rw [SortedMap.get?_insert_of_ne used _ hk, List.count_cons_of_ne hk]
    · cases h

theorem counted_of_numbered {kinds : List InterfaceKind} {interfaces : List Interface}
    (h : numbered .empty kinds = some interfaces) : Counted kinds interfaces := by
  have hkinds := map_kind_numbered h
  refine ⟨?_, fun i hi hi' => ?_, fun i hi hi' => ?_⟩
  · rw [← hkinds, List.length_map]
  · simp only [← hkinds, List.getElem_map]
  · rw [number_of_numbered h i hi hi', SortedMap.get?_empty, Option.getD_none, Nat.zero_add]

/-- Of two interfaces of one kind the later one has the larger number. -/
theorem Counted.nodup {kinds : List InterfaceKind} {interfaces : List Interface}
    (h : Counted kinds interfaces) : interfaces.Nodup := by
  refine List.pairwise_iff_getElem.mpr fun i j hi hj hij heq => ?_
  have hi' : i < kinds.length := by
    rw [← h.length_eq]
    exact hi
  have hj' : j < kinds.length := by
    rw [← h.length_eq]
    exact hj
  have hkind : kinds[i] = kinds[j] := by
    rw [← h.kind_eq i hi hi', ← h.kind_eq j hj hj', heq]
  have hnumber : (kinds.take i).count kinds[i] = (kinds.take j).count kinds[j] := by
    rw [← h.number_eq i hi hi', ← h.number_eq j hj hj', heq]
  have hcount : (kinds.take (i + 1)).count kinds[i] = (kinds.take i).count kinds[i] + 1 := by
    rw [List.take_succ_eq_append_getElem hi', List.count_append, List.count_singleton_self]
  have hle : (kinds.take (i + 1)).count kinds[i] ≤ (kinds.take j).count kinds[i] :=
    (List.take_prefix_take_left hij).sublist.count_le _
  rw [hkind] at hcount hle hnumber
  omega

/-- An emulation node cannot be made exactly if too many of its interfaces are of one kind. -/
theorem emulation_cases {id : NodeId} (hid : id.isReserved = false) (kinds : List InterfaceKind) :
    ((∃ kind, 65536 < kinds.count kind) ∧ emulation id kinds = .error (.tooManyInterfaces id)) ∨
      ((∀ kind, kinds.count kind ≤ 65536) ∧ ∃ interfaces, Counted kinds interfaces ∧
        emulation id kinds = .ok ⟨id, .emulation, interfaces⟩) := by
  have hsucceeds := succeeds_emulation hid kinds
  rw [emulation, if_neg (by simp [hid])] at hsucceeds ⊢
  cases hnumbered : numbered .empty kinds with
  | none =>
    rw [hnumbered] at hsucceeds
    have hmany := hsucceeds.not_of_error
    simp only [not_forall, not_le] at hmany
    exact .inl ⟨hmany, rfl⟩
  | some interfaces =>
    rw [hnumbered] at hsucceeds
    exact .inr ⟨hsucceeds.of_ok, interfaces, counted_of_numbered hnumbered, rfl⟩

/-- The interfaces of a node that can be made are distinct. -/
theorem Built.interfaces_nodup {node : Node} (h : node.Built) : node.interfaces.Nodup := by
  cases h with
  | @emulation id kinds _ hmake =>
    cases hid : id.isReserved with
    | true =>
      rw [Node.emulation, if_pos hid] at hmake
      cases hmake
    | false =>
      rcases emulation_cases hid kinds with ⟨-, herror⟩ | ⟨-, interfaces, hcounted, hok⟩
      · rw [herror] at hmake
        cases hmake
      · rw [hok] at hmake
        obtain rfl := Except.ok.inj hmake
        exact hcounted.nodup
  | @central index _ hmake =>
    rw [Node.central] at hmake
    split at hmake
    · obtain rfl := Except.ok.inj hmake
      exact List.nodup_singleton _
    · cases hmake
  | management => exact List.nodup_singleton _

end Node

/-! ### Pairings -/

namespace Pairing

/-- A pairing lists no pair of interfaces of two nodes twice, and the same pairs whichever of the
nodes comes first. -/
structure Fair (p : Pairing) (x y : Node) : Prop where
  nodup : (p x y).Nodup
  swap : ∀ ix iy, (ix, iy) ∈ p x y ↔ (iy, ix) ∈ p y x

theorem product_eq (l l' : List Interface) : product l l' = l ×ˢ l' := rfl

theorem nodup_zip {α β : Type} {l : List α} (h : l.Nodup) (l' : List β) : (l.zip l').Nodup := by
  induction l generalizing l' with
  | nil => simp
  | cons a rest ih =>
    obtain ⟨ha, hrest⟩ := List.nodup_cons.mp h
    cases l' with
    | nil => simp
    | cons b rest' =>
      rw [List.zip_cons_cons, List.nodup_cons]
      exact ⟨fun hmem => ha (List.of_mem_zip hmem).1, ih hrest rest'⟩

theorem mem_zip_swap {α β : Type} {l : List α} {l' : List β} {a : α} {b : β} :
    (a, b) ∈ l.zip l' ↔ (b, a) ∈ l'.zip l := by
  rw [← List.zip_swap l l', List.mem_map]
  constructor
  · intro h
    exact ⟨(a, b), h, rfl⟩
  · rintro ⟨⟨a', b'⟩, hmem, heq⟩
    obtain ⟨rfl, rfl⟩ := Prod.mk.inj heq
    exact hmem

variable {x y : Node}

theorem fair_equal (hx : x.normalInterfaces.Nodup) : Fair equal x y :=
  ⟨nodup_zip hx _, fun _ _ => mem_zip_swap⟩

/-- Pairing all interfaces of some sort is fair. -/
theorem fair_product {f : Node → List Interface} (hx : (f x).Nodup) (hy : (f y).Nodup) :
    Fair (fun x y => product (f x) (f y)) x y := by
  refine ⟨hx.product hy, fun ix iy => ?_⟩
  show (ix, iy) ∈ f x ×ˢ f y ↔ (iy, ix) ∈ f y ×ˢ f x
  rw [List.mem_product, List.mem_product, and_comm]

theorem equal_subset_all (x y : Node) : equal x y ⊆ all x y := by
  rintro ⟨ix, iy⟩ hmem
  rw [all, product_eq, List.mem_product]
  exact List.of_mem_zip hmem

theorem length_equal (x y : Node) :
    (equal x y).length = min x.normalInterfaces.length y.normalInterfaces.length :=
  List.length_zip

theorem length_all (x y : Node) :
    (all x y).length = x.normalInterfaces.length * y.normalInterfaces.length :=
  List.length_product _ _

end Pairing

/-- An emulation node with an id that is not reserved cannot be made exactly if more than 65536 of its
interfaces are of one kind.  Otherwise each interface has the kind on the list and the number of its
kind before it, and no two are the same.  So no pairing of nodes that can be made takes a pair of
interfaces twice or minds which node comes first, and equal pairing takes some of all pairs. -/
theorem candidates_distinct :
    (∀ (id : NodeId) (kinds : List InterfaceKind), id.isReserved = false →
      (∀ err, Node.emulation id kinds = .error err ↔
        (∃ kind, 65536 < kinds.count kind) ∧ err = .tooManyInterfaces id) ∧
      ((∀ kind, kinds.count kind ≤ 65536) → ∃ interfaces, Node.Counted kinds interfaces ∧
        interfaces.Nodup ∧ Node.emulation id kinds = .ok ⟨id, .emulation, interfaces⟩)) ∧
    ∀ x y : Node, x.Built → y.Built →
      Pairing.equal.Fair x y ∧ Pairing.all.Fair x y ∧ Pairing.hub.Fair x y ∧
      Pairing.equal x y ⊆ Pairing.all x y ∧
      (Pairing.equal x y).length =
        min x.normalInterfaces.length y.normalInterfaces.length ∧
      (Pairing.all x y).length = x.normalInterfaces.length * y.normalInterfaces.length := by
  refine ⟨fun id kinds hid => ?_, fun x y hx hy => ?_⟩
  · rcases Node.emulation_cases hid kinds with ⟨hmany, herror⟩ | ⟨hfew, interfaces, hcounted, hok⟩
    · refine ⟨fun err => ?_, fun hfew => ?_⟩
      · rw [herror, Except.error.injEq, and_iff_right hmany, eq_comm]
      · obtain ⟨kind, hkind⟩ := hmany
        exact absurd (hfew kind) (Nat.not_le.mpr hkind)
    · refine ⟨fun err => ?_, fun _ => ⟨interfaces, hcounted, hcounted.nodup, hok⟩⟩
      rw [hok]
      refine iff_of_false nofun ?_
      rintro ⟨⟨kind, hkind⟩, -⟩
      exact absurd (hfew kind) (Nat.not_le.mpr hkind)
  · have hnormalx : x.normalInterfaces.Nodup := hx.interfaces_nodup.filter _
    have hnormaly : y.normalInterfaces.Nodup := hy.interfaces_nodup.filter _
    have hhubx : x.hubInterfaces.Nodup := hx.interfaces_nodup.filter _
    have hhuby : y.hubInterfaces.Nodup := hy.interfaces_nodup.filter _
    exact ⟨Pairing.fair_equal hnormalx, Pairing.fair_product hnormalx hnormaly,
      Pairing.fair_product hhubx hhuby, Pairing.equal_subset_all x y, Pairing.length_equal x y,
      Pairing.length_all x y⟩

/-- Two normal interfaces beside three give two pairs one by one, and six in all. -/
theorem mixed_candidates_distinct :
    let x : Node := ⟨⟨1⟩, .emulation, [⟨.mesh, 0⟩, ⟨.hub, 0⟩, ⟨.mesh, 1⟩]⟩
    let y : Node := ⟨⟨2⟩, .emulation, [⟨.ap, 0⟩, ⟨.mesh, 0⟩, ⟨.ap, 1⟩]⟩
    x.Built ∧ y.Built ∧ Pairing.equal.Fair x y ∧ Pairing.all.Fair x y ∧
      Pairing.equal x y = [(⟨.mesh, 0⟩, ⟨.ap, 0⟩), (⟨.mesh, 1⟩, ⟨.mesh, 0⟩)] ∧
      (Pairing.all x y).length = 6 := by
  intro x y
  have hmakex : Node.emulation ⟨1⟩ [.mesh, .hub, .mesh] = .ok x := by decide +kernel
  have hmakey : Node.emulation ⟨2⟩ [.ap, .mesh, .ap] = .ok y := by decide +kernel
  have hx : x.Built := .emulation hmakex
  have hy : y.Built := .emulation hmakey
  obtain ⟨hequal, hall, -, -, -, hlength⟩ := candidates_distinct.2 x y hx hy
  exact ⟨hx, hy, hequal, hall, by decide, hlength⟩

end ProximityNet
