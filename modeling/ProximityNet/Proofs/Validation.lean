import ProximityNet.Proofs.Incremental
import ProximityNet.Proofs.Tiers
import ProximityNet.Scenario.Basic

/-!
# What validation leaves open

A scenario is looked at twice: `validate` finds out whether it makes sense, and `engine` puts an
engine together for it.  This file says when the second succeeds after the first.  By then the link
model can be built, all ids are free, and the sides of a walk area are positive.  A replay that
pairs a node with itself, a walk area too large to draw places of it, and more interfaces of a kind
than can be numbered come to light only when the engine is put together.

* `SucceedsIff` — when a computation gives a result, and what it fails with otherwise;
* `Node.succeeds_emulation`, `Replay.succeeds_ofEntries`, `RandomWalk.succeeds_start` — the parts;
* `Engine.exists_addNodes` — nodes with ids of their own can all be made known;
* `Scenario.Valid`, `Scenario.valid_of_validate` — what validation ensures;
* `Scenario.assembles_iff` — which of the scenarios that pass validation have an engine.
-/

namespace ProximityNet

/-! ### Computations that may fail -/

/-- A computation gives a result exactly if `p`, and otherwise fails with one of `faults`. -/
def SucceedsIff {ε α : Type} (x : Except ε α) (p : Prop) (faults : ε → Prop) : Prop :=
  ((∃ a, x = .ok a) ↔ p) ∧ ∀ fault, x = .error fault → faults fault

namespace SucceedsIff

variable {ε ε' α β : Type} {x : Except ε α} {p q : Prop} {faults : ε → Prop}

theorem ok {a : α} (hp : p) : SucceedsIff (.ok a : Except ε α) p faults :=
  ⟨iff_of_true ⟨a, rfl⟩ hp, fun _ h => by cases h⟩

theorem error {fault : ε} (hp : ¬ p) (h : faults fault) :
    SucceedsIff (.error fault : Except ε α) p faults := by
  refine ⟨iff_of_false (fun ⟨a, h⟩ => by cases h) hp, fun fault' h' => ?_⟩
  rw [← Except.error.inj h']
  exact h

theorem of_ok {a : α} (h : SucceedsIff (.ok a : Except ε α) p faults) : p := h.1.mp ⟨a, rfl⟩

theorem not_of_error {fault : ε} (h : SucceedsIff (.error fault : Except ε α) p faults) : ¬ p :=
  fun hp => by cases (h.1.mpr hp).choose_spec

theorem exists_error (h : SucceedsIff x p faults) (hp : ¬ p) : ∃ fault, x = .error fault ∧ faults fault := by
  cases x with
  | error fault => exact ⟨fault, rfl, h.2 fault rfl⟩
  | ok a => exact absurd h.of_ok hp

theorem congr (h : SucceedsIff x p faults) (hq : p ↔ q) : SucceedsIff x q faults :=
  ⟨h.1.trans hq, h.2⟩

theorem weaken {faults' : ε → Prop} (h : SucceedsIff x p faults)
    (hf : ∀ fault, faults fault → faults' fault) : SucceedsIff x p faults' :=
  ⟨h.1, fun fault hfault => hf fault (h.2 fault hfault)⟩

theorem bind {f : α → Except ε β} (hx : SucceedsIff x p faults)
    (hf : ∀ a, x = .ok a → SucceedsIff (f a) q faults) : SucceedsIff (x >>= f) (p ∧ q) faults := by
  cases x with
  | error fault => exact error (fun h => hx.not_of_error h.1) (hx.2 fault rfl)
  | ok a => exact (hf a rfl).congr (by simp [hx.of_ok])

theorem map (h : SucceedsIff x p faults) (f : α → β) : SucceedsIff (x.map f) p faults := by
  cases x with
  | error fault => exact error h.not_of_error (h.2 fault rfl)
  | ok a => exact ok h.of_ok

theorem mapError {faults' : ε' → Prop} {g : ε → ε'} (h : SucceedsIff x p faults)
    (hg : ∀ fault, faults fault → faults' (g fault)) : SucceedsIff (x.mapError g) p faults' := by
  cases x with
  | error fault => exact error h.not_of_error (hg _ (h.2 fault rfl))
  | ok a => exact ok h.of_ok

/-- A traversal gives a result exactly if it does at every item. -/
theorem mapM {l : List α} {f : α → Except ε β} {p : α → Prop}
    (h : ∀ a ∈ l, SucceedsIff (f a) (p a) faults) :
    SucceedsIff (l.mapM f) (∀ a ∈ l, p a) faults := by
  induction l with
  | nil => exact ok (by simp)
  | cons a rest ih =>
    rw [List.mapM_cons]
    have hrest := ih fun b hb => h b (List.mem_cons_of_mem a hb)
    refine ((h a List.mem_cons_self).bind fun b _ => hrest.bind fun _ _ => ok trivial).congr ?_
    simp

end SucceedsIff

/-- Both parts of a computation that gives a result give one. -/
theorem exists_of_bind {ε α β : Type} {x : Except ε α} {f : α → Except ε β} {b : β}
    (h : x >>= f = .ok b) : ∃ a, x = .ok a ∧ f a = .ok b := by
  cases x with
  | error fault => cases h
  | ok a => exact ⟨a, rfl, h⟩

theorem eq_ok_of_mapError {ε ε' α : Type} {x : Except ε α} {g : ε → ε'} {a : α}
    (h : x.mapError g = .ok a) : x = .ok a := by
  cases x with
  | error fault => cases h
  | ok b => rw [show b = a from Except.ok.inj h]

/-- What is known of each result of a traversal. -/
theorem map_of_mapM {ε α β γ : Type} {f : α → Except ε β} {g : β → γ} {k : α → γ}
    (hf : ∀ a b, f a = .ok b → g b = k a) {l : List α} {l' : List β} (h : l.mapM f = .ok l') :
    l'.map g = l.map k := by
  induction l generalizing l' with
  | nil =>
    rw [← Except.ok.inj h]
    rfl
  | cons a rest ih =>
    rw [List.mapM_cons] at h
    cases ha : f a with
    | error fault =>
      rw [ha] at h
      cases h
    | ok b =>
      cases hrest : rest.mapM f with
      | error fault =>
        rw [ha, hrest] at h
        cases h
      | ok bs =>
        rw [ha, hrest] at h
        rw [← Except.ok.inj h, List.map_cons, List.map_cons, hf a b ha, ih hrest]

/-! ### Nodes -/

namespace Node

/-- How many interfaces of a kind there are when more are added to those that are numbered. -/
def load (used : SortedMap InterfaceKind Nat) (kinds : List InterfaceKind) (kind : InterfaceKind) :
    Nat := (used.get? kind).getD 0 + kinds.count kind

/-- An interface that gets a number is still one of its kind. -/
theorem load_cons (used : SortedMap InterfaceKind Nat) (kind : InterfaceKind)
    (rest : List InterfaceKind) :
    load used (kind :: rest) = load (used.insert kind ((used.get? kind).getD 0 + 1)) rest := by
  funext other
  by_cases hk : kind = other
  · subst hk
    rw [load, load, SortedMap.get?_insert_self, Option.getD_some, List.count_cons_self]
    omega
  · rw [load, load, SortedMap.get?_insert_of_ne used _ hk, List.count_cons_of_ne hk]

/-- Interfaces can be numbered exactly if there are not too many of a kind. -/
theorem numbered_isSome_iff {used : SortedMap InterfaceKind Nat} {kinds : List InterfaceKind}
    (hused : ∀ kind, (used.get? kind).getD 0 ≤ maxPerKind) :
    (numbered used kinds).isSome = true ↔ ∀ kind, load used kinds kind ≤ maxPerKind := by
  induction kinds generalizing used with
  | nil => exact iff_of_true rfl hused
  | cons kind rest ih =>
    rw [numbered, load_cons]
    by_cases hfree : (used.get? kind).getD 0 < maxPerKind
    · rw [if_pos hfree, Option.isSome_map]
      refine ih fun other => ?_
      rw [SortedMap.get?_insert]
      split
      · exact hfree
      · exact hused other
    · rw [if_neg hfree]
      refine iff_of_false (fun h => by cases h) fun h => ?_
      have hload := h kind
      rw [load, SortedMap.get?_insert_self, Option.getD_some] at hload
      omega

theorem succeeds_emulation {id : NodeId} (hid : id.isReserved = false)
    (kinds : List InterfaceKind) :
    SucceedsIff (emulation id kinds) (∀ kind, kinds.count kind ≤ maxPerKind)
      fun fault => fault = .tooManyInterfaces id := by
  have hnumbered := @numbered_isSome_iff .empty kinds fun _ => Nat.zero_le _
  simp only [load, SortedMap.get?_empty, Option.getD_none, Nat.zero_add] at hnumbered
  rw [emulation, if_neg (by simp [hid])]
  cases hresult : numbered .empty kinds with
  | none => exact .error (fun h => by simpa [hresult] using hnumbered.mpr h) rfl
  | some interfaces => exact .ok (hnumbered.mp (by rw [hresult]; rfl))

theorem id_of_emulation {id : NodeId} {kinds : List InterfaceKind} {node : Node}
    (h : emulation id kinds = .ok node) : node.id = id := by
  rw [emulation] at h
  split at h
  · cases h
  · split at h
    · rw [← Except.ok.inj h]
    · cases h

end Node

/-! ### Movements -/

/-- A pair is made of any two distinct nodes. -/
theorem NodePair.succeeds_make (a b : NodeId) :
    SucceedsIff (NodePair.make a b) (a ≠ b) fun fault => fault = .selfPair a := by
  rw [NodePair.make, NodePair.of?]
  have hinj : a.toNat = b.toNat ↔ a = b := ⟨rank_injective a b, fun h => by rw [h]⟩
  rcases Nat.lt_trichotomy a.toNat b.toNat with hlt | heq | hgt
  · rw [if_pos hlt]
    exact .ok fun h => Nat.ne_of_lt hlt (hinj.mpr h)
  · rw [if_neg (by omega), if_neg (by omega)]
    exact .error (fun h => h (hinj.mp heq)) rfl
  · rw [if_neg (by omega), if_pos hgt]
    exact .ok fun h => Nat.ne_of_gt hgt (hinj.mpr h)

theorem DistanceMatrix.succeeds_ofEntriesOnto (m : DistanceMatrix) (l : List DistanceEntry) :
    SucceedsIff (ofEntriesOnto m l) (∀ x ∈ l, x.a ≠ x.b)
      fun fault => ∃ node, fault = .selfPair node := by
  induction l generalizing m with
  | nil => exact .ok (by simp)
  | cons x rest ih =>
    have hset : SucceedsIff (m.set x.a x.b x.distance) (x.a ≠ x.b)
        fun fault => fault = .selfPair x.a := (NodePair.succeeds_make x.a x.b).map _
    rw [ofEntriesOnto]
    cases hresult : m.set x.a x.b x.distance with
    | ok m' =>
      rw [hresult] at hset
      exact (ih m').congr (by simp [hset.of_ok])
    | error fault =>
      rw [hresult] at hset
      exact .error (fun h => hset.not_of_error (h x List.mem_cons_self)) ⟨x.a, hset.2 fault rfl⟩

theorem Replay.succeeds_ofEntries (steps : List (List DistanceEntry)) :
    SucceedsIff (ofEntries steps) (∀ l ∈ steps, ∀ x ∈ l, x.a ≠ x.b)
      fun fault => ∃ node, fault = .selfPair node :=
  (SucceedsIff.mapM fun l _ => DistanceMatrix.succeeds_ofEntriesOnto .empty l).map start

/-- A side of an area of which places can be drawn. -/
def Stretchable (side : Float) : Prop := ((side - 0.0) / topFraction).isFinite = true

instance (side : Float) : Decidable (Stretchable side) := inferInstanceAs (Decidable (_ = true))

namespace RandomWalk

/-- A number can be drawn of a range exactly if the factor for it is finite. -/
theorem succeeds_draw_of_le {low high : Float} (h : low ≤ high) (g : Generator) :
    SucceedsIff (draw g low high) (((high - low) / topFraction).isFinite = true)
      fun fault => fault = .noChoice .unbounded := by
  rw [draw, Generator.between, rangeScale, if_pos h]
  dsimp only
  split
  · rename_i hscale
    split at hscale
    · rename_i hfinite
      exact .ok hfinite
    · cases hscale
  · rename_i hscale
    split at hscale
    · cases hscale
    · rename_i hfinite
      obtain rfl := Except.error.inj hscale
      exact .error hfinite rfl

theorem succeeds_draw {side : Float} (h : 0.0 < side) (g : Generator) :
    SucceedsIff (draw g 0.0 side) (Stretchable side) fun fault => fault = .noChoice .unbounded :=
  succeeds_draw_of_le (float_le_of_lt h) g

/-- Nodes can be placed exactly if a place can be drawn of both sides of the area. -/
theorem succeeds_place {area : WalkArea} (hwidth : 0.0 < area.width) (hheight : 0.0 < area.height)
    (ids : List NodeId) (state : SortedMap NodeId Position × Generator) :
    SucceedsIff (place area ids state) (ids = [] ∨ Stretchable area.width ∧ Stretchable area.height)
      fun fault => fault = .noChoice .unbounded := by
  induction ids generalizing state with
  | nil => exact .ok (.inl rfl)
  | cons id rest ih =>
    obtain ⟨positions, g⟩ := state
    rw [place]
    refine ((succeeds_draw hwidth g).bind fun x _ => (succeeds_draw hheight x.2).bind fun y _ =>
      ih (positions.insert id ⟨x.1, y.1⟩, y.2)).congr ?_
    constructor
    · exact fun ⟨hw, hh, _⟩ => .inr ⟨hw, hh⟩
    · rintro (h | ⟨hw, hh⟩)
      · cases h
      · exact ⟨hw, hh, .inr ⟨hw, hh⟩⟩

theorem succeeds_start {area : WalkArea} (hwidth : 0.0 < area.width) (hheight : 0.0 < area.height)
    {ids : List NodeId} (hids : ids ≠ []) (seed : Nat) :
    SucceedsIff (start ids area seed) (Stretchable area.width ∧ Stretchable area.height)
      fun fault => fault = .noChoice .unbounded := by
  rw [start]
  refine ((succeeds_place hwidth hheight ids _).bind fun _ _ => .ok trivial).congr ?_
  simp [hids]

end RandomWalk

/-! ### Making nodes known -/

/-- Nodes that are not known yet and have ids of their own can all be made known. -/
theorem Engine.exists_addNodes {σ μ : Type} {e : Engine σ μ} {nodes : List Node}
    (hids : (nodes.map (·.id)).Nodup) (hnew : ∀ node ∈ nodes, e.nodes.get? node.id = none) :
    ∃ e', e.addNodes nodes = .ok e' := by
  induction nodes generalizing e with
  | nil => exact ⟨e, rfl⟩
  | cons node rest ih =>
    obtain ⟨hfirst, hrest⟩ := List.nodup_cons.mp hids
    have hunknown : ¬ e.nodes.contains node.id = true := by
      rw [SortedMap.contains, hnew node List.mem_cons_self]
      exact Bool.false_ne_true
    rw [addNodes, addNode, if_neg hunknown]
    refine ih hrest fun other hother => ?_
    have hne : node.id ≠ other.id := fun h => hfirst (List.mem_map.mpr ⟨other, hother, h.symm⟩)
    show (e.nodes.insert node.id node).get? other.id = none
    rw [SortedMap.get?_insert_of_ne _ _ hne]
    exact hnew other (List.mem_cons_of_mem node hother)

/-! ### Scenarios -/

/-- A movement that can be begun: a replay pairs no node with itself, a walk has an area of which
places can be drawn. -/
def MovementPlan.Playable : MovementPlan → Prop
  | .randomWalk area _ => Stretchable area.width ∧ Stretchable area.height
  | .replay steps => ∀ l ∈ steps, ∀ x ∈ l, x.a ≠ x.b

/-- The faults that come to light only when an engine is put together. -/
inductive SimulationError.Late : SimulationError → Prop
  /-- A side of the area is too long to draw a place on it. -/
  | endlessArea : Late (.crashed (.noChoice .unbounded))
  /-- A replay pairs a node with itself. -/
  | selfPair (node : NodeId) : Late (.topology (.selfPair node))
  /-- A node has too many interfaces of a kind. -/
  | crowded (node : NodeId) : Late (.topology (.tooManyInterfaces node))

namespace Scenario

variable {s : Scenario}

/-- No kind of interface stands in a scenario more often than it can be numbered. -/
def Numberable (s : Scenario) : Prop := ∀ kind, s.interfaces.count kind ≤ Node.maxPerKind

/-- What validation ensures. -/
structure Valid (s : Scenario) : Prop where
  populated : 0 < s.nodeCount
  below : s.nodeCount < NodeId.management.toNat - reservedIds
  normal : ∀ kind ∈ s.interfaces, kind.isNormal = true
  area : ∀ area seed, s.movement = .randomWalk area seed → 0.0 < area.width ∧ 0.0 < area.height
  model : ∃ m, s.linkModel = .ok m

theorem checkNodes_eq_ok_iff : s.checkNodes = .ok () ↔
    0 < s.nodeCount ∧ s.nodeCount < NodeId.management.toNat - reservedIds := by
  rw [checkNodes]
  split
  · exact iff_of_false (fun h => by cases h) (by omega)
  · split
    · exact iff_of_false (fun h => by cases h) (by omega)
    · exact iff_of_true rfl (by omega)

theorem normal_of_checkInterfaces (h : s.checkInterfaces = .ok ()) :
    ∀ kind ∈ s.interfaces, kind.isNormal = true := by
  rw [checkInterfaces] at h
  split at h
  · cases h
  · split at h
    · cases h
    · rename_i hnone
      intro kind hkind
      simpa using List.find?_eq_none.mp hnone kind hkind

theorem area_of_checkMovement (h : s.checkMovement = .ok ()) (area : WalkArea) (seed : Nat)
    (hplan : s.movement = .randomWalk area seed) : 0.0 < area.width ∧ 0.0 < area.height := by
  rw [checkMovement, hplan] at h
  dsimp only at h
  split at h
  · cases h
  · rename_i hpositive
    simpa using hpositive

theorem checkAll_eq_ok_iff :
    s.checkAll = .ok () ↔ s.checkNodes = .ok () ∧ s.checkInterfaces = .ok () ∧
      s.checkInterval = .ok () ∧ s.checkLoss = .ok () ∧ s.checkMovement = .ok () ∧
      s.checkOwners = .ok () := by
  rw [checkAll, check_bind_eq_ok_iff, check_bind_eq_ok_iff, check_bind_eq_ok_iff,
    check_bind_eq_ok_iff, check_bind_eq_ok_iff]

theorem valid_of_validate (h : s.validate = .ok ()) : s.Valid := by
  rw [validate, check_bind_eq_ok_iff] at h
  obtain ⟨hchecks, hmodel⟩ := h
  obtain ⟨hnodes, hinterfaces, _, _, hmovement, _⟩ :=
    checkAll_eq_ok_iff.mp (eq_ok_of_mapError hchecks)
  obtain ⟨hpopulated, hbelow⟩ := checkNodes_eq_ok_iff.mp hnodes
  refine ⟨hpopulated, hbelow, normal_of_checkInterfaces hinterfaces,
    area_of_checkMovement hmovement, ?_⟩
  cases hresult : s.linkModel with
  | ok m => exact ⟨m, rfl⟩
  | error fault =>
    rw [hresult] at hmodel
    cases hmodel

/-- The emulation nodes come first, then the hub and the management node. -/
theorem map_id_nodes {nodes : List Node} (hnodes : s.nodes = .ok nodes) :
    nodes.map (·.id) = s.nodeIds ++ (if s.centralHub then [.central 0] else []) ++
      (if s.management then [.management] else []) := by
  rw [Scenario.nodes] at hnodes
  cases hemulated : s.nodeIds.mapM fun id => Node.emulation id s.allInterfaces with
  | error fault =>
    rw [hemulated] at hnodes
    cases hnodes
  | ok emulated =>
    have hmap : emulated.map (·.id) = s.nodeIds.map id :=
      map_of_mapM (fun _ _ h => Node.id_of_emulation h) hemulated
    rw [hemulated] at hnodes
    rw [List.map_id] at hmap
    rw [← hmap]
    cases hhub : s.centralHub <;> cases hmanagement : s.management <;>
      (rw [hhub, hmanagement] at hnodes
       rw [← Except.ok.inj hnodes, List.map_append, List.map_append]
       rfl)

namespace Valid

/-- The emulation nodes have low ids. -/
theorem toNat_of_mem (h : s.Valid) {i : Nat} (hi : i < s.nodeCount) :
    (NodeId.ofNat (i + 1)).toNat = i + 1 := by
  have hbelow : s.nodeCount < 4294966271 := h.below
  show (UInt32.ofNat (i + 1)).toNat = i + 1
  rw [UInt32.toNat_ofNat', Nat.mod_eq_of_lt (by omega)]

theorem not_isReserved (h : s.Valid) {id : NodeId} (hid : id ∈ s.nodeIds) :
    id.isReserved = false := by
  obtain ⟨i, hi, rfl⟩ := List.mem_map.mp hid
  have hi := List.mem_range.mp hi
  have hbelow := h.below
  rw [NodeId.isReserved, h.toNat_of_mem hi, decide_eq_false_iff_not]
  omega

theorem nodeIds_nodup (h : s.Valid) : s.nodeIds.Nodup := by
  refine List.Nodup.map_on (fun i hi j hj hij => ?_) List.nodup_range
  have hi := h.toNat_of_mem (List.mem_range.mp hi)
  have hj := h.toNat_of_mem (List.mem_range.mp hj)
  rw [hij] at hi
  omega

theorem nodeIds_ne_nil (h : s.Valid) : s.nodeIds ≠ [] := by
  have hpopulated := h.populated
  rw [nodeIds, Ne, List.map_eq_nil_iff, List.range_eq_nil]
  omega

/-- The interfaces for the hub and for the management node are one of their kind each. -/
theorem count_allInterfaces (h : s.Valid) :
    (∀ kind, s.allInterfaces.count kind ≤ Node.maxPerKind) ↔ s.Numberable := by
  refine forall_congr' fun kind => ?_
  have hspecial : kind.isNormal = false → s.interfaces.count kind = 0 := fun hkind =>
    List.count_eq_zero.mpr fun hmem => by
      have hnormal := h.normal kind hmem
      rw [hkind] at hnormal
      cases hnormal
  have hextra : s.allInterfaces.count kind = s.interfaces.count kind +
      (if s.centralHub then [.hub] else []).count kind +
      (if s.management then [.management] else []).count kind := by
    rw [allInterfaces, List.count_append, List.count_append]
  rw [hextra]
  cases kind with
  | hub =>
    rw [hspecial rfl]
    cases s.centralHub <;> cases s.management <;> decide
  | management =>
    rw [hspecial rfl]
    cases s.centralHub <;> cases s.management <;> decide
  | _ => cases s.centralHub <;> cases s.management <;> rfl

/-- The nodes of a scenario can be made exactly if their interfaces can be numbered. -/
theorem succeeds_nodes (h : s.Valid) :
    SucceedsIff s.nodes s.Numberable fun fault => ∃ node, fault = .tooManyInterfaces node := by
  have hemulated : SucceedsIff (s.nodeIds.mapM fun id => Node.emulation id s.allInterfaces)
      (∀ id ∈ s.nodeIds, s.Numberable) fun fault => ∃ node, fault = .tooManyInterfaces node := by
    refine SucceedsIff.mapM fun id hid => ?_
    have hid := h.not_isReserved hid
    exact ((Node.succeeds_emulation hid s.allInterfaces).weaken fun _ h => ⟨id, h⟩).congr
      h.count_allInterfaces
  obtain ⟨id, hid⟩ := List.exists_mem_of_ne_nil _ h.nodeIds_ne_nil
  rw [nodes]
  refine (hemulated.bind (q := True) fun emulated _ => ?_).congr
    ⟨fun h => h.1 id hid, fun h => ⟨fun _ _ => h, trivial⟩⟩
  cases s.centralHub <;> exact .ok trivial

/-- Nodes have ids of their own. -/
theorem ids_nodup (h : s.Valid) {nodes : List Node} (hnodes : s.nodes = .ok nodes) :
    (nodes.map (·.id)).Nodup := by
  have hspecial : ∀ id ∈ (if s.centralHub then [NodeId.central 0] else []) ++
      (if s.management then [.management] else []), id.isReserved = true := by
    cases s.centralHub <;> cases s.management <;> decide
  rw [map_id_nodes hnodes, List.append_assoc, List.nodup_append]
  refine ⟨h.nodeIds_nodup, ?_, fun id hid id' hid' heq => ?_⟩
  · cases s.centralHub <;> cases s.management <;> decide
  · have hfree := h.not_isReserved hid
    rw [heq, hspecial id' hid'] at hfree
    cases hfree

/-- The nodes of a scenario can be put to their movement exactly if it can be begun. -/
theorem succeeds_course (h : s.Valid) :
    SucceedsIff s.course s.movement.Playable SimulationError.Late := by
  rw [course]
  cases hplan : s.movement with
  | randomWalk area seed =>
    obtain ⟨hwidth, hheight⟩ := h.area area seed hplan
    have hstart := RandomWalk.succeeds_start hwidth hheight h.nodeIds_ne_nil seed
    refine SucceedsIff.map (hstart.mapError ?_) _
    rintro fault rfl
    exact .endlessArea
  | replay steps =>
    refine SucceedsIff.map ((Replay.succeeds_ofEntries steps).mapError ?_) _
    rintro fault ⟨node, rfl⟩
    exact .selfPair node

/-- Nothing but the movement and the numbers of interfaces is left to fail. -/
theorem succeeds_engine {σ : Type} (h : s.Valid) (hs : s.validate = .ok ()) (backend : Backend σ)
    (tunnels : Part σ Ownership.Tunnels) (world : σ) :
    SucceedsIff (s.engine backend tunnels world) (s.movement.Playable ∧ s.Numberable)
      SimulationError.Late := by
  obtain ⟨model, hmodel⟩ := h.model
  have hnodes : SucceedsIff (s.nodes.mapError SimulationError.topology) s.Numberable
      SimulationError.Late := by
    refine h.succeeds_nodes.mapError ?_
    rintro fault ⟨node, rfl⟩
    exact .crowded node
  rw [engine, hs, hmodel]
  show SucceedsIff (s.course >>= _) _ _
  refine h.succeeds_course.bind fun course _ => ?_
  refine (hnodes.bind (q := True) fun nodes hresult => ?_).congr (and_iff_left trivial)
  -- a new engine knows no nodes, so ids have to differ among each other only
  obtain ⟨e, he⟩ := Engine.exists_addNodes (h.ids_nodup (eq_ok_of_mapError hresult))
    (e := Engine.start ⟨model, s.pairing.pairing, backend, s.policy tunnels⟩ (some course)
      (tunnels.set .empty world)) fun _ _ => rfl
  dsimp only
  rw [he]
  exact .ok trivial

end Valid

/-- An engine can be put together for a scenario that passes validation exactly if its movement can
be begun and its interfaces can be numbered. -/
theorem assembles_iff {σ : Type} (hs : s.validate = .ok ()) (backend : Backend σ)
    (tunnels : Part σ Ownership.Tunnels) (world : σ) :
    ((∃ e, s.engine backend tunnels world = .ok e) ↔ s.movement.Playable ∧ s.Numberable) ∧
      ∀ fault, s.engine backend tunnels world = .error fault → fault.Late :=
  (valid_of_validate hs).succeeds_engine hs backend tunnels world

/-- The scenario in which nothing is said can be put together. -/
theorem standard_assembles :
    standard.validate = .ok () ∧ ∃ e : Engine Ownership.Tunnels Course,
      standard.engine .silent ⟨id, fun t _ => t⟩ .empty = .ok e := by
  have hvalidate : standard.validate = .ok () := by decide +kernel
  refine ⟨hvalidate, (assembles_iff hvalidate _ _ _).1.mpr ⟨⟨?_, ?_⟩, fun kind => ?_⟩⟩
  · decide +kernel
  · decide +kernel
  · cases kind <;> decide

/-- A replay in which a node is paired with itself. -/
def selfPaired : Scenario :=
  { standard with nodeCount := 2, movement := .replay [[⟨.ofNat 1, .ofNat 1, .zero⟩]] }

/-- It passes validation, and no engine can be put together for it. -/
theorem selfPaired_not_assembled :
    selfPaired.validate = .ok () ∧
      ∀ (backend : Backend Ownership.Tunnels) (tunnels : Part Ownership.Tunnels Ownership.Tunnels)
        (world : Ownership.Tunnels), selfPaired.engine backend tunnels world =
          .error (.topology (.selfPair (.ofNat 1))) :=
  ⟨by decide +kernel, fun _ _ _ => rfl⟩

end Scenario

end ProximityNet
