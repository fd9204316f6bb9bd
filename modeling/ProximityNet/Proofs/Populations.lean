import ProximityNet.Proofs.Validation

/-!
# The nodes of a scenario

A scenario numbers its emulation nodes from one on; the hub and the management node have ids from the
block at the top.  Validation keeps the two apart, so no two nodes of a scenario have one id and all
of them can be made known to an engine.

* `Node.made_of_emulation` — an emulation node has the interfaces it was asked for, in their order;
* `exists_of_mapM` — every result of a traversal comes from one of its items;
* `Engine.known_of_addNodes` — which nodes an engine knows after some were made known;
* `Scenario.nodes_eq`, `Scenario.emulated_of_mem` — what the nodes of a scenario are;
* `Scenario.Populated` — what is said of them: ids of their own, and interfaces for what is attached;
* `Scenario.nodes_apart` — all this holds of every scenario that passes validation.
-/

namespace ProximityNet

/-! ### Emulation nodes -/

namespace Node

/-- Numbering leaves the kinds as they are. -/
theorem map_kind_numbered {used : SortedMap InterfaceKind Nat} {kinds : List InterfaceKind}
    {interfaces : List Interface} (h : numbered used kinds = some interfaces) :
    interfaces.map (·.kind) = kinds := by
  induction kinds generalizing used interfaces with
  | nil =>
    obtain rfl := Option.some.inj h
    rfl
  | cons kind rest ih =>
    rw [numbered] at h
    split at h
    · obtain ⟨later, hlater, rfl⟩ := Option.map_eq_some_iff.mp h
      rw [List.map_cons, ih hlater]
    · cases h

/-- An emulation node with this id and with interfaces of these kinds. -/
structure Made (id : NodeId) (kinds : List InterfaceKind) (node : Node) : Prop where
  id_eq : node.id = id
  role : node.role = .emulation
  kinds_eq : node.interfaces.map (·.kind) = kinds

theorem made_of_emulation {id : NodeId} {kinds : List InterfaceKind} {node : Node}
    (h : emulation id kinds = .ok node) : Made id kinds node := by
  rw [emulation] at h
  split at h
  · cases h
  · split at h
    · rename_i interfaces hnumbered
      obtain rfl := Except.ok.inj h
      exact ⟨rfl, rfl, map_kind_numbered hnumbered⟩
    · cases h

/-- A node has as many interfaces of some sort as there are kinds of that sort on its list. -/
theorem Made.length_filter {id : NodeId} {kinds : List InterfaceKind} {node : Node}
    (h : Made id kinds node) (p : InterfaceKind → Bool) :
    (node.interfaces.filter fun i => p i.kind).length = kinds.countP p := by
  rw [← h.kinds_eq, List.countP_map, List.countP_eq_length_filter]
  rfl

end Node

/-- Every result of a traversal comes from one of its items. -/
theorem exists_of_mapM {ε α β : Type} {f : α → Except ε β} {l : List α} {l' : List β}
    (h : l.mapM f = .ok l') {b : β} (hb : b ∈ l') : ∃ a ∈ l, f a = .ok b := by
  induction l generalizing l' with
  | nil =>
    obtain rfl : [] = l' := Except.ok.inj h
    cases hb
  | cons a rest ih =>
    rw [List.mapM_cons] at h
    obtain ⟨b', ha, h⟩ := exists_of_bind h
    obtain ⟨bs, hrest, h⟩ := exists_of_bind h
    obtain rfl : b' :: bs = l' := Except.ok.inj h
    rcases List.mem_cons.mp hb with rfl | hb
    · exact ⟨a, List.mem_cons_self, ha⟩
    · obtain ⟨a', ha', hf⟩ := ih hrest hb
      exact ⟨a', List.mem_cons_of_mem a ha', hf⟩

/-! ### Nodes that are made known -/

/-- An engine knows the nodes that it knew and those that it was told. -/
theorem Engine.known_of_addNodes {σ μ : Type} {e e' : Engine σ μ} {nodes : List Node}
    (h : e.addNodes nodes = .ok e') (id : NodeId) (node : Node) :
    e'.nodes.get? id = some node ↔ e.nodes.get? id = some node ∨ (node ∈ nodes ∧ node.id = id) := by
  induction nodes generalizing e with
  | nil =>
    obtain rfl := Except.ok.inj h
    simp
  | cons first rest ih =>
    rw [addNodes, addNode] at h
    split at h
    · rename_i e₁ hadd
      split at hadd
      · cases hadd
      · rename_i hnew
        obtain rfl := Except.ok.inj hadd
        have hfree : e.nodes.get? first.id = none := Option.not_isSome_iff_eq_none.mp hnew
        rw [ih h, List.mem_cons]
        by_cases hid : first.id = id
        · subst hid
          rw [SortedMap.get?_insert_self, hfree, Option.some.injEq]
          constructor
          · rintro (heq | ⟨hmem, heq⟩)
            · exact .inr ⟨.inl heq.symm, heq ▸ rfl⟩
            · exact .inr ⟨.inr hmem, heq⟩
          · rintro (hnone | ⟨rfl | hmem, heq⟩)
            · cases hnone
            · exact .inl rfl
            · exact .inr ⟨hmem, heq⟩
        · rw [SortedMap.get?_insert_of_ne _ _ hid]
          constructor
          · rintro (hknown | ⟨hmem, heq⟩)
            · exact .inl hknown
            · exact .inr ⟨.inr hmem, heq⟩
          · rintro (hknown | ⟨rfl | hmem, heq⟩)
            · exact .inl hknown
            · exact absurd heq hid
            · exact .inr ⟨hmem, heq⟩
    · cases h

/-! ### The nodes of a scenario -/

namespace Scenario

variable {s : Scenario} {nodes : List Node}

/-- The hub of a scenario, if it has one. -/
def hub (s : Scenario) : List Node :=
  if s.centralHub then [⟨.central 0, .central, [⟨.hub, 0⟩]⟩] else []

/-- The management node of a scenario, if it has one. -/
def manager (s : Scenario) : List Node := if s.management then [.management] else []

/-- The emulation nodes come first, then the hub and the management node. -/
theorem nodes_eq (h : s.nodes = .ok nodes) :
    ∃ emulated, (s.nodeIds.mapM fun id => Node.emulation id s.allInterfaces) = .ok emulated ∧
      nodes = emulated ++ s.hub ++ s.manager := by
  rw [Scenario.nodes] at h
  obtain ⟨emulated, hemulated, h⟩ := exists_of_bind h
  refine ⟨emulated, hemulated, ?_⟩
  rw [hub, manager]
  cases hhub : s.centralHub <;> rw [hhub] at h <;> exact (Except.ok.inj h).symm

/-- What is said of the nodes of a scenario. -/
structure Populated (s : Scenario) (nodes : List Node) : Prop where
  distinct : (nodes.map (·.id)).Nodup
  emulated : (nodes.filter (·.isEmulation)).map (·.id) = s.nodeIds
  hubs : (nodes.filter (·.isCentral)).map (·.id) = if s.centralHub then [.central 0] else []
  managers : (nodes.filter (·.isManagement)).map (·.id) = if s.management then [.management] else []
  hubInterfaces : ∀ node ∈ nodes, node.isEmulation = true →
    (node.interfaces.filter (·.kind.isHub)).length = if s.centralHub then 1 else 0
  managementInterfaces : ∀ node ∈ nodes, node.isEmulation = true →
    (node.interfaces.filter (·.kind.isManagement)).length = if s.management then 1 else 0

namespace Valid

theorem countP_interfaces (h : s.Valid) {p : InterfaceKind → Bool}
    (hp : ∀ kind, p kind = true → kind.isNormal = false) : s.interfaces.countP p = 0 := by
  rw [List.countP_eq_zero]
  intro kind hkind hspecial
  have hnormal := h.normal kind hkind
  rw [hp kind hspecial] at hnormal
  cases hnormal

theorem countP_hub (h : s.Valid) :
    s.allInterfaces.countP (·.isHub) = if s.centralHub then 1 else 0 := by
  have hnone : s.interfaces.countP (·.isHub) = 0 :=
    h.countP_interfaces fun kind hkind => by cases kind <;> first | rfl | cases hkind
  rw [allInterfaces, List.countP_append, List.countP_append, hnone]
  cases s.centralHub <;> cases s.management <;> rfl

theorem countP_management (h : s.Valid) :
    s.allInterfaces.countP (·.isManagement) = if s.management then 1 else 0 := by
  have hnone : s.interfaces.countP (·.isManagement) = 0 :=
    h.countP_interfaces fun kind hkind => by cases kind <;> first | rfl | cases hkind
  rw [allInterfaces, List.countP_append, List.countP_append, hnone]
  cases s.centralHub <;> cases s.management <;> rfl

/-- The numbers of the emulation nodes. -/
theorem toNat_nodeIds (h : s.Valid) : s.nodeIds.map (·.toNat) = List.range' 1 s.nodeCount := by
  rw [nodeIds, List.map_map, List.range'_eq_map_range]
  refine List.map_congr_left fun i hi => ?_
  rw [Function.comp, h.toNat_of_mem (List.mem_range.mp hi), Nat.add_comm]

/-- Nodes that could be made are as they should be. -/
theorem populated_nodes (h : s.Valid) (hnodes : s.nodes = .ok nodes) : s.Populated nodes := by
  have hdistinct := h.ids_nodup hnodes
  obtain ⟨emulated, hmade, rfl⟩ := nodes_eq hnodes
  have hmem : ∀ node ∈ emulated, ∃ id, Node.Made id s.allInterfaces node := by
    intro node hnode
    obtain ⟨id, -, hemulation⟩ := exists_of_mapM hmade hnode
    exact ⟨id, Node.made_of_emulation hemulation⟩
  have hrole : ∀ node ∈ emulated, node.role = .emulation := by
    intro node hnode
    obtain ⟨id, hmade⟩ := hmem node hnode
    exact hmade.role
  have hids : emulated.map (·.id) = s.nodeIds := by
    rw [map_of_mapM (k := id) (fun _ _ hok => Node.id_of_emulation hok) hmade, List.map_id]
  -- the hub and the management node play other parts
  have hall : emulated.filter (·.isEmulation) = emulated := by
    rw [List.filter_eq_self]
    intro node hnode
    simp [Node.isEmulation, hrole node hnode]
  have hcentral : emulated.filter (·.isCentral) = [] := by
    rw [List.filter_eq_nil_iff]
    intro node hnode
    simp [Node.isCentral, hrole node hnode]
  have hmanagement : emulated.filter (·.isManagement) = [] := by
    rw [List.filter_eq_nil_iff]
    intro node hnode
    simp [Node.isManagement, hrole node hnode]
  have hemulation : ∀ node ∈ emulated ++ s.hub ++ s.manager, node.isEmulation = true →
      node ∈ emulated := by
    intro node hnode hemulation
    have hfilter := List.mem_filter.mpr ⟨hnode, hemulation⟩
    rw [List.filter_append, List.filter_append, hall, hub, manager] at hfilter
    cases hhub : s.centralHub <;> cases hmanager : s.management <;>
      simpa [hhub, hmanager, Node.isEmulation, Node.management] using hfilter
  refine ⟨hdistinct, ?_, ?_, ?_, fun node hnode hrole => ?_, fun node hnode hrole => ?_⟩
  · rw [List.filter_append, List.filter_append, hall, ← hids, hub, manager]
    cases s.centralHub <;> cases s.management <;> simp [Node.isEmulation, Node.management]
  · rw [List.filter_append, List.filter_append, hcentral, hub, manager]
    cases s.centralHub <;> cases s.management <;> rfl
  · rw [List.filter_append, List.filter_append, hmanagement, hub, manager]
    cases s.centralHub <;> cases s.management <;> rfl
  · obtain ⟨id, hmade⟩ := hmem node (hemulation node hnode hrole)
    rw [hmade.length_filter (·.isHub), h.countP_hub]
  · obtain ⟨id, hmade⟩ := hmem node (hemulation node hnode hrole)
    rw [hmade.length_filter (·.isManagement), h.countP_management]

/-- A new engine can be told all nodes of a scenario, and knows them and no others. -/
theorem exists_known {σ μ : Type} (h : s.Valid) (hnodes : s.nodes = .ok nodes)
    (setting : Setting σ) (movement : Option μ) (world : σ) :
    ∃ e, (Engine.start setting movement world).addNodes nodes = .ok e ∧
      ∀ id node, e.nodes.get? id = some node ↔ node ∈ nodes ∧ node.id = id := by
  obtain ⟨e, he⟩ := Engine.exists_addNodes (e := Engine.start setting movement world)
    (h.ids_nodup hnodes) fun _ _ => rfl
  refine ⟨e, he, fun id node => ?_⟩
  rw [Engine.known_of_addNodes he]
  exact or_iff_right fun hnone => by cases hnone

end Valid

/-- The emulation nodes of a scenario that passes validation are numbered from one on, below the
reserved ids.  Its nodes can be made exactly if no kind of interface stands on its list more than
65536 times; then no two have one id, each emulation node has one interface for the hub and one for the
management node if there is one, and an engine can be told them all. -/
theorem nodes_apart (hs : s.validate = .ok ()) :
    s.nodeIds.map (·.toNat) = List.range' 1 s.nodeCount ∧
      (∀ id ∈ s.nodeIds, id.isReserved = false) ∧
      ((∃ nodes, s.nodes = .ok nodes) ↔ ∀ kind, s.interfaces.count kind ≤ 65536) ∧
      ∀ nodes, s.nodes = .ok nodes → s.Populated nodes ∧
        ∀ {σ μ : Type} (setting : Setting σ) (movement : Option μ) (world : σ),
          ∃ e, (Engine.start setting movement world).addNodes nodes = .ok e ∧
            ∀ id node, e.nodes.get? id = some node ↔ node ∈ nodes ∧ node.id = id := by
  have h := valid_of_validate hs
  refine ⟨h.toNat_nodeIds, fun id hid => h.not_isReserved hid, h.succeeds_nodes.1, ?_⟩
  intro nodes hnodes
  exact ⟨h.populated_nodes hnodes, fun setting movement world => h.exists_known hnodes setting movement world⟩

/-- Three nodes with two interfaces of one kind, a hub and a management node. -/
def attended : Scenario :=
  { standard with
    nodeCount := 3
    interfaces := [.mesh, .mesh, .bluetooth]
    centralHub := true
    management := true }

/-- There are five nodes, and an engine can be told all of them. -/
theorem attended_apart : attended.validate = .ok () ∧ ∃ nodes, attended.nodes = .ok nodes ∧
    nodes.length = 5 ∧ attended.Populated nodes ∧ ∃ e : Engine Unit Stationary,
      (Engine.start ⟨.unshaped .none, .equal, .silent, .local⟩ none ()).addNodes nodes = .ok e := by
  have hvalidate : attended.validate = .ok () := by decide +kernel
  have hlength : (attended.nodes.toOption.map (·.length)) = some 5 := by decide +kernel
  obtain ⟨-, -, -, hnodes⟩ := nodes_apart hvalidate
  cases hresult : attended.nodes with
  | error fault =>
    rw [hresult] at hlength
    cases hlength
  | ok nodes =>
    rw [hresult] at hlength
    obtain ⟨hpopulated, hknown⟩ := hnodes nodes hresult
    obtain ⟨e, he, -⟩ := hknown ⟨.unshaped .none, .equal, .silent, .local⟩
      (none : Option Stationary) ()
    exact ⟨hvalidate, nodes, rfl, Option.some.inj hlength, hpopulated, e, he⟩

end Scenario

end ProximityNet
