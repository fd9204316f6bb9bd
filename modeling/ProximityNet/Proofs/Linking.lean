import ProximityNet.Proofs.FlatStore
import ProximityNet.Proofs.Tallies

/-!
# Linking goes as far as the backend lets it

The nodes are linked to the management node one after another, and a node whose link cannot be made
is passed over.  Every link that is not up yet is tried once.  It is up afterwards unless the backend
has vetoed it or failed at it, so that linking again, when nothing is in the way, makes up for what
was missed and for nothing else.

* `Node.control?`, `Engine.controls` — the keys of the links to the management node;
* `Linked` — links have been seen to as some exchanges tell, one after another by `Linked.append`;
* `Setting.Move.linked`, `Setting.linkAll_linked` — one link, and all of them;
* `Engine.linking_idle` — where all links are up there is nothing to do;
* `linking_makes_up` — every engine that can be reached.
-/

namespace ProximityNet

variable {σ μ : Type}

/-- What a connection is stored under. -/
def Connection.key (c : Connection) : LinkKey := ⟨c.pair, c.interfaces⟩

/-- The keys of the link between a node and the management node. -/
def Node.control? (management node : Node) : Option LinkKey := do
  let ix ← node.managementInterface?
  let iy ← management.managementInterface?
  let pair ← NodePair.of? node.id management.id
  return ⟨pair, .oriented pair node.id ix iy⟩

section Control

variable {management node : Node} {ix iy : Interface} {pair : NodePair}

theorem Node.control?_of_none (hx : node.managementInterface? = none) :
    management.control? node = none := by rw [control?, hx]; rfl

theorem Node.control?_of_some (hx : node.managementInterface? = some ix)
    (hy : management.managementInterface? = some iy)
    (hpair : NodePair.make node.id management.id = .ok pair) :
    management.control? node = some ⟨pair, .oriented pair node.id ix iy⟩ := by
  rw [NodePair.make] at hpair
  rw [control?, hx, hy]
  cases hof : NodePair.of? node.id management.id with
  | none =>
    rw [hof] at hpair
    cases hpair
  | some pair' =>
    rw [hof] at hpair
    obtain rfl := Except.ok.inj hpair
    rfl

/-- Which pair it is says which node is linked. -/
theorem Node.id_eq_of_control? {node' : Node} {k k' : LinkKey}
    (h : management.control? node = some k) (h' : management.control? node' = some k')
    (heq : k.pair = k'.pair) : node.id = node'.id := by
  have pair : ∀ {node : Node} {k : LinkKey}, management.control? node = some k →
      NodePair.of? node.id management.id = some k.pair := by
    intro node k h
    obtain ⟨ix, -, h⟩ := Option.bind_eq_some_iff.mp h
    obtain ⟨iy, -, h⟩ := Option.bind_eq_some_iff.mp h
    obtain ⟨pair, hpair, h⟩ := Option.bind_eq_some_iff.mp h
    rw [hpair, ← Option.some.inj h]
  have hpair := eq_of_of? (pair h)
  have hpair' := eq_of_of? (pair h')
  rw [← heq] at hpair'
  grind

end Control

/-- The keys of all links to the management node. -/
def Engine.controls (e : Engine σ μ) : List LinkKey :=
  match e.nodes.get? .management with
  | some management => e.emulationNodes.filterMap management.control?
  | none => []

/-- Whether the connection under these keys is there and up. -/
def ConnectionStore.up (st : ConnectionStore) (k : LinkKey) : Bool :=
  (st.find? k.pair k.interfaces).any (·.connected)

namespace ConnectionStore

variable {st st' : ConnectionStore} {k k' : LinkKey} {c : Connection}

theorem up_congr (h : st'.find? k.pair k.interfaces = st.find? k.pair k.interfaces) :
    st'.up k = st.up k := by
  rw [up, up, h]

theorem WellFormed.up_iff (h : st.WellFormed) (k : LinkKey) :
    st.up k = true ↔ st.isActive? k.pair k.interfaces = some true := by
  rw [h.isActive?_eq, up]
  cases st.find? k.pair k.interfaces <;> simp

theorem exists_of_up (h : st.up k = true) :
    ∃ c, st.find? k.pair k.interfaces = some c ∧ c.connected = true := by
  cases hfind : st.find? k.pair k.interfaces with
  | none =>
    rw [up, hfind] at h
    cases h
  | some c =>
    rw [up, hfind] at h
    exact ⟨c, rfl, h⟩

theorem up_of_find? (h : st.find? k.pair k.interfaces = some c) : st.up k = c.connected := by
  rw [up, h, Option.any_some]

theorem WellFormed.up_file (h : st.WellFormed) (hc : c.key = k) :
    (st.file c).up k = c.connected := by
  subst hc
  exact up_of_find? (h.find?_file_self rfl rfl)

theorem WellFormed.file_others (h : st.WellFormed) (hc : c.key = k)
    (hne : k' ≠ k) : (st.file c).find? k'.pair k'.interfaces = st.find? k'.pair k'.interfaces := by
  subst hc
  rw [h.find?_file, if_neg fun heq => hne (by rw [Connection.key, heq.1, heq.2])]

end ConnectionStore

namespace Exchange

/-- The keys of the link that an exchange is about. -/
def key? (x : Exchange) : Option LinkKey := x.link?.map fun link => link.2.key

/-- Whether the backend did not accept a link or failed. -/
def thwarted (x : Exchange) : Bool := x.vetoes || x.failed

end Exchange

/-! ### Links that have been seen to -/

/-- Links have been seen to as the exchanges tell: those that were not up have been tried, and are up
unless something was in the way. -/
structure Linked (ks : List LinkKey) (l : List Exchange) (st st' : ConnectionStore) : Prop where
  others : ∀ k, k ∉ ks ∨ st.up k = true →
    st'.find? k.pair k.interfaces = st.find? k.pair k.interfaces
  told : ∀ x ∈ l, x.lowers = false ∧ ∃ k ∈ ks, st.up k = false ∧ x.key? = some k
  outcome : ∀ k ∈ ks, st.up k = false →
    (st'.up k = true ↔ ∀ x ∈ l, x.key? = some k → x.thwarted = false)
  vetoed : ∀ x ∈ l, x.vetoes = true → ∀ k, x.key? = some k →
    st.find? k.pair k.interfaces = none ∧ st'.find? k.pair k.interfaces = none
  raised : tally Exchange.raises l = ks.countP fun k => !st.up k && st'.up k

namespace Linked

variable {ks ks' : List LinkKey} {k : LinkKey} {l l' : List Exchange} {st st' st'' : ConnectionStore}

theorem nil (st : ConnectionStore) : Linked [] [] st st where
  others _ _ := rfl
  told x hx := by cases hx
  outcome k hk := by cases hk
  vetoed x hx := by cases hx
  raised := rfl

/-- A link that is up is left alone. -/
theorem idle (h : st.up k = true) : Linked [k] [] st st where
  others _ _ := rfl
  told x hx := by cases hx
  outcome k' hk' hdown := by
    rw [List.mem_singleton.mp hk', h] at hdown
    cases hdown
  vetoed x hx := by cases hx
  raised := by simp [tally]

/-- A link that is not up is tried. -/
theorem one {b : Bool} (down : st.up k = false)
    (others : ∀ k', k' ≠ k → st'.find? k'.pair k'.interfaces = st.find? k'.pair k'.interfaces)
    (hup : st'.up k = b)
    (told : ∀ x ∈ l, x.lowers = false ∧ x.key? = some k) (hb : l.any Exchange.thwarted = !b)
    (vetoed : ∀ x ∈ l, x.vetoes = true →
      st.find? k.pair k.interfaces = none ∧ st'.find? k.pair k.interfaces = none)
    (raised : tally Exchange.raises l = b.toNat) : Linked [k] l st st' where
  others k' h := by
    refine others k' ?_
    rintro rfl
    rcases h with h | h
    · exact h (List.mem_singleton_self _)
    · rw [down] at h
      cases h
  told x hx := ⟨(told x hx).1, k, List.mem_singleton_self k, down, (told x hx).2⟩
  outcome k' hk' _ := by
    have hnone : l.any Exchange.thwarted = false ↔ ∀ x ∈ l, x.thwarted = false := by simp
    rw [List.mem_singleton.mp hk', hup]
    cases b with
    | true => exact iff_of_true rfl fun x hx _ => hnone.mp hb x hx
    | false =>
      refine iff_of_false Bool.false_ne_true fun h => ?_
      rw [hnone.mpr fun x hx => h x hx (told x hx).2] at hb
      cases hb
  vetoed x hx hveto k' hk' := by
    obtain rfl := Option.some.inj ((told x hx).2.symm.trans hk')
    exact vetoed x hx hveto
  raised := by
    rw [raised, List.countP_singleton, down, hup]
    cases b <;> rfl

/-- Links are seen to after others. -/
theorem append (h : Linked ks l st st') (h' : Linked ks' l' st' st'')
    (hne : ∀ k ∈ ks, k ∉ ks') : Linked (ks ++ ks') (l ++ l') st st'' := by
  have later : ∀ k ∈ ks', st'.find? k.pair k.interfaces = st.find? k.pair k.interfaces :=
    fun k hk => h.others k (Or.inl fun hmem => hne k hmem hk)
  have earlier : ∀ k ∈ ks, st''.find? k.pair k.interfaces = st'.find? k.pair k.interfaces :=
    fun k hk => h'.others k (Or.inl (hne k hk))
  refine ⟨fun k hk => ?_, fun x hx => ?_, fun k hk hdown => ?_, fun x hx hveto k hkey => ?_, ?_⟩
  · have hfirst : st'.find? k.pair k.interfaces = st.find? k.pair k.interfaces :=
      h.others k (hk.imp_left fun hout hmem => hout (List.mem_append_left _ hmem))
    rw [← hfirst]
    refine h'.others k (hk.imp (fun hout hmem => hout (List.mem_append_right _ hmem)) fun hup => ?_)
    rw [ConnectionStore.up_congr hfirst, hup]
  · rcases List.mem_append.mp hx with hx | hx
    · obtain ⟨hlowers, k, hk, hdown, hkey⟩ := h.told x hx
      exact ⟨hlowers, k, List.mem_append_left _ hk, hdown, hkey⟩
    · obtain ⟨hlowers, k, hk, hdown, hkey⟩ := h'.told x hx
      rw [ConnectionStore.up_congr (later k hk)] at hdown
      exact ⟨hlowers, k, List.mem_append_right _ hk, hdown, hkey⟩
  · -- what is told of one of the two lists of links does not mention the other
    rw [List.forall_mem_append]
    rcases List.mem_append.mp hk with hk | hk
    · rw [ConnectionStore.up_congr (earlier k hk), h.outcome k hk hdown]
      refine (and_iff_left fun x hx hkey => ?_).symm
      obtain ⟨-, k', hk', -, hkey'⟩ := h'.told x hx
      obtain rfl := Option.some.inj (hkey.symm.trans hkey')
      exact absurd hk' (hne _ hk)
    · rw [← ConnectionStore.up_congr (later k hk)] at hdown
      rw [h'.outcome k hk hdown]
      refine (and_iff_right fun x hx hkey => ?_).symm
      obtain ⟨-, k', hk', -, hkey'⟩ := h.told x hx
      obtain rfl := Option.some.inj (hkey.symm.trans hkey')
      exact absurd hk (hne _ hk')
  · rcases List.mem_append.mp hx with hx | hx
    · obtain ⟨-, k', hk', -, hkey'⟩ := h.told x hx
      obtain rfl := Option.some.inj (hkey.symm.trans hkey')
      rw [earlier _ hk']
      exact h.vetoed x hx hveto _ hkey
    · obtain ⟨-, k', hk', -, hkey'⟩ := h'.told x hx
      obtain rfl := Option.some.inj (hkey.symm.trans hkey')
      rw [← later _ hk']
      exact h'.vetoed x hx hveto _ hkey
  · rw [tally_append, List.countP_append, h.raised, h'.raised]
    congr 1
    · exact List.countP_congr fun k hk => by rw [ConnectionStore.up_congr (earlier k hk)]
    · exact List.countP_congr fun k hk => by rw [ConnectionStore.up_congr (later k hk)]

end Linked

/-! ### One link -/

namespace Setting

variable {s : Setting σ} {v : Visit} {p p' : Progress (σ × List Exchange)} {ix iy : Interface}

/-- A move that is made for a link to the management node sees to that link. -/
theorem Move.linked (h : s.recorded.Move (.manage v) p p') (hs : p.store.Numbered)
    (hx : v.x.managementInterface? = some ix) (hy : v.y.managementInterface? = some iy)
    (down : p.store.up ⟨v.pair, .oriented v.pair v.x.id ix iy⟩ = false) :
    ∃ l, p'.world.2 = p.world.2 ++ l ∧
      Linked [⟨v.pair, .oriented v.pair v.x.id ix iy⟩] l p.store p'.store := by
  have hw := hs.toWellFormed
  generalize hk : (⟨v.pair, .oriented v.pair v.x.id ix iy⟩ : LinkKey) = k at down ⊢
  have hlaunch : ∀ {l : Launch}, s.recorded.Launches (.manage v) l →
      ⟨v.pair, l.interfaces⟩ = k := by
    intro l hlaunch
    cases hlaunch with
    | manage hx' hy' =>
      obtain rfl := Option.some.inj (hx'.symm.trans hx)
      obtain rfl := Option.some.inj (hy'.symm.trans hy)
      exact hk
  have hstored : ∀ {c : Connection}, p.store.find? v.pair c.interfaces = some c →
      c.key = ⟨v.pair, c.interfaces⟩ :=
    fun found => congrArg (LinkKey.mk · _) (hs.keys_eq found).1
  have hrevive : ∀ {c : Connection} {site : LinkSite} {shaping : Shaping},
      s.recorded.Revives (.manage v) c site shaping → ⟨v.pair, c.interfaces⟩ = k := by
    intro c site shaping hrevive
    cases hrevive with
    | manage hx' hy' hi =>
      obtain rfl := Option.some.inj (hx'.symm.trans hx)
      obtain rfl := Option.some.inj (hy'.symm.trans hy)
      rw [hi]
      exact hk
  cases h with
  | startFailed launch free start =>
    obtain rfl := hlaunch launch
    refine ⟨_, recorded_start start, .one (b := false) down (fun _ _ => rfl) down ?_ rfl ?_ rfl⟩
    · exact List.forall_mem_singleton.mpr ⟨rfl, rfl⟩
    · exact List.forall_mem_singleton.mpr fun hveto => by cases hveto
  | refused launch free start no =>
    obtain rfl := hlaunch launch
    refine ⟨_, recorded_start start, .one (b := false) down (fun _ _ => rfl) down ?_ ?_ ?_ rfl⟩
    · exact List.forall_mem_singleton.mpr ⟨rfl, rfl⟩
    · simp [Exchange.thwarted, Exchange.vetoes, no]
    · exact List.forall_mem_singleton.mpr fun _ => ⟨free, free⟩
  | createFailed launch free start yes create =>
    obtain rfl := hlaunch launch
    refine ⟨_, (recorded_perform create).trans (by rw [recorded_start start, List.append_assoc]),
      .one (b := false) down (fun _ hne => hw.freshId.file_others rfl hne)
        (hw.freshId.up_file rfl) ?_ ?_ ?_ rfl⟩
    · exact List.forall_mem_cons.mpr ⟨⟨rfl, rfl⟩, List.forall_mem_singleton.mpr ⟨rfl, rfl⟩⟩
    · simp [Exchange.thwarted, Exchange.vetoes, Exchange.failed]
    · simp [Exchange.vetoes, yes]
  | launchFailed launch free start yes create raise =>
    obtain rfl := hlaunch launch
    refine ⟨_, (recorded_perform raise).trans (by
      rw [recorded_perform create, recorded_start start, List.append_assoc, List.append_assoc]),
      .one (b := false) down (fun _ hne => hw.freshId.file_others rfl hne)
        (hw.freshId.up_file rfl) ?_ ?_ ?_ rfl⟩
    · exact List.forall_mem_cons.mpr ⟨⟨rfl, rfl⟩, List.forall_mem_cons.mpr ⟨⟨rfl, rfl⟩,
        List.forall_mem_singleton.mpr ⟨rfl, rfl⟩⟩⟩
    · simp [Exchange.thwarted, Exchange.vetoes, Exchange.failed]
    · simp [Exchange.vetoes, yes]
  | launched launch free start yes create raise =>
    obtain rfl := hlaunch launch
    refine ⟨_, (recorded_perform raise).trans (by
      rw [recorded_perform create, recorded_start start, List.append_assoc, List.append_assoc]),
      .one (b := true) down (fun _ hne => hw.freshId.file_others rfl hne)
        (hw.freshId.up_file rfl) ?_ ?_ ?_ rfl⟩
    · exact List.forall_mem_cons.mpr ⟨⟨rfl, rfl⟩, List.forall_mem_cons.mpr ⟨⟨rfl, rfl⟩,
        List.forall_mem_singleton.mpr ⟨rfl, rfl⟩⟩⟩
    · simp [Exchange.thwarted, Exchange.vetoes, Exchange.failed, yes]
    · simp [Exchange.vetoes, yes]
  | raiseFailed revive found hdown raise =>
    obtain rfl := hrevive revive
    refine ⟨_, recorded_perform raise, .one (b := false) down (fun _ _ => rfl) down ?_ rfl ?_ rfl⟩
    · exact List.forall_mem_singleton.mpr ⟨rfl, congrArg some (hstored found)⟩
    · exact List.forall_mem_singleton.mpr fun hveto => by cases hveto
  | raised revive found hdown raise =>
    obtain rfl := hrevive revive
    have hkeys := hstored found
    refine ⟨_, recorded_perform raise, .one (b := true) down
      (fun _ hne => hw.file_others hkeys hne) (hw.up_file hkeys) ?_ rfl ?_ rfl⟩
    · exact List.forall_mem_singleton.mpr ⟨rfl, congrArg some (hstored found)⟩
    · exact List.forall_mem_singleton.mpr fun hveto => by cases hveto

/-! ### All links -/

variable {management node : Node} {step : Nat} {l : List Node}

theorem linkToManagement_linked (hne : node.id ≠ management.id)
    (hy : management.managementInterface? = some iy) (hs : p.store.Numbered) :
    ∃ told, (s.recorded.linkToManagement step management iy node p).2.world.2 = p.world.2 ++ told ∧
      Linked (management.control? node).toList told p.store
        (s.recorded.linkToManagement step management iy node p).2.store := by
  cases hx : node.managementInterface? with
  | none =>
    rw [linkToManagement_of_none hx, Node.control?_of_none hx]
    exact ⟨[], (List.append_nil _).symm, .nil _⟩
  | some ix =>
    obtain ⟨pair, hpair⟩ := make_of_ne hne
    rw [linkToManagement_of_some hx hpair, Node.control?_of_some hx hy hpair]
    split
    · rename_i hup
      exact ⟨[], (List.append_nil _).symm, .idle ((hs.toWellFormed.up_iff _).mpr hup)⟩
    · rename_i hdown
      have hmove := startManagementLink_move (s := s.recorded)
        (v := ⟨node, management, pair, .zero, false, step⟩) hs hx hy hdown
      rw [← hs.toWellFormed.up_iff ⟨pair, _⟩, Bool.not_eq_true] at hdown
      exact hmove.linked hs hx hy hdown

theorem linkAll_cons (s : Setting σ) (step : Nat) (management : Node) (iy : Interface) (node : Node)
    (rest : List Node) (p : Progress σ) :
    (s.linkAll step management iy (node :: rest) p).2 = (s.linkAll step management iy rest
      (s.linkToManagement step management iy node p).2).2 := by
  rw [linkAll]
  rcases s.linkToManagement step management iy node p with ⟨cause | u, p'⟩ <;> rfl

theorem filterMap_cons_toList (f : Node → Option LinkKey) (node : Node) (rest : List Node) :
    (node :: rest).filterMap f = (f node).toList ++ rest.filterMap f := by
  rw [List.filterMap_cons]
  cases f node <;> rfl

theorem linkAll_linked (hne : ∀ node ∈ l, node.id ≠ management.id)
    (hy : management.managementInterface? = some iy) (hs : p.store.Numbered)
    (hl : (l.filterMap management.control?).Nodup) :
    ∃ told, (s.recorded.linkAll step management iy l p).2.world.2 = p.world.2 ++ told ∧
      Linked (l.filterMap management.control?) told p.store
        (s.recorded.linkAll step management iy l p).2.store := by
  induction l generalizing p with
  | nil => exact ⟨[], (List.append_nil _).symm, .nil _⟩
  | cons node rest ih =>
    have hfirst := hne node List.mem_cons_self
    rw [filterMap_cons_toList] at hl ⊢
    obtain ⟨-, hrest, hdisjoint⟩ := List.nodup_append.mp hl
    rw [linkAll_cons]
    obtain ⟨told, htold, hlinked⟩ : ∃ told, (s.recorded.linkToManagement step management iy node
        p).2.world.2 = p.world.2 ++ told ∧ _ := linkToManagement_linked hfirst hy hs
    obtain ⟨told', htold', hlinked'⟩ := ih (fun node hmem => hne node (List.mem_cons_of_mem _ hmem))
      (linkToManagement_numbered hfirst hy hs) hrest
    exact ⟨told ++ told', by rw [htold', htold, List.append_assoc],
      hlinked.append hlinked' fun k hk hk' => hdisjoint k hk k hk' rfl⟩

/-- Where all links are up there is nothing to do. -/
theorem linkAll_idle {p : Progress σ} (hne : ∀ node ∈ l, node.id ≠ management.id)
    (hy : management.managementInterface? = some iy) (hs : p.store.Numbered)
    (hup : ∀ k ∈ l.filterMap management.control?, p.store.up k = true) :
    s.linkAll step management iy l p = ([], p) := by
  induction l with
  | nil => rfl
  | cons node rest ih =>
    rw [filterMap_cons_toList, List.forall_mem_append] at hup
    have hfirst : s.linkToManagement step management iy node p = (.ok (), p) := by
      cases hx : node.managementInterface? with
      | none => exact linkToManagement_of_none hx
      | some ix =>
        obtain ⟨pair, hpair⟩ := make_of_ne (hne node List.mem_cons_self)
        rw [Node.control?_of_some hx hy hpair, Option.toList_some, List.forall_mem_singleton,
          hs.toWellFormed.up_iff] at hup
        rw [linkToManagement_of_some hx hpair, if_pos hup.1]
    rw [linkAll, hfirst]
    exact ih (fun node hmem => hne node (List.mem_cons_of_mem _ hmem)) hup.2

end Setting

/-! ### Engines -/

namespace Engine

variable {e : Engine σ μ}

/-- Nodes under their own ids are told apart by these. -/
theorem emulationNodes_pairwise (hk : Keyed e.nodes) :
    e.emulationNodes.Pairwise fun x y => x.id ≠ y.id := by
  refine List.Pairwise.filter _ (List.pairwise_map.mpr ?_)
  refine e.nodes.ascending.imp_of_mem fun {a b} ha hb hlt heq => ?_
  rw [hk _ _ (SortedMap.get?_eq_some_iff.mpr ha), hk _ _ (SortedMap.get?_eq_some_iff.mpr hb)] at heq
  exact absurd (heq ▸ hlt) (Nat.lt_irrefl _)

/-- Different nodes have different links. -/
theorem controls_nodup (hk : Keyed e.nodes) : e.controls.Nodup := by
  rw [controls]
  cases e.nodes.get? .management with
  | none => exact List.nodup_nil
  | some management =>
    refine List.pairwise_filterMap.mpr ((emulationNodes_pairwise hk).imp fun hne k h k' h' heq => ?_)
    exact hne (Node.id_eq_of_control? h h' (congrArg LinkKey.pair heq))

theorem linking_of_none (hm : e.nodes.get? .management = none) :
    e.linking = ([], e.progress (.blank e.step 0)) ∧ e.controls = [] := by
  rw [linking, controls, hm]
  exact ⟨rfl, rfl⟩

theorem linking_of_some (hm : e.nodes.get? .management = some .management) :
    e.linking = e.setting.linkAll e.step .management ⟨.management, 0⟩ e.emulationNodes
        (e.progress (.blank e.step 0)) ∧
      e.controls = e.emulationNodes.filterMap Node.management.control? := by
  rw [linking, controls, hm]
  exact ⟨rfl, rfl⟩

theorem Anchored.recorded (h : e.Anchored) : e.recorded.Anchored := ⟨h.built, h.overlay⟩

theorem Anchored.management (h : e.Anchored) (hk : Keyed e.nodes) :
    e.nodes.get? .management = none ∨ e.nodes.get? .management = some .management := by
  cases hm : e.nodes.get? .management with
  | none => exact Or.inl rfl
  | some node => exact Or.inr (congrArg some ((h.built _ _ hm).eq_management (hk _ _ hm)))

/-- Linking sees to the links to the management node. -/
theorem linking_linked (h : e.Anchored) (hk : Keyed e.nodes) (hs : e.store.Numbered) :
    Linked e.controls e.recorded.linking.2.world.2 e.store e.recorded.linking.2.store := by
  rcases h.management hk with hm | hm
  · rw [(linking_of_none (e := e.recorded) hm).1, (linking_of_none hm).2]
    exact .nil _
  · have hnodup := controls_nodup hk
    rw [(linking_of_some hm).2] at hnodup
    rw [(linking_of_some (e := e.recorded) hm).1, (linking_of_some hm).2]
    have hp : (e.recorded.progress (.blank e.step 0)).store.Numbered := hs
    obtain ⟨told, htold, hlinked⟩ : ∃ told, (e.setting.recorded.linkAll e.step .management _
        e.emulationNodes (e.recorded.progress (.blank e.step 0))).2.world.2 = [] ++ told ∧ _ :=
      Setting.linkAll_linked (h.emulation_ne hk hm) rfl hp hnodup
    rw [List.nil_append] at htold
    rw [← htold] at hlinked
    exact hlinked

/-- Where all links to the management node are up there is nothing to do. -/
theorem linking_idle (h : e.Anchored) (hk : Keyed e.nodes) (hs : e.store.Numbered)
    (hup : ∀ k ∈ e.controls, e.store.up k = true) : e.connectManagement = (.ok 0, e) := by
  have hlinking : e.linking = ([], e.progress (.blank e.step 0)) := by
    rcases h.management hk with hm | hm
    · exact (linking_of_none hm).1
    · rw [(linking_of_some hm).2] at hup
      rw [(linking_of_some hm).1]
      exact Setting.linkAll_idle (h.emulation_ne hk hm) rfl hs hup
  rw [connectManagement_linking h hk, hlinking]
  rfl

theorem linking_proceeds (h : e.Anchored) (hk : Keyed e.nodes) (hs : e.store.Numbered) :
    Relation.ReflTransGen (e.setting.Proceeds (Task.DueInLinking e.nodes e.step))
      (e.progress (.blank e.step 0)) e.linking.2 := by
  have hlast : e.linking.2 =
      (e.setting.connectManagement e.nodes e.step (e.progress (.blank e.step 0))).2 := by
    rw [linking_ends h hk]
  rw [hlast]
  exact Setting.connectManagement_proceeds hs

theorem recorded_linking (h : e.Anchored) (hk : Keyed e.nodes) :
    e.connectManagement.1 = .ok e.recorded.linking.2.report.linksUp ∧
      e.connectManagement.2.store = e.recorded.linking.2.store := by
  obtain ⟨hresult, hshows⟩ := connectManagement_shows e.recorded_shows
  rw [← hresult, ← hshows.store, connectManagement_linking h.recorded hk]
  exact ⟨rfl, rfl⟩

/-- The link of an emulation node with a management interface is among those that are seen to. -/
theorem mem_controls (h : e.Anchored) (hk : Keyed e.nodes) (hm : e.nodes.contains .management = true)
    {node : Node} {ix : Interface} (hnode : node ∈ e.emulationNodes)
    (hx : node.managementInterface? = some ix) :
    ∃ pair, NodePair.make node.id .management = .ok pair ∧
      ⟨pair, .oriented pair node.id ix ⟨.management, 0⟩⟩ ∈ e.controls := by
  obtain ⟨management, hm⟩ := SortedMap.contains_iff.mp hm
  obtain rfl := (h.built _ _ hm).eq_management (hk _ _ hm)
  obtain ⟨pair, hpair⟩ := Setting.make_of_ne (h.emulation_ne hk hm node hnode)
  rw [(linking_of_some hm).2]
  exact ⟨pair, hpair, List.mem_filterMap.mpr ⟨node, hnode, Node.control?_of_some hx rfl hpair⟩⟩

/-- Linking leaves nodes and hub overlay alone. -/
theorem connectManagement_keeps (h : e.Anchored) (hk : Keyed e.nodes) (hs : e.store.Numbered) :
    e.connectManagement.2.Anchored ∧ Keyed e.connectManagement.2.nodes ∧
      e.connectManagement.2.store.Numbered ∧ e.connectManagement.2.controls = e.controls := by
  rw [connectManagement_linking h hk]
  refine ⟨⟨h.built, h.overlay⟩, hk, ?_, rfl⟩
  exact (Setting.proceeds_keeps (I := fun _ _ => True) (fun _ _ _ _ _ _ _ => trivial)
    (linking_proceeds h hk hs) hs trivial).1

variable [Movement μ]

theorem history_linking (h : e.Anchored) (hk : Keyed e.nodes) :
    e.history [.connectManagement] = e.recorded.linking.2.world.2 := by
  rw [history_one, perform, connectManagement_linking h.recorded hk]

theorem history_idle (h : e.Anchored) (hk : Keyed e.nodes) (hs : e.store.Numbered)
    (hup : ∀ k ∈ e.controls, e.store.up k = true) : e.history [.connectManagement] = [] := by
  rw [history_one, perform, linking_idle h.recorded hk hs hup]
  rfl

/-- Linking sees to the links to the management node as its history tells. -/
theorem connectManagement_linked (h : e.Anchored) (hk : Keyed e.nodes) (hs : e.store.Numbered) :
    Linked e.controls (e.history [.connectManagement]) e.store e.connectManagement.2.store := by
  rw [(recorded_linking h hk).2, history_linking h hk]
  exact linking_linked h hk hs

/-- The result of linking is how many links have come up. -/
theorem connectManagement_counts (h : e.Anchored) (hk : Keyed e.nodes) (hs : e.store.Numbered) :
    ∃ n, e.connectManagement.1 = .ok n ∧
      e.connectManagement.2.store.activeCount = e.store.activeCount + n ∧
      n = e.controls.countP fun k => !e.store.up k && e.connectManagement.2.store.up k := by
  have hlinked := connectManagement_linked h hk hs
  obtain ⟨hresult, hstore⟩ := recorded_linking h hk
  obtain ⟨l, hl, htallied⟩ := Setting.proceeds_tallied (linking_proceeds h.recorded hk hs) hs
  have hhistory : e.history [.connectManagement] = l := (history_linking h hk).trans hl
  rw [hhistory] at hlinked
  have hactive : e.connectManagement.2.store.activeCount + tally Exchange.lowers l =
      e.store.activeCount + tally Exchange.raises l := by
    rw [hstore]
    exact htallied.active
  rw [tally_eq_zero fun x hx => (hlinked.told x hx).1, Nat.add_zero] at hactive
  refine ⟨_, hresult, ?_, ?_⟩
  · rw [hactive, htallied.linksUp]
    exact congrArg _ (Nat.zero_add _).symm
  · rw [htallied.linksUp, ← hlinked.raised]
    exact Nat.zero_add _

end Engine

/-- Linking to the management node goes as far as the backend lets it.  It comes to its end and says
how many links have come up.  Every emulation node with a management interface has its link up then,
unless the backend vetoed it or failed at it now; of a link that is vetoed nothing is stored; only
links that were not up are mentioned to the backend, and all others are as they were.  To link again
when nothing is in the way brings up the links that are missing and no others, and after that there
is nothing left to do. -/
theorem linking_makes_up [Movement μ] {e : Engine σ μ} (he : e.ReachableBy Engine.Builds)
    (hm : e.nodes.contains .management = true) :
    let e' := e.connectManagement.2
    let history := e.history [.connectManagement]
    (∃ n, e.connectManagement.1 = .ok n ∧ e'.store.activeCount = e.store.activeCount + n) ∧
      (∀ node ∈ e.emulationNodes, ∀ ix, node.managementInterface? = some ix →
        ∃ pair, NodePair.make node.id .management = .ok pair ∧
          let i := InterfacePair.oriented pair node.id ix ⟨.management, 0⟩
          (∃ c, e'.store.find? pair i = some c ∧ c.kind = .management ∧ c.connected = true) ∨
            ∃ x ∈ history, x.key? = some ⟨pair, i⟩ ∧ x.thwarted = true) ∧
      (∀ x ∈ history, x.vetoes = true → ∀ k, x.key? = some k →
        e.store.find? k.pair k.interfaces = none ∧ e'.store.find? k.pair k.interfaces = none) ∧
      (∀ x ∈ history, ∃ k ∈ e.controls, e.store.up k = false ∧ x.key? = some k) ∧
      (∀ k, k ∉ e.controls ∨ e.store.up k = true →
        e'.store.find? k.pair k.interfaces = e.store.find? k.pair k.interfaces) ∧
      ∀ (setting : Setting σ) (world : σ), let e₂ : Engine σ μ := { e' with setting, world }
        let e₃ := e₂.connectManagement.2
        (∀ x ∈ e₂.history [.connectManagement], x.thwarted = false) →
        e₂.connectManagement.1 = .ok (e.controls.countP fun k => !e'.store.up k) ∧
          (∀ k ∈ e.controls, e₃.store.up k = true) ∧
          (∀ k, k ∉ e.controls ∨ e'.store.up k = true →
            e₃.store.find? k.pair k.interfaces = e'.store.find? k.pair k.interfaces) ∧
          e₃.connectManagement = (.ok 0, e₃) ∧ e₃.history [.connectManagement] = [] := by
  intro e' history
  have hs := he.numbered
  have hk := he.keyed
  have hanchored := he.anchored
  have hreach' : (e.perform .connectManagement).ReachableBy Engine.Builds := he.perform nofun
  have hlinked : Linked e.controls history e.store e'.store :=
    Engine.connectManagement_linked hanchored hk hs
  obtain ⟨n, hn, hgrowth, -⟩ := Engine.connectManagement_counts hanchored hk hs
  refine ⟨⟨n, hn, hgrowth⟩, fun node hnode ix hx => ?_, hlinked.vetoed,
    fun x hx => (hlinked.told x hx).2, hlinked.others, ?_⟩
  · obtain ⟨pair, hpair, hmem⟩ := Engine.mem_controls hanchored hk hm hnode hx
    refine ⟨pair, hpair, ?_⟩
    cases hup' : e'.store.up ⟨pair, .oriented pair node.id ix ⟨.management, 0⟩⟩ with
    | true =>
      obtain ⟨c, hc, hconnected⟩ := ConnectionStore.exists_of_up hup'
      refine Or.inl ⟨c, hc, hreach'.marked _ _ c hc ?_, hconnected⟩
      rw [(hreach'.numbered.keys_eq hc).2]
      exact oriented_isManagement (managementInterface_isManagement hx) rfl
    | false =>
      have hdown : e.store.up ⟨pair, .oriented pair node.id ix ⟨.management, 0⟩⟩ = false := by
        refine Bool.eq_false_iff.mpr fun hup => ?_
        rw [ConnectionStore.up_congr (hlinked.others _ (Or.inr hup)), hup] at hup'
        cases hup'
      have hmissed := (hlinked.outcome _ hmem hdown).not.mp (Bool.eq_false_iff.mp hup')
      push Not at hmissed
      obtain ⟨x, hmem, hkey, hthwarted⟩ := hmissed
      exact Or.inr ⟨x, hmem, hkey, eq_true_of_ne_false hthwarted⟩
  · intro setting world e₂ e₃ hfine
    obtain ⟨hanchored', hk', hs', hcontrols'⟩ := Engine.connectManagement_keeps hanchored hk hs
    have hanchored₂ : e₂.Anchored := ⟨hanchored'.built, hanchored'.overlay⟩
    have hcontrols₂ : e₂.controls = e.controls := hcontrols'
    obtain ⟨hanchored₃, hk₃, hs₃, hcontrols₃⟩ := Engine.connectManagement_keeps hanchored₂ hk' hs'
    have hlinked₂ : Linked e₂.controls (e₂.history [.connectManagement]) e'.store e₃.store :=
      Engine.connectManagement_linked hanchored₂ hk' hs'
    obtain ⟨n₂, hn₂, -, hcount⟩ := Engine.connectManagement_counts hanchored₂ hk' hs'
    have hall : ∀ k ∈ e₂.controls, e₃.store.up k = true := by
      intro k hmem
      cases hup : e'.store.up k with
      | true => rw [ConnectionStore.up_congr (hlinked₂.others k (Or.inr hup)), hup]
      | false => exact (hlinked₂.outcome k hmem hup).mpr fun x hx _ => hfine x hx
    have hidle : ∀ k ∈ e₃.controls, e₃.store.up k = true := by
      rw [hcontrols₃]
      exact hall
    refine ⟨?_, ?_, ?_, Engine.linking_idle hanchored₃ hk₃ hs₃ hidle,
      Engine.history_idle hanchored₃ hk₃ hs₃ hidle⟩
    · rw [hn₂, hcount, ← hcontrols₂]
      refine congrArg Except.ok (List.countP_congr fun k hmem => ?_)
      rw [hall k hmem, Bool.and_true]
    · rw [← hcontrols₂]
      exact hall
    · rw [← hcontrols₂]
      exact hlinked₂.others

/-- All nodes are there, and the first one will have its link vetoed and the second one will not have
its link brought up. -/
def neglected : Engine Script Stationary :=
  (Engine.start ⟨.unshaped .none, .equal, Script.backend, .local⟩ none
    [⟨.start, none, some ⟨1⟩, 0, none, none, .no⟩,
      ⟨.raise, none, some ⟨2⟩, 0, none, some (.timeout 5), .yes⟩]).run (assembly.take 4)

/-- At first no link comes up and one is stored; when there is nothing in the way both are made up. -/
theorem neglected_made_up :
    let e' := neglected.connectManagement.2
    let e₂ := { e' with world := ([] : Script) }
    let e₃ := e₂.connectManagement.2
    neglected.nodes.contains .management = true ∧ neglected.connectManagement.1 = .ok 0 ∧
      e'.store.size = 1 ∧ (∀ x ∈ e₂.history [.connectManagement], x.thwarted = false) ∧
      e₂.connectManagement.1 = .ok 2 ∧ (∀ k ∈ neglected.controls, e₃.store.up k = true) ∧
      e₃.connectManagement = (.ok 0, e₃) ∧ e₃.history [.connectManagement] = [] := by
  have hreach : neglected.ReachableBy Engine.Builds := by
    refine (Engine.ReachableBy.start _ _ _).run _ fun _ op hop node heq => ?_
    exact assembly_built node (heq ▸ List.mem_of_mem_take hop)
  have hm : neglected.nodes.contains .management = true := by decide +kernel
  obtain ⟨-, -, -, -, -, hrepeat⟩ := linking_makes_up hreach hm
  obtain ⟨hresult, hrest⟩ := hrepeat neglected.connectManagement.2.setting [] (by decide +kernel)
  obtain ⟨hall, -, hidle, hsilent⟩ := hrest
  refine ⟨hm, by decide +kernel, by decide +kernel, by decide +kernel, ?_, hall, hidle, hsilent⟩
  exact hresult.trans (congrArg Except.ok (by decide +kernel))

end ProximityNet
