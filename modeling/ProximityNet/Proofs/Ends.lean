import ProximityNet.Proofs.Changes
import ProximityNet.Proofs.StoreRuns

/-!
# Links named by their ends

Whoever calls the store knows a link by its two ends, and names them in the order that is at hand.
The keys are worked out in two places, the pair from the nodes and the pair of interfaces from the
pair and one of the nodes, and the two have to turn around together.  They do: both follow the end
with the smaller id, so no call can tell in which order the ends were named.

* `LinkEnds`, `LinkEnds.pair`, `LinkEnds.interfaces` — two ends and the keys that are made of them;
* `LinkEnds.pair_eq`, `LinkEnds.interfaces_eq` — the keys are those of the lower and the upper end;
* `StoreCall`, `StoreCall.turned` — a call by ends, and the same call with its ends turned around;
* `WellFormed.filed_of_act`, `filed_of_after` — what is stored was put there by some call;
* `StoreOperation.trace` — all that a caller can see of a sequence of operations;
* `ends_in_either_order` — turning ends around changes nothing of it.
-/

namespace ProximityNet

/-! ### Ends and keys -/

/-- The ends of a link between two nodes, in the order in which they are named. -/
structure LinkEnds where
  first : Endpoint
  second : Endpoint
  apart : first.node ≠ second.node

namespace LinkEnds

/-- The same ends, named the other way around. -/
def swap (ends : LinkEnds) : LinkEnds := ⟨ends.second, ends.first, ends.apart.symm⟩

theorem of?_isSome (ends : LinkEnds) :
    (NodePair.of? ends.first.node ends.second.node).isSome = true := by
  cases h : NodePair.of? ends.first.node ends.second.node with
  | none => exact absurd (NodePair.of?_eq_none_iff.mp h) ends.apart
  | some pair => rfl

/-- The pair of the two nodes. -/
def pair (ends : LinkEnds) : NodePair :=
  (NodePair.of? ends.first.node ends.second.node).get ends.of?_isSome

/-- The two interfaces, put into the order of the pair by the first node. -/
def interfaces (ends : LinkEnds) : InterfacePair :=
  .oriented ends.pair ends.first.node ends.first.interface ends.second.interface

/-- The end with the smaller id. -/
def lower (ends : LinkEnds) : Endpoint :=
  if ends.first.node.toNat < ends.second.node.toNat then ends.first else ends.second

/-- The end with the larger id. -/
def upper (ends : LinkEnds) : Endpoint :=
  if ends.first.node.toNat < ends.second.node.toNat then ends.second else ends.first

theorem toNat_ne (ends : LinkEnds) : ends.first.node.toNat ≠ ends.second.node.toNat :=
  fun h => ends.apart (rank_injective _ _ h)

theorem lower_lt_upper (ends : LinkEnds) : ends.lower.node.toNat < ends.upper.node.toNat := by
  have hne := ends.toNat_ne
  rw [lower, upper]
  split <;> omega

theorem lower_swap (ends : LinkEnds) : ends.swap.lower = ends.lower := by
  have hne := ends.toNat_ne
  show (if ends.second.node.toNat < ends.first.node.toNat then ends.second else ends.first) =
    if ends.first.node.toNat < ends.second.node.toNat then ends.first else ends.second
  split <;> split <;> first | rfl | omega

theorem upper_swap (ends : LinkEnds) : ends.swap.upper = ends.upper := by
  have hne := ends.toNat_ne
  show (if ends.second.node.toNat < ends.first.node.toNat then ends.first else ends.second) =
    if ends.first.node.toNat < ends.second.node.toNat then ends.second else ends.first
  split <;> split <;> first | rfl | omega

theorem pair_eq (ends : LinkEnds) : ends.pair = ⟨ends.lower.node, ends.upper.node⟩ := by
  have hne := ends.toNat_ne
  have hof : NodePair.of? ends.first.node ends.second.node =
      some ⟨ends.lower.node, ends.upper.node⟩ := by
    rw [NodePair.of?, lower, upper]
    by_cases h : ends.first.node.toNat < ends.second.node.toNat
    · simp [h]
    · have h' : ends.second.node.toNat < ends.first.node.toNat := by omega
      simp [h, h']
  simp [pair, hof]

theorem interfaces_eq (ends : LinkEnds) :
    ends.interfaces = ⟨ends.lower.interface, ends.upper.interface⟩ := by
  have hapart := ends.apart
  rw [interfaces, pair_eq, InterfacePair.oriented, lower, upper]
  by_cases h : ends.first.node.toNat < ends.second.node.toNat
  · simp [h]
  · simp [h, hapart]

example : (⟨⟨.ofNat 5, ⟨.mesh, 0⟩⟩, ⟨.ofNat 2, ⟨.bluetooth, 1⟩⟩, by decide⟩ : LinkEnds).interfaces =
    ⟨⟨.bluetooth, 1⟩, ⟨.mesh, 0⟩⟩ := by decide

/-- Both keys turn around together. -/
theorem keys_swap (ends : LinkEnds) :
    ends.swap.pair = ends.pair ∧ ends.swap.interfaces = ends.interfaces := by
  rw [pair_eq, pair_eq, interfaces_eq, interfaces_eq, lower_swap, upper_swap]
  exact ⟨rfl, rfl⟩

end LinkEnds

/-- A connection has these two ends, that of the smaller id first. -/
def Connection.Spans (c : Connection) (ends : LinkEnds) : Prop :=
  c.lowEnd.node.toNat < c.highEnd.node.toNat ∧
    ((c.lowEnd = ends.first ∧ c.highEnd = ends.second) ∨
      (c.lowEnd = ends.second ∧ c.highEnd = ends.first))

theorem Connection.spans_of_keys {c : Connection} {ends : LinkEnds} (hpair : c.pair = ends.pair)
    (hi : c.interfaces = ends.interfaces) : c.Spans ends := by
  have hlow : c.lowEnd = ends.lower := by
    rw [lowEnd, hpair, hi, ends.pair_eq, ends.interfaces_eq]
  have hhigh : c.highEnd = ends.upper := by
    rw [highEnd, hpair, hi, ends.pair_eq, ends.interfaces_eq]
  refine ⟨?_, ?_⟩
  · rw [hlow, hhigh]
    exact ends.lower_lt_upper
  · rw [hlow, hhigh, LinkEnds.lower, LinkEnds.upper]
    split
    · exact .inl ⟨rfl, rfl⟩
    · exact .inr ⟨rfl, rfl⟩

/-! ### Calls by ends -/

/-- What is asked of a store about one link. -/
inductive LinkCall where
  /-- Store a record of the link, which has the keys of the link and all else from `c`. -/
  | put (c : Connection) (active : Bool)
  | setActive (active : Bool)
  | edit (change : Connection.Edit)
  | find
  | isActive
  | containsPair
  | activeInterfaces
  | inactiveInterfaces

/-- What is asked of a store as a whole. -/
inductive StoreView where
  | activeCount
  | inactiveCount
  | size
  | isEmpty
  | byId (id : ConnectionId)
  | query (filter : ConnectionFilter)

/-- A call of the store by someone who knows links by their ends. -/
inductive StoreCall where
  | link (ends : LinkEnds) (call : LinkCall)
  | view (v : StoreView)
  | freshId
  | clear

/-- The record of a link with the keys that its ends make. -/
def LinkEnds.record (ends : LinkEnds) (c : Connection) : Connection :=
  { c with pair := ends.pair, interfaces := ends.interfaces }

namespace StoreCall

/-- The operation that a call comes to. -/
def operation : StoreCall → StoreOperation
  | link ends (.put c active) => .put (ends.record c) active
  | link ends (.setActive active) => .setActive ends.pair ends.interfaces active
  | link ends (.edit change) => .edit ends.pair ends.interfaces change
  | link ends .find => .find ends.pair ends.interfaces
  | link ends .isActive => .isActive ends.pair ends.interfaces
  | link ends .containsPair => .containsPair ends.pair
  | link ends .activeInterfaces => .activeInterfaces ends.pair
  | link ends .inactiveInterfaces => .inactiveInterfaces ends.pair
  | view .activeCount => .activeCount
  | view .inactiveCount => .inactiveCount
  | view .size => .size
  | view .isEmpty => .isEmpty
  | view (.byId id) => .byId id
  | view (.query filter) => .query filter
  | freshId => .freshId
  | clear => .clear

/-- A call with its ends turned around, if `around`; what is not about a link stays as it is. -/
def turned (around : Bool) : StoreCall → StoreCall
  | link ends call => link (if around then ends.swap else ends) call
  | call => call

theorem operation_turned (around : Bool) (call : StoreCall) :
    (call.turned around).operation = call.operation := by
  cases around with
  | false => cases call <;> rfl
  | true =>
    cases call with
    | link ends call =>
      obtain ⟨hpair, hi⟩ := ends.keys_swap
      show (link ends.swap call).operation = (link ends call).operation
      cases call <;> simp only [operation, LinkEnds.record, hpair, hi]
    | view | freshId | clear => rfl

/-- The operations of a sequence of calls, some of them with their ends turned around. -/
def operations (run : List (StoreCall × Bool)) : List StoreOperation :=
  run.map fun x => (x.1.turned x.2).operation

theorem operations_eq (run : List (StoreCall × Bool)) :
    operations run = run.map fun x => x.1.operation :=
  List.map_congr_left fun x _ => operation_turned x.2 x.1

end StoreCall

/-! ### What is stored was put there -/

/-- The operation stores a record under these keys. -/
def StoreOperation.Files (op : StoreOperation) (pair : NodePair) (i : InterfacePair) : Prop :=
  ∃ c active, op = .put c active ∧ c.pair = pair ∧ c.interfaces = i

/-- A call that stores a record under some keys is a call to store a link whose ends make them. -/
theorem StoreCall.put_of_files {call : StoreCall} {pair : NodePair} {i : InterfacePair}
    (h : call.operation.Files pair i) :
    ∃ ends c active, call = .link ends (.put c active) ∧ pair = ends.pair ∧ i = ends.interfaces := by
  obtain ⟨c, active, heq, rfl, rfl⟩ := h
  cases call with
  | link ends call =>
    cases call with
    | put c' active' =>
      obtain ⟨rfl, rfl⟩ := StoreOperation.put.inj heq
      exact ⟨ends, c', active', rfl, rfl, rfl⟩
    | setActive | edit | find | isActive | containsPair | activeInterfaces | inactiveInterfaces =>
      cases heq
  | view v => cases v <;> cases heq
  | freshId => cases heq
  | clear => cases heq

namespace ConnectionStore

variable {s : ConnectionStore} {pair : NodePair} {i : InterfacePair} {c : Connection}

/-- Writing a record anew under the keys that it had leaves no more keys than there were. -/
theorem WellFormed.stored_of_file {d : Connection} (h : s.WellFormed)
    (hc : s.find? d.pair d.interfaces = some c)
    (hstored : ((s.file d).find? pair i).isSome = true) : (s.find? pair i).isSome = true := by
  rw [h.find?_file] at hstored
  split at hstored
  · rename_i hkeys
    rw [← hkeys.1, ← hkeys.2, hc]
    rfl
  · exact hstored

/-- After one operation a record stands where one stood before, or where the operation put it. -/
theorem WellFormed.filed_of_act (h : s.WellFormed) (op : StoreOperation)
    (hstored : ((s.act op).2.find? pair i).isSome = true) :
    op.Files pair i ∨ (s.find? pair i).isSome = true := by
  cases op with
  | put c active =>
    change ((s.put c active).2.find? pair i).isSome = true at hstored
    rw [put_eq, h.find?_file] at hstored
    split at hstored
    · rename_i hkeys
      exact .inl ⟨c, active, rfl, hkeys.1, hkeys.2⟩
    · exact .inr hstored
  | setActive pair' i' active =>
    right
    cases hc : s.find? pair' i' with
    | some c =>
      obtain ⟨rfl, rfl⟩ := h.keys_eq hc
      simp only [ConnectionStore.act, h.setActive?_eq hc] at hstored
      exact h.stored_of_file (d := { c with connected := active }) hc hstored
    | none =>
      simp only [ConnectionStore.act, setActive?_eq_none hc, take_eq_self hc] at hstored
      exact hstored
  | edit pair' i' change =>
    right
    cases hc : s.find? pair' i' with
    | some c =>
      obtain ⟨rfl, rfl⟩ := h.keys_eq hc
      simp only [ConnectionStore.act,
        h.modify_eq hc (change.pair c) (change.interfaces c) (change.connected c)] at hstored
      refine h.stored_of_file (c := c) ?_ hstored
      rw [change.pair, change.interfaces, hc]
    | none =>
      simp only [ConnectionStore.act, modify_eq_self hc] at hstored
      exact hstored
  | clear => cases hstored
  | freshId | find | isActive | activeInterfaces | inactiveInterfaces | activeCount | inactiveCount
  | size | isEmpty | containsPair | byId | query => exact .inr hstored

/-- After a sequence of operations on a store a record stands where one stood at first, or where one
of the operations put it. -/
theorem WellFormed.filed_of_after (h : s.WellFormed) (ops : List StoreOperation)
    (hstored : ((StoreOperation.after ConnectionStore.act s ops).find? pair i).isSome = true) :
    (∃ op ∈ ops, op.Files pair i) ∨ (s.find? pair i).isSome = true := by
  induction ops generalizing s with
  | nil => exact .inr hstored
  | cons op rest ih =>
    rcases ih (h.act op) hstored with ⟨op', hmem, hfiles⟩ | hbefore
    · exact .inl ⟨op', List.mem_cons_of_mem op hmem, hfiles⟩
    · rcases h.filed_of_act op hbefore with hfiles | hfirst
      · exact .inl ⟨op, List.mem_cons_self, hfiles⟩
      · exact .inr hfirst

end ConnectionStore

/-- The replies to a sequence of operations, each with the store that is there afterwards. -/
def StoreOperation.trace {σ : Type} (act : σ → StoreOperation → StoreReply × σ) :
    σ → List StoreOperation → List (StoreReply × σ)
  | _, [] => []
  | s, op :: rest => act s op :: trace act (act s op).2 rest

/-- Links may be named by their ends in either order, in each call anew: all replies and all stores in
between are the same.  On a store that starts empty, a stored connection has the ends that it was put
there with, that of the smaller id first, and whatever is found by two ends has these ends. -/
theorem ends_in_either_order (run : List (StoreCall × Bool)) :
    (∀ s, StoreOperation.trace ConnectionStore.act s (StoreCall.operations run) =
        StoreOperation.trace ConnectionStore.act s (run.map fun x => x.1.operation)) ∧
      let s := StoreOperation.after ConnectionStore.act .empty (StoreCall.operations run)
      (∀ c ∈ s.connections, ∃ ends record active around,
          (.link ends (.put record active), around) ∈ run ∧ c.Spans ends) ∧
        ∀ ends c, s.find? ends.pair ends.interfaces = some c → c.Spans ends := by
  refine ⟨fun s => by rw [StoreCall.operations_eq], ?_⟩
  intro s
  have hwell : s.WellFormed := ConnectionStore.wellFormed_empty.after _
  refine ⟨fun c hc => ?_, fun ends c hc => ?_⟩
  · obtain ⟨pair, i, hfound⟩ := hwell.mem_connections_iff.mp hc
    have hstored : (s.find? pair i).isSome = true := by rw [hfound]; rfl
    rcases ConnectionStore.wellFormed_empty.filed_of_after _ hstored with
      ⟨op, hmem, hfiles⟩ | hnone
    · obtain ⟨⟨call, around⟩, hcall, rfl⟩ := List.mem_map.mp hmem
      rw [StoreCall.operation_turned] at hfiles
      obtain ⟨ends, record, active, rfl, rfl, rfl⟩ := StoreCall.put_of_files hfiles
      obtain ⟨hpair, hi⟩ := hwell.keys_eq hfound
      exact ⟨ends, record, active, around, hcall, Connection.spans_of_keys hpair hi⟩
    · cases hnone
  · obtain ⟨hpair, hi⟩ := hwell.keys_eq hc
    exact Connection.spans_of_keys hpair hi

end ProximityNet
