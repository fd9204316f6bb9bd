import ProximityNet.Engine.Error
import ProximityNet.Proofs.Stores

/-!
# Sequences of operations on the store

Whoever holds a store calls its operations in any order.  This file names them, with what each
replies, and shows what no sequence of them can break:

* `StoreOperation`, `StoreReply` — an operation with its arguments, and what the caller gets back;
* `ConnectionStore.act` — one operation on the store with two partitions;
* `StoreOperation.after`, `StoreOperation.replies` — a sequence of them, on any kind of store;
* `WellFormed.act` — one operation keeps a store well-formed;
* `WellFormed.size_eq_zero_iff` — without empty inner maps, `isEmpty` and `size` agree;
* `representation_kept` — what holds of every store that a sequence of operations leaves.
-/

namespace ProximityNet

/-- A change to a stored connection that touches neither the keys it is filed under nor whether it
is up. -/
structure Connection.Edit where
  apply : Connection → Connection
  pair : ∀ c, (apply c).pair = c.pair
  interfaces : ∀ c, (apply c).interfaces = c.interfaces
  connected : ∀ c, (apply c).connected = c.connected

/-- What can be asked of a store. -/
inductive StoreOperation where
  | freshId
  | put (c : Connection) (active : Bool)
  | setActive (pair : NodePair) (interfaces : InterfacePair) (active : Bool)
  /-- Change a connection where it stands, if there is one. -/
  | edit (pair : NodePair) (interfaces : InterfacePair) (change : Connection.Edit)
  /-- Forget all connections and start the numbers again. -/
  | clear
  | find (pair : NodePair) (interfaces : InterfacePair)
  | isActive (pair : NodePair) (interfaces : InterfacePair)
  | activeInterfaces (pair : NodePair)
  | inactiveInterfaces (pair : NodePair)
  | activeCount
  | inactiveCount
  | size
  | isEmpty
  | containsPair (pair : NodePair)
  | byId (id : ConnectionId)
  | query (filter : ConnectionFilter)

/-- What a store replies. -/
inductive StoreReply where
  | done
  | id (id : ConnectionId)
  /-- The connection found, moved or replaced. -/
  | record (found : Option Connection)
  | failed (cause : ReconcileError)
  | flag (active : Option Bool)
  | truth (holds : Bool)
  | interfaces (found : List InterfacePair)
  | count (n : Nat)
  | listed (found : List Connection)

namespace StoreOperation

variable {σ : Type}

/-- The store that a sequence of operations leaves. -/
def after (act : σ → StoreOperation → StoreReply × σ) (s : σ) (ops : List StoreOperation) : σ :=
  ops.foldl (fun s op => (act s op).2) s

/-- The replies to a sequence of operations. -/
def replies (act : σ → StoreOperation → StoreReply × σ) : σ → List StoreOperation → List StoreReply
  | _, [] => []
  | s, op :: rest => (act s op).1 :: replies act (act s op).2 rest

end StoreOperation

namespace ConnectionStore

/-- One operation on the store.  Marking a connection that is not stored is an error; it leaves the
store as the search for the connection left it. -/
def act (s : ConnectionStore) : StoreOperation → StoreReply × ConnectionStore
  | .freshId => (.id s.freshId.1, s.freshId.2)
  | .put c active => (.record (s.put c active).1, (s.put c active).2)
  | .setActive pair interfaces active =>
    match s.setActive? pair interfaces active with
    | some s' => (.record (s'.find? pair interfaces), s')
    | none => (.failed (.missingConnection pair interfaces), (s.take pair interfaces).2)
  | .edit pair interfaces change =>
    (.record (s.find? pair interfaces), s.modify pair interfaces change.apply)
  | .clear => (.done, .empty)
  | .find pair interfaces => (.record (s.find? pair interfaces), s)
  | .isActive pair interfaces => (.flag (s.isActive? pair interfaces), s)
  | .activeInterfaces pair => (.interfaces (s.activeInterfaces pair), s)
  | .inactiveInterfaces pair => (.interfaces (s.inactiveInterfaces pair), s)
  | .activeCount => (.count s.activeCount, s)
  | .inactiveCount => (.count s.inactiveCount, s)
  | .size => (.count s.size, s)
  | .isEmpty => (.truth s.isEmpty, s)
  | .containsPair pair => (.truth (s.containsPair pair), s)
  | .byId id => (.record (s.byId? id), s)
  | .query filter => (.listed (s.query filter), s)

namespace WellFormed

variable {s : ConnectionStore} {pair : NodePair} {i : InterfacePair}

/-- What is looked up, marked and changed stays well-formed, whatever the operation. -/
theorem act (h : s.WellFormed) (op : StoreOperation) : (s.act op).2.WellFormed := by
  cases op with
  | freshId => exact h.freshId
  | put c active =>
    show (s.put c active).2.WellFormed
    rw [put_eq]
    exact h.file _
  | setActive pair i active =>
    cases hc : s.find? pair i with
    | some c =>
      simp only [ConnectionStore.act, h.setActive?_eq hc]
      exact h.file _
    | none =>
      simp only [ConnectionStore.act, setActive?_eq_none hc]
      exact h.take pair i
  | edit pair i change =>
    cases hc : s.find? pair i with
    | some c =>
      simp only [ConnectionStore.act,
        h.modify_eq hc (change.pair c) (change.interfaces c) (change.connected c)]
      exact h.file _
    | none =>
      simp only [ConnectionStore.act, modify_eq_self hc]
      exact h
  | clear => exact wellFormed_empty
  | find | isActive | activeInterfaces | inactiveInterfaces | activeCount | inactiveCount | size
  | isEmpty | containsPair | byId | query => exact h

/-- A sequence of operations keeps a store well-formed. -/
theorem after (h : s.WellFormed) (ops : List StoreOperation) :
    (StoreOperation.after ConnectionStore.act s ops).WellFormed := by
  induction ops generalizing s with
  | nil => exact h
  | cons op rest ih => exact ih (h.act op)

/-- A store is empty when its size is zero: no pair of nodes stands in it without a connection. -/
theorem isEmpty_iff (h : s.WellFormed) : s.isEmpty = true ↔ s.size = 0 := by
  rw [isEmpty, Bool.and_eq_true, h.activeFull.isEmpty_iff, h.inactiveFull.isEmpty_iff, size,
    activeCount, inactiveCount, Partition.count_eq, Partition.count_eq, Nat.add_eq_zero_iff,
    List.length_eq_zero_iff, List.length_eq_zero_iff]

/-- A pair of nodes is in the store when one of its connections is listed. -/
theorem containsPair_iff_listed (h : s.WellFormed) :
    s.containsPair pair = true ↔ ∃ c ∈ s.connections, c.pair = pair := by
  rw [h.containsPair_iff]
  simp only [h.mem_connections_iff]
  constructor
  · rintro ⟨i, c, hc⟩
    exact ⟨c, ⟨pair, i, hc⟩, (h.keys_eq hc).1⟩
  · rintro ⟨c, ⟨pair', i, hc⟩, rfl⟩
    rw [(h.keys_eq hc).1]
    exact ⟨i, c, hc⟩

end WellFormed

/-- Whatever is done with a store that starts empty, no keys stand in both partitions, every
connection stands under its own keys, its flag is set exactly in the active partition, and no pair
of nodes stands in a partition without a connection; so the store is empty when its size is zero,
and a pair is in it when one of its connections is. -/
theorem representation_kept (ops : List StoreOperation) :
    let s := StoreOperation.after act empty ops
    (∀ pair i, s.active.find? pair i = none ∨ s.inactive.find? pair i = none) ∧
      (∀ pair i c, s.active.find? pair i = some c →
        c.pair = pair ∧ c.interfaces = i ∧ c.connected = true) ∧
      (∀ pair i c, s.inactive.find? pair i = some c →
        c.pair = pair ∧ c.interfaces = i ∧ c.connected = false) ∧
      (∀ pair inner, s.active.get? pair = some inner ∨ s.inactive.get? pair = some inner →
        inner.isEmpty = false) ∧
      (s.isEmpty = true ↔ s.size = 0) ∧
      ∀ pair, s.containsPair pair = true ↔ ∃ c ∈ s.connections, c.pair = pair := by
  intro s
  have h : s.WellFormed := wellFormed_empty.after ops
  refine ⟨fun pair i => ?_, fun _ _ _ hc => h.active hc, fun _ _ _ hc => h.inactive hc,
    fun pair inner hinner => ?_, h.isEmpty_iff, fun pair => h.containsPair_iff_listed⟩
  · cases hc : s.active.find? pair i with
    | none => exact Or.inl rfl
    | some c => exact Or.inr (h.apart hc)
  · rcases hinner with hinner | hinner
    · exact h.activeFull pair inner hinner
    · exact h.inactiveFull pair inner hinner

end ConnectionStore

end ProximityNet
