import Mathlib.Data.List.Chain
import ProximityNet.Proofs.Recording

/-!
# Links go up and down in turn

Between two resets a link that has come up does not come up again before it has gone down, and none
goes down that is not up, whatever the backend answers.  So the last change that the backend has
carried out says where the link stands.

* `Exchange.transition?`, `transitions` — the changes of one link that were carried out;
* `Alternates` — up and down in turn, up first;
* `ConnectionStore.Up` — the link with an id is up;
* `InTurn` — the invariant that ties a history to the store;
* `transitions_alternate` — it holds after every run from a reset.
-/

namespace ProximityNet

variable {σ μ : Type}

/-- Whether a link was brought up or taken down, if the exchange did one of these to it. -/
def Exchange.transition? (id : ConnectionId) : Exchange → Option Bool
  | .performed (.raise _ c _) (.ok ()) => if c.id = id then some true else none
  | .performed (.lower _ c _) (.ok ()) => if c.id = id then some false else none
  | _ => none

/-- What became of a link, `true` for every time it came up. -/
def transitions (id : ConnectionId) (history : List Exchange) : List Bool :=
  history.filterMap (Exchange.transition? id)

/-- Up and down in turn, beginning with up. -/
def Alternates (l : List Bool) : Prop := (false :: l).IsChain (· ≠ ·)

theorem transitions_append (id : ConnectionId) (h h' : List Exchange) :
    transitions id (h ++ h') = transitions id h ++ transitions id h' := List.filterMap_append

theorem transitions_raised (id : ConnectionId) (site : LinkSite) (c : Connection)
    (shaping : Shaping) :
    transitions id [.performed (.raise site c shaping) (.ok ())] =
      if c.id = id then [true] else [] := by
  rw [transitions, List.filterMap_cons, List.filterMap_nil, Exchange.transition?]
  split <;> simp_all

theorem transitions_lowered (id : ConnectionId) (site : LinkSite) (c : Connection)
    (shaping : Shaping) :
    transitions id [.performed (.lower site c shaping) (.ok ())] =
      if c.id = id then [false] else [] := by
  rw [transitions, List.filterMap_cons, List.filterMap_nil, Exchange.transition?]
  split <;> simp_all

theorem Alternates.append {l : List Bool} {b : Bool} (h : Alternates l)
    (hb : l.getLast? = some true ↔ b = false) : Alternates (l ++ [b]) := by
  rw [Alternates, ← List.cons_append, List.isChain_append]
  refine ⟨h, List.isChain_singleton b, ?_⟩
  intro x hx y hy
  obtain rfl : b = y := Option.some.inj hy
  rw [List.getLast?_cons] at hx
  obtain rfl : l.getLast?.getD false = x := Option.some.inj hx
  cases hlast : l.getLast? with
  | none =>
    rw [hlast] at hb
    cases b with
    | true => exact Bool.false_ne_true
    | false => exact absurd (hb.mpr rfl) (by simp)
  | some last =>
    rw [hlast] at hb
    cases b <;> cases last <;> simp_all

/-! ### Which links are up -/

namespace ConnectionStore

/-- The link with this id is up. -/
def Up (s : ConnectionStore) (id : ConnectionId) : Prop := ∃ c, s.Named id c ∧ c.connected = true

variable {s : ConnectionStore} {c c' : Connection} {pair : NodePair} {i : InterfacePair}

theorem WellFormed.up_iff_mem_active (h : s.WellFormed) (id : ConnectionId) :
    s.Up id ↔ ∃ c ∈ s.active.connections, c.id = id := by
  constructor
  · rintro ⟨c, ⟨hid, hstored⟩, hup⟩
    exact ⟨c, h.mem_active_iff.mpr ⟨hstored, hup⟩, hid⟩
  · rintro ⟨c, hc, hid⟩
    obtain ⟨hstored, hup⟩ := h.mem_active_iff.mp hc
    exact ⟨c, ⟨hid, hstored⟩, hup⟩

/-- A link that alone takes the place of an id decides whether it is up. -/
theorem up_of_named {id : ConnectionId}
    (h : ∀ x, s.Named id x ↔ x = c) : s.Up id ↔ c.connected = true := by
  constructor
  · rintro ⟨x, hx, hup⟩
    rw [← (h x).mp hx]
    exact hup
  · intro hup
    exact ⟨c, (h c).mpr rfl, hup⟩

/-- A stored link that is down is not up under another key. -/
theorem Numbered.up_iff (h : s.Numbered) (hc : s.find? pair i = some c) :
    s.Up c.id ↔ c.connected = true := by
  refine up_of_named fun x => ⟨fun hx => h.named_inj hx (named_of_find? hc), ?_⟩
  rintro rfl
  exact named_of_find? hc

theorem Numbered.not_up_next (h : s.Numbered) : ¬ s.Up ⟨s.nextNumber⟩ := by
  rintro ⟨c, hc, _⟩
  exact h.not_named_next hc

/-- Filing a changed link. -/
theorem Numbered.up_file (h : s.Numbered) (hc : s.find? pair i = some c) (hid : c'.id = c.id)
    (hpair : c'.pair = c.pair) (hi : c'.interfaces = c.interfaces) (id : ConnectionId) :
    (s.file c').Up id ↔ if id = c.id then c'.connected = true else s.Up id := by
  have hnamed := h.named_file hc hid hpair hi id
  split
  · rename_i heq
    exact up_of_named fun x => (hnamed x).trans (by rw [if_pos heq])
  · rename_i hne
    simp only [Up, hnamed, if_neg hne]

/-- Filing a new link. -/
theorem Numbered.up_fileFresh (h : s.Numbered) (hid : c.id.value = s.nextNumber)
    (free : s.find? c.pair c.interfaces = none) (id : ConnectionId) :
    (s.freshId.2.file c).Up id ↔ if id = c.id then c.connected = true else s.Up id := by
  have hnamed := h.named_fileFresh hid free id
  split
  · rename_i heq
    exact up_of_named fun x => (hnamed x).trans (by rw [if_pos heq])
  · rename_i hne
    simp only [Up, hnamed, if_neg hne]

/-- Shaping a link brings none up or down. -/
theorem Numbered.up_adjusted (h : s.Numbered) (hc : s.find? pair i = some c) (d : Distance)
    (shaping : Shaping) (id : ConnectionId) : (s.file (c.adjusted d shaping)).Up id ↔ s.Up id := by
  have hfile : (s.file (c.adjusted d shaping)).Up id ↔
      if id = c.id then c.connected = true else s.Up id :=
    h.up_file hc (by rfl) (by rfl) (by rfl) id
  rw [hfile]
  split
  · rename_i hid
    rw [hid, h.up_iff hc]
  · rfl

/-- Setting up a link brings none up. -/
theorem Numbered.up_established (h : s.Numbered) (v : Visit) (kind : ConnectionKind)
    (free : s.find? v.pair i = none) (held : Shaping) (switch : Option String)
    (id : ConnectionId) : (v.established kind i held switch s).Up id ↔ s.Up id := by
  have hfile := h.up_fileFresh (c := (v.fresh kind i s).accepted held switch) rfl free id
  rw [Visit.established, hfile]
  split
  · rename_i hid
    rw [hid]
    constructor
    · intro hup
      cases hup
    · intro hup
      exact absurd hup h.not_up_next
  · rfl

end ConnectionStore

/-! ### The invariant -/

/-- Every link has gone up and down in turn and stands where its last change left it. -/
def InTurn (history : List Exchange) (s : ConnectionStore) : Prop :=
  ∀ id, Alternates (transitions id history) ∧
    ((transitions id history).getLast? = some true ↔ s.Up id)

variable {history more : List Exchange} {s s' : ConnectionStore}

theorem inTurn_empty : InTurn [] .empty := by
  intro id
  refine ⟨List.isChain_singleton _, ?_⟩
  constructor
  · intro h
    cases h
  · rintro ⟨c, ⟨_, pair, i, h⟩, _⟩
    cases h

/-- Exchanges in which no link changes. -/
theorem InTurn.quiet (h : InTurn history s) (hmore : ∀ id, transitions id more = [])
    (hs : ∀ id, s'.Up id ↔ s.Up id) : InTurn (history ++ more) s' := by
  intro id
  rw [transitions_append, hmore, List.append_nil, hs]
  exact h id

/-- Exchanges in which one link changes, to where it does not stand. -/
theorem InTurn.turn (h : InTurn history s) {id : ConnectionId} {b : Bool}
    (hmore : ∀ id', transitions id' more = if id = id' then [b] else [])
    (hwas : s.Up id ↔ b = false)
    (hs : ∀ id', s'.Up id' ↔ if id' = id then b = true else s.Up id') :
    InTurn (history ++ more) s' := by
  intro id'
  obtain ⟨halt, hlast⟩ := h id'
  rw [transitions_append, hmore, hs]
  by_cases hid : id' = id
  · subst hid
    rw [if_pos rfl, if_pos rfl]
    refine ⟨halt.append (hlast.trans hwas), ?_⟩
    rw [List.getLast?_concat, Option.some.injEq]
  · rw [if_neg hid, if_neg (Ne.symm hid), List.append_nil]
    exact ⟨halt, hlast⟩

/-- Every move keeps the links in turn. -/
theorem Setting.Move.inTurn {s : Setting σ} {t : Task} {p p' : Progress (σ × List Exchange)}
    (hs : p.store.Numbered) (hmove : s.recorded.Move t p p') (h : InTurn p.world.2 p.store) :
    InTurn p'.world.2 p'.store := by
  cases hmove with
  | tunnel _ ensure =>
    dsimp only
    rw [recorded_ensure ensure]
    exact h
  | startFailed launch free start =>
    dsimp only
    rw [recorded_start start]
    exact h.quiet (fun _ => rfl) (fun _ => Iff.rfl)
  | refused launch free start no =>
    dsimp only
    rw [recorded_start start]
    exact h.quiet (fun _ => rfl) (fun _ => Iff.rfl)
  | createFailed launch free start yes create =>
    dsimp only
    rw [recorded_perform create, recorded_start start, List.append_assoc]
    exact h.quiet (fun _ => rfl) (hs.up_established _ _ free _ _)
  | launchFailed launch free start yes create raise =>
    dsimp only
    rw [recorded_perform raise, recorded_perform create, recorded_start start, List.append_assoc,
      List.append_assoc]
    exact h.quiet (fun _ => rfl) (hs.up_established _ _ free _ _)
  | launched launch free start yes create raise =>
    dsimp only
    rw [recorded_perform raise, recorded_perform create, recorded_start start, List.append_assoc,
      List.append_assoc]
    refine h.turn (b := true) (fun id' => transitions_raised id' _ _ _) ?_
      (hs.up_fileFresh rfl free)
    exact ⟨fun hup => absurd hup hs.not_up_next, fun heq => by cases heq⟩
  | raiseFailed revive found down raise =>
    dsimp only
    rw [recorded_perform raise]
    exact h.quiet (fun _ => rfl) (fun _ => Iff.rfl)
  | raised revive found down raise =>
    dsimp only
    rw [recorded_perform raise]
    refine h.turn (b := true) (fun id' => transitions_raised id' _ _ _) ?_
      (hs.up_file found rfl rfl rfl)
    rw [hs.up_iff found, down]
    simp
  | lowerFailed kind far found up lower =>
    dsimp only
    rw [recorded_perform lower]
    exact h.quiet (fun _ => rfl) (fun _ => Iff.rfl)
  | lowered kind far found up lower =>
    dsimp only
    rw [recorded_perform lower]
    refine h.turn (b := false) (fun id' => transitions_lowered id' _ _ _) ?_
      (hs.up_file found rfl rfl rfl)
    rw [hs.up_iff found, up]
    simp
  | adjustFailed adjust found up shape =>
    dsimp only
    rw [recorded_shape shape]
    exact h.quiet (fun _ => rfl) (fun _ => Iff.rfl)
  | adjusted kind adjust found up shape =>
    dsimp only
    rw [recorded_shape shape]
    exact h.quiet (fun _ => rfl) (hs.up_adjusted found _ _)
  | hubAdjusted kind found up shape =>
    dsimp only
    rw [recorded_shape shape]
    exact h.quiet (fun _ => rfl) (fun _ => Iff.rfl)

theorem Setting.keeps_inTurn (s : Setting σ) :
    s.recorded.Keeps fun _ st w => InTurn w.2 st where
  move _ hs hmove h := hmove.inTurn hs h
  announce _ h := h.quiet (fun _ => rfl) (fun _ => Iff.rfl)
  finish _ _ h := h.quiet (fun _ => rfl) (fun _ => Iff.rfl)
  grow _ h := h

/-! ### Every run -/

/-- In every run from a reset the changes of a link that the backend carries out alternate, the
first one brings it up, and the link is up exactly when the last one did. -/
theorem transitions_alternate [Movement μ] (e : Engine σ μ) (ops : List Operation)
    (id : ConnectionId) :
    Alternates (transitions id (e.reset.history ops)) ∧
      ((transitions id (e.reset.history ops)).getLast? = some true ↔
        ∃ c ∈ (e.reset.run ops).store.active.connections, c.id = id) := by
  obtain ⟨hnumbered, hturn⟩ := Engine.history_kept (Setting.keeps_inTurn e.setting) inTurn_empty ops
  obtain ⟨halt, hlast⟩ := hturn id
  exact ⟨halt, hlast.trans (hnumbered.up_iff_mem_active id)⟩

end ProximityNet
