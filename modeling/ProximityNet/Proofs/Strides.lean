import ProximityNet.Proofs.Draws

/-!
# How far a walk gets

A walk can be stopped by a range that nothing can be drawn of.  Validation admits every finite step, but a
step is drawn of a range twice as long, which need not be finite; the sides of the area are admitted at
any length.  This file says how far a walk of a scenario that passes validation gets, and that its nodes
stay at places that are finite.

* `Settled`, `RandomWalk.Roams` — which nodes are where;
* `RandomWalk.roams_of_start`, `RandomWalk.roams_of_advance`, `RandomWalk.roams_of_walked` — this holds at
  the start, of every step, and so of every walk;
* `RandomWalk.succeeds_advance`, `RandomWalk.succeeds_walked` — when a step succeeds, and when a walk;
* `Scenario.walk_succeeds_iff` — how far the walk of a scenario gets;
* `Scenario.overstepping_stops` — a walk that stops at its first step.
-/

namespace ProximityNet

/-! ### Where the nodes are -/

/-- A place of finite coordinates, in an area of finite sides. -/
structure WalkArea.Holds (area : WalkArea) (p : Position) : Prop where
  width : Moderate area.width
  height : Moderate area.height
  x : Moderate p.x
  y : Moderate p.y

/-- The nodes that have positions are these, and the area holds them. -/
structure Settled (area : WalkArea) (ids : List NodeId) (positions : SortedMap NodeId Position) :
    Prop where
  members : ∀ id, positions.contains id = true ↔ id ∈ ids
  held : ∀ id p, positions.get? id = some p → area.Holds p

namespace Settled

variable {area : WalkArea} {ids ids' : List NodeId} {positions : SortedMap NodeId Position}

theorem empty : Settled area [] .empty := by
  refine ⟨fun id => ?_, fun id p h => ?_⟩
  · simp [SortedMap.contains]
  · simp at h

theorem congr (h : Settled area ids positions) (hids : ∀ id, id ∈ ids ↔ id ∈ ids') :
    Settled area ids' positions :=
  ⟨fun id => (h.members id).trans (hids id), h.held⟩

theorem insert (h : Settled area ids positions) {p : Position} (hp : area.Holds p) (id : NodeId) :
    Settled area (id :: ids) (positions.insert id p) := by
  refine ⟨fun other => ?_, fun other q hq => ?_⟩
  · by_cases hid : id = other
    · subst hid
      simp [SortedMap.contains, SortedMap.get?_insert_self]
    · rw [SortedMap.contains, SortedMap.get?_insert_of_ne _ _ hid, List.mem_cons]
      exact (h.members other).trans (or_iff_right (Ne.symm hid)).symm
  · by_cases hid : id = other
    · subst hid
      rw [SortedMap.get?_insert_self] at hq
      obtain rfl := Option.some.inj hq
      exact hp
    · rw [SortedMap.get?_insert_of_ne _ _ hid] at hq
      exact h.held other q hq

theorem mem_keys_iff (h : Settled area ids positions) {id : NodeId} :
    id ∈ positions.keys ↔ id ∈ ids := by
  rw [SortedMap.mem_keys_iff, ← SortedMap.contains_iff, h.members]

/-- There are positions if there are nodes. -/
theorem entries_ne_nil (h : Settled area ids positions) (hids : ids ≠ []) :
    positions.entries ≠ [] := by
  intro hnone
  obtain ⟨id, hid⟩ := List.exists_mem_of_ne_nil ids hids
  have hkey := h.mem_keys_iff.mpr hid
  rw [SortedMap.keys, hnone] at hkey
  cases hkey

theorem of_mem_entries (h : Settled area ids positions) {entry : NodeId × Position}
    (hentry : entry ∈ positions.entries) : area.Holds entry.2 :=
  h.held entry.1 entry.2 (SortedMap.get?_eq_some_iff.mpr hentry)

end Settled

namespace RandomWalk

variable {area : WalkArea} {ids done : List NodeId} {positions positions' : SortedMap NodeId Position}
  {g g' : Generator} {w w' : RandomWalk}

theorem settled_of_place (h : Settled area done positions)
    (hplace : place area ids (positions, g) = .ok (positions', g')) :
    Settled area (ids ++ done) positions' := by
  induction ids generalizing done positions g with
  | nil =>
    obtain ⟨rfl, -⟩ := Prod.mk.inj (Except.ok.inj hplace)
    exact h
  | cons id rest ih =>
    obtain ⟨⟨x, g₁⟩, hx, hplace⟩ := exists_of_bind hplace
    obtain ⟨⟨y, g₂⟩, hy, hplace⟩ := exists_of_bind hplace
    obtain ⟨hwidth, hx⟩ := moderate_of_draw_side hx
    obtain ⟨hheight, hy⟩ := moderate_of_draw_side hy
    -- a node that comes again is placed anew, and is still one of them
    refine (ih (h.insert ⟨hwidth, hheight, hx, hy⟩ id) hplace).congr fun other => ?_
    simp [or_left_comm]

/-- A number that is put back to a moderate side is moderate. -/
theorem moderate_of_clamp {side x x' : Float} (hside : Moderate side) (hx : x.isNaN = false)
    (h : clamp 0.0 side x = .ok x') : Moderate x' := by
  have hcut : (if x < 0.0 then 0.0 else x).isNaN = false ∧ ¬ (if x < 0.0 then 0.0 else x) < 0.0 := by
    by_cases hlow : x < 0.0
    · rw [if_pos hlow]
      exact ⟨by decide, float_lt_irrefl 0.0⟩
    · rw [if_neg hlow]
      exact ⟨hx, hlow⟩
  rw [clamp] at h
  dsimp only at h
  generalize (if x < 0.0 then 0.0 else x) = y at h hcut
  split at h
  · obtain rfl := Except.ok.inj h
    by_cases hhigh : y > side
    · rw [if_pos hhigh]
      exact hside
    · rw [if_neg hhigh]
      have hupright := upright_unpack hcut.1 hcut.2
      have hle : y ≤ side := by
        rwa [gt_iff_lt, float_lt_iff_not_le hside.upright.isNaN hcut.1, not_not] at hhigh
      exact ⟨hupright, isInf_of_le hupright hside.finite (float_le_iff.mp hle)⟩
  · cases h

/-- What a step leads to along one side. -/
theorem moderate_of_stride {side x dx step x' : Float} (hside : Moderate side) (hx : Moderate x)
    (hdx : draw g (-step) step = .ok (dx, g')) (h : clamp 0.0 side (x + dx) = .ok x') :
    Moderate x' :=
  moderate_of_clamp hside (isNaN_pack (isNaN_add (hx.upright.isFinite_iff.mpr hx.finite)
    (isNaN_of_draw_step hdx))) h

theorem holds_of_wander {p p' : Position} (hp : area.Holds p)
    (h : wander area p g = .ok (p', g')) : area.Holds p' := by
  obtain ⟨⟨dx, g₁⟩, hdx, h⟩ := exists_of_bind h
  obtain ⟨⟨dy, g₂⟩, hdy, h⟩ := exists_of_bind h
  obtain ⟨x, hx, h⟩ := exists_of_bind h
  obtain ⟨y, hy, h⟩ := exists_of_bind h
  obtain ⟨rfl, -⟩ := Prod.mk.inj (Except.ok.inj h)
  exact ⟨hp.width, hp.height, moderate_of_stride hp.width hp.x hdx hx,
    moderate_of_stride hp.height hp.y hdy hy⟩

theorem settled_of_wanderAll {l : List (NodeId × Position)} (hl : ∀ entry ∈ l, area.Holds entry.2)
    (h : Settled area done positions)
    (hwander : wanderAll area l (positions, g) = .ok (positions', g')) :
    Settled area (l.map (·.1) ++ done) positions' := by
  induction l generalizing done positions g with
  | nil =>
    obtain ⟨rfl, -⟩ := Prod.mk.inj (Except.ok.inj hwander)
    exact h
  | cons entry rest ih =>
    obtain ⟨id, p⟩ := entry
    obtain ⟨⟨p', g₁⟩, hp, hwander⟩ := exists_of_bind hwander
    have hp' := holds_of_wander (hl (id, p) List.mem_cons_self) hp
    have hrest := ih (fun entry hentry => hl entry (List.mem_cons_of_mem _ hentry))
      (h.insert hp' id) hwander
    refine hrest.congr fun other => ?_
    simp [or_left_comm]

/-- A walk of these nodes in this area. -/
structure Roams (w : RandomWalk) (area : WalkArea) (ids : List NodeId) : Prop where
  area_eq : w.area = area
  settled : Settled area ids w.positions

theorem roams_of_start {seed : Nat} (h : start ids area seed = .ok w) : w.Roams area ids := by
  obtain ⟨⟨positions, random⟩, hplace, h⟩ := exists_of_bind h
  obtain rfl := Except.ok.inj h
  exact ⟨rfl, (settled_of_place .empty hplace).congr fun id => by simp⟩

/-- A step keeps the nodes, and they stay in the area. -/
theorem roams_of_advance (h : w.Roams area ids) (hw : w.advance = .ok w') : w'.Roams area ids := by
  obtain ⟨⟨positions, random⟩, hwander, hw⟩ := exists_of_bind hw
  obtain rfl := Except.ok.inj hw
  rw [h.area_eq] at hwander
  -- whoever has moved had a position before
  refine ⟨h.area_eq, (settled_of_wanderAll (fun entry hentry => h.settled.of_mem_entries hentry)
    h.settled hwander).congr fun id => ?_⟩
  rw [List.mem_append]
  exact or_iff_right_of_imp h.settled.mem_keys_iff.mp

/-- The walk after some more steps. -/
def after (w : RandomWalk) : Nat → Except MovementFault RandomWalk
  | 0 => .ok w
  | n + 1 => do
    let w' ← w.after n
    w'.advance

/-- A walk of these nodes after some steps. -/
def walked (ids : List NodeId) (area : WalkArea) (seed n : Nat) : Except MovementFault RandomWalk := do
  let w ← start ids area seed
  w.after n

theorem roams_of_after {n : Nat} (h : w.Roams area ids) (hw : w.after n = .ok w') :
    w'.Roams area ids := by
  induction n generalizing w' with
  | zero =>
    obtain rfl := Except.ok.inj hw
    exact h
  | succ n ih =>
    obtain ⟨w₁, hw₁, hw⟩ := exists_of_bind hw
    exact roams_of_advance (ih hw₁) hw

theorem roams_of_walked {seed n : Nat} (h : walked ids area seed n = .ok w) : w.Roams area ids := by
  obtain ⟨w₀, hw₀, h⟩ := exists_of_bind h
  exact roams_of_after (roams_of_start hw₀) h

/-! ### How far it gets -/

section Strides

variable {faults : MovementFault → Prop}

theorem succeeds_clamp {low high : Float} (h : low ≤ high) (x : Float) :
    SucceedsIff (clamp low high x) True faults := by
  rw [clamp, if_pos h]
  exact .ok trivial

variable (hwidth : 0.0 ≤ area.width) (hheight : 0.0 ≤ area.height)
  (hstep : Upright area.maxStep.toModel.unpack)

include hstep

/-- A step can be drawn exactly if it is not too long. -/
theorem succeeds_draw_step (g : Generator) :
    SucceedsIff (draw g (-area.maxStep) area.maxStep) (area.maxStep ≤ longestStep)
      fun fault => fault = .noChoice .unbounded :=
  (succeeds_draw_of_le (neg_le_self_iff.mpr hstep) g).congr (finite_span_iff hstep)

include hwidth hheight

theorem succeeds_wander (p : Position) (g : Generator) :
    SucceedsIff (wander area p g) (area.maxStep ≤ longestStep)
      fun fault => fault = .noChoice .unbounded := by
  refine ((succeeds_draw_step hstep g).bind fun x _ => (succeeds_draw_step hstep x.2).bind fun y _ =>
    (succeeds_clamp hwidth (p.x + x.1)).bind fun x' _ =>
      (succeeds_clamp hheight (p.y + y.1)).bind fun y' _ => .ok trivial).congr ?_
  simp

theorem succeeds_wanderAll (l : List (NodeId × Position))
    (state : SortedMap NodeId Position × Generator) :
    SucceedsIff (wanderAll area l state) (l = [] ∨ area.maxStep ≤ longestStep)
      fun fault => fault = .noChoice .unbounded := by
  induction l generalizing state with
  | nil => exact .ok (.inl rfl)
  | cons entry rest ih =>
    obtain ⟨positions, g⟩ := state
    refine ((succeeds_wander hwidth hheight hstep entry.2 g).bind fun moved _ =>
      ih (positions.insert entry.1 moved.1, moved.2)).congr ?_
    simp
    tauto

/-- A step of a walk of some nodes succeeds exactly if it is not too long. -/
theorem succeeds_advance (h : w.Roams area ids) (hids : ids ≠ []) :
    SucceedsIff w.advance (area.maxStep ≤ longestStep) fun fault => fault = .noChoice .unbounded := by
  have hall := succeeds_wanderAll hwidth hheight hstep w.positions.entries (w.positions, w.random)
  rw [← h.area_eq] at hall ⊢
  refine (hall.bind fun moved _ => .ok trivial).congr ?_
  simp [h.settled.entries_ne_nil hids]

/-- Only the first step tells how far a walk gets. -/
theorem succeeds_after (h : w.Roams area ids) (hids : ids ≠ []) (n : Nat) :
    SucceedsIff (w.after n) (n = 0 ∨ area.maxStep ≤ longestStep)
      fun fault => fault = .noChoice .unbounded := by
  induction n with
  | zero => exact .ok (.inl rfl)
  | succ n ih =>
    refine (ih.bind fun w' hw' =>
      succeeds_advance hwidth hheight hstep (roams_of_after h hw') hids).congr ?_
    simp
    tauto

end Strides

/-- How far a walk of some nodes gets is a matter of the sides and of the longest step. -/
theorem succeeds_walked (hwidth : 0.0 < area.width) (hheight : 0.0 < area.height)
    (hstep : Upright area.maxStep.toModel.unpack) (hids : ids ≠ []) (seed n : Nat) :
    SucceedsIff (walked ids area seed n)
      (area.width ≤ longestSide ∧ area.height ≤ longestSide ∧ (n = 0 ∨ area.maxStep ≤ longestStep))
      fun fault => fault = .noChoice .unbounded := by
  have hside : ∀ {side : Float}, 0.0 < side → (Stretchable side ↔ side ≤ longestSide) :=
    fun hpos => stretchable_iff (upright_unpack (float_isNaN_of_le (float_le_of_lt hpos)).2
      (float_not_lt_of_le (float_le_of_lt hpos)))
  refine ((succeeds_start hwidth hheight hids seed).bind fun w hw =>
    succeeds_after (float_le_of_lt hwidth) (float_le_of_lt hheight) hstep (roams_of_start hw) hids
      n).congr ?_
  rw [hside hwidth, hside hheight, and_assoc]

end RandomWalk

/-! ### Scenarios -/

namespace Scenario

variable {s : Scenario} {area : WalkArea} {seed : Nat}

/-- Validation admits the steps that are finite and not negative. -/
theorem moderate_maxStep (hs : s.validate = .ok ()) (hplan : s.movement = .randomWalk area seed) :
    Moderate area.maxStep := by
  rw [validate, check_bind_eq_ok_iff] at hs
  obtain ⟨-, -, -, -, hmovement, -⟩ := checkAll_eq_ok_iff.mp (eq_ok_of_mapError hs.1)
  rw [checkMovement, hplan] at hmovement
  dsimp only at hmovement
  split at hmovement
  · cases hmovement
  · split at hmovement
    · cases hmovement
    · rename_i hstep
      simp only [Bool.not_eq_true', Bool.and_eq_false_iff, not_or, Bool.not_eq_false,
        decide_eq_true_eq] at hstep
      have hupright := upright_unpack (float_isNaN_of_le hstep.1).2 (float_not_lt_of_le hstep.1)
      exact ⟨hupright, hupright.isFinite_iff.mp hstep.2⟩

theorem Valid.succeeds_walked (h : s.Valid) (hs : s.validate = .ok ())
    (hplan : s.movement = .randomWalk area seed) (n : Nat) :
    SucceedsIff (RandomWalk.walked s.nodeIds area seed n)
      (area.width ≤ longestSide ∧ area.height ≤ longestSide ∧ (n = 0 ∨ area.maxStep ≤ longestStep))
      fun fault => fault = .noChoice .unbounded := by
  obtain ⟨hwidth, hheight⟩ := h.area area seed hplan
  exact RandomWalk.succeeds_walked hwidth hheight (moderate_maxStep hs hplan).upright
    h.nodeIds_ne_nil seed n

/-- The walk of a scenario that passes validation gets as far as it should exactly if the sides of its
area are not too long to draw places of them and, from the first step on, its steps are not too long.
Whatever stops it is a range without a finite length; none is empty, and no area either. -/
theorem walk_succeeds_iff (hs : s.validate = .ok ()) (hplan : s.movement = .randomWalk area seed)
    (n : Nat) :
    ((∃ w, RandomWalk.walked s.nodeIds area seed n = .ok w) ↔
      area.width ≤ longestSide ∧ area.height ≤ longestSide ∧ (n = 0 ∨ area.maxStep ≤ longestStep)) ∧
    ∀ fault, RandomWalk.walked s.nodeIds area seed n = .error fault → fault = .noChoice .unbounded :=
  (valid_of_validate hs).succeeds_walked hs hplan n

/-- Where nothing is said, nodes walk on for as long as anyone likes. -/
theorem standard_walks_on : standard.validate = .ok () ∧
    ∃ w, RandomWalk.walked standard.nodeIds ⟨100.0, 100.0, 5.0⟩ 42 1000000 = .ok w := by
  have hvalidate : standard.validate = .ok () := by decide +kernel
  refine ⟨hvalidate, (walk_succeeds_iff hvalidate rfl 1000000).1.mpr ⟨?_, ?_, .inr ?_⟩⟩ <;>
    decide +kernel

/-- A walk with finite steps that are too long to be drawn. -/
def overstepping : Scenario :=
  { standard with nodeCount := 1, movement := .randomWalk ⟨100.0, 100.0, 1e308⟩ 42 }

/-- It passes validation and its node can be placed, but no step can be made. -/
theorem overstepping_stops : overstepping.validate = .ok () ∧
    (∃ w, RandomWalk.start overstepping.nodeIds ⟨100.0, 100.0, 1e308⟩ 42 = .ok w) ∧
    ∀ n, RandomWalk.walked overstepping.nodeIds ⟨100.0, 100.0, 1e308⟩ 42 (n + 1) =
      .error (.noChoice .unbounded) := by
  have hvalidate : overstepping.validate = .ok () := by decide +kernel
  have hvalid := valid_of_validate hvalidate
  refine ⟨hvalidate, (RandomWalk.succeeds_start ?_ ?_ hvalid.nodeIds_ne_nil 42).1.mpr ⟨?_, ?_⟩,
    fun n => ?_⟩
  · decide +kernel
  · decide +kernel
  · decide +kernel
  · decide +kernel
  · have hlong : ¬ (1e308 : Float) ≤ longestStep := by decide +kernel
    obtain ⟨fault, hfault, rfl⟩ := (hvalid.succeeds_walked hvalidate rfl (n + 1)).exists_error
      fun h => h.2.2.elim (Nat.succ_ne_zero n) hlong
    exact hfault

end Scenario

end ProximityNet
