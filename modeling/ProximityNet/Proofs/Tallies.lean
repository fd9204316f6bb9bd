import Mathlib.Data.List.Perm.Basic
import ProximityNet.Proofs.Captures
import ProximityNet.Proofs.Dialogues
import ProximityNet.Proofs.Stoppages

/-!
# The report of a step adds up

While a step is under way its report counts links that were set up, came up, went down, were shaped
or were not accepted.  Each count is raised next to a call to the backend and a change of the store,
and an error can come between them.  Still every count is the number of calls that returned, and the
links that are up and the links that there are follow from the counts.

* `ConnectionStore.WellFormed.activeCount_file` and its companions — filing a connection, counted;
* `Exchange.created`, `Exchange.lifted`, … — the exchanges that are counted;
* `Tallied`, `Setting.Move.tallied`, `Setting.proceeds_tallied` — report and store keep to the record;
* `report_adds_up` — the report of every step.
-/

namespace ProximityNet

open Relation (ReflTransGen)

variable {σ μ : Type}

/-! ### Counting connections -/

namespace ConnectionStore.WellFormed

variable {s : ConnectionStore} {c d : Connection}

theorem activeCount_eq (h : s.WellFormed) : s.activeCount = s.connections.countP (·.connected) := by
  have hup : s.active.connections.countP (·.connected) = s.active.connections.length :=
    List.countP_eq_length.mpr fun c hc => h.connected_of_mem_active hc
  have hdown : s.inactive.connections.countP (·.connected) = 0 :=
    List.countP_eq_zero.mpr fun c hc => by rw [h.connected_of_mem_inactive hc]; exact nofun
  rw [activeCount, Partition.count_eq, connections, List.countP_append, hup, hdown, Nat.add_zero]

theorem size_eq (s : ConnectionStore) : s.size = s.connections.length := by
  rw [size, activeCount, inactiveCount, Partition.count_eq, Partition.count_eq, connections,
    List.length_append]

theorem mem_connections_file (h : s.WellFormed) (c x : Connection) :
    x ∈ (s.file c).connections ↔
      x = c ∨ x ∈ s.connections ∧ ¬ (c.pair = x.pair ∧ c.interfaces = x.interfaces) := by
  rw [(h.file c).mem_connections_iff, h.mem_connections_iff]
  constructor
  · rintro ⟨pair, i, hx⟩
    obtain ⟨rfl, rfl⟩ := (h.file c).keys_eq hx
    rw [h.find?_file] at hx
    split at hx
    · exact Or.inl (Option.some.inj hx).symm
    · rename_i hne
      exact Or.inr ⟨⟨_, _, hx⟩, hne⟩
  · rintro (rfl | ⟨⟨pair, i, hx⟩, hne⟩)
    · exact ⟨_, _, h.find?_file_self rfl rfl⟩
    · obtain ⟨rfl, rfl⟩ := h.keys_eq hx
      exact ⟨_, _, by rw [h.find?_file, if_neg hne, hx]⟩

/-- A connection that is filed under free keys comes to those that there are. -/
theorem file_perm_of_free (h : s.WellFormed) (free : s.find? c.pair c.interfaces = none) :
    (s.file c).connections.Perm (c :: s.connections) := by
  have hout : ∀ x ∈ s.connections, ¬ (c.pair = x.pair ∧ c.interfaces = x.interfaces) := by
    rintro x hx ⟨hpair, hi⟩
    obtain ⟨pair, i, hfound⟩ := h.mem_connections_iff.mp hx
    obtain ⟨rfl, rfl⟩ := h.keys_eq hfound
    rw [← hpair, ← hi, free] at hfound
    cases hfound
  have hnodup : (c :: s.connections).Nodup :=
    List.nodup_cons.mpr ⟨fun hc => hout c hc ⟨rfl, rfl⟩, h.connections_nodup⟩
  refine (List.perm_ext_iff_of_nodup (h.file c).connections_nodup hnodup).mpr fun x => ?_
  rw [h.mem_connections_file, List.mem_cons]
  exact or_congr_right (and_iff_left_of_imp (hout x))

/-- A connection that is filed under the keys of another takes its place. -/
theorem file_perm_of_found (h : s.WellFormed) (found : s.find? c.pair c.interfaces = some d) :
    (d :: (s.file c).connections).Perm (c :: s.connections) := by
  have hd : d ∈ s.connections := h.mem_connections_iff.mpr ⟨_, _, found⟩
  have hplace : ∀ x ∈ s.connections, (c.pair = x.pair ∧ c.interfaces = x.interfaces) ↔ x = d := by
    intro x hx
    obtain ⟨pair, i, hfound⟩ := h.mem_connections_iff.mp hx
    obtain ⟨rfl, rfl⟩ := h.keys_eq hfound
    constructor
    · rintro ⟨hpair, hi⟩
      rw [← hpair, ← hi, found] at hfound
      exact (Option.some.inj hfound).symm
    · rintro rfl
      obtain ⟨hpair, hi⟩ := h.keys_eq found
      exact ⟨hpair.symm, hi.symm⟩
  have hrest : (s.file c).connections.Perm (c :: s.connections.erase d) := by
    have hnodup : (c :: s.connections.erase d).Nodup := by
      refine List.nodup_cons.mpr ⟨fun hc => ?_, h.connections_nodup.erase d⟩
      obtain ⟨hne, hc⟩ := h.connections_nodup.mem_erase_iff.mp hc
      exact hne ((hplace c hc).mp ⟨rfl, rfl⟩)
    refine (List.perm_ext_iff_of_nodup (h.file c).connections_nodup hnodup).mpr fun x => ?_
    rw [h.mem_connections_file, List.mem_cons, h.connections_nodup.mem_erase_iff, and_comm]
    exact or_congr_right (and_congr_left fun hx => not_congr (hplace x hx))
  exact (hrest.cons d).trans ((List.Perm.swap ..).trans ((List.perm_cons_erase hd).symm.cons c))

variable {pair : NodePair} {i : InterfacePair}

theorem activeCount_file_of_free (h : s.WellFormed) (hpair : c.pair = pair)
    (hi : c.interfaces = i) (free : s.find? pair i = none) :
    (s.file c).activeCount = s.activeCount + if c.connected = true then 1 else 0 := by
  subst hpair hi
  rw [(h.file c).activeCount_eq, (h.file_perm_of_free free).countP_eq, List.countP_cons,
    h.activeCount_eq]

theorem activeCount_file_of_found (h : s.WellFormed) (hpair : c.pair = pair)
    (hi : c.interfaces = i) (found : s.find? pair i = some d) :
    (s.file c).activeCount + (if d.connected = true then 1 else 0) =
      s.activeCount + if c.connected = true then 1 else 0 := by
  subst hpair hi
  have hcount := (h.file_perm_of_found found).countP_eq (·.connected)
  rw [List.countP_cons, List.countP_cons] at hcount
  rw [(h.file c).activeCount_eq, h.activeCount_eq, hcount]

theorem size_file_of_free (h : s.WellFormed) (hpair : c.pair = pair) (hi : c.interfaces = i)
    (free : s.find? pair i = none) : (s.file c).size = s.size + 1 := by
  subst hpair hi
  rw [size_eq, size_eq, (h.file_perm_of_free free).length_eq, List.length_cons]

theorem size_file_of_found (h : s.WellFormed) (hpair : c.pair = pair) (hi : c.interfaces = i)
    (found : s.find? pair i = some d) : (s.file c).size = s.size := by
  subst hpair hi
  rw [size_eq, size_eq]
  exact Nat.succ.inj (h.file_perm_of_found found).length_eq

end ConnectionStore.WellFormed

/-! ### Counting exchanges -/

namespace Exchange

/-- Whether a link was to be set up. -/
def creates : Exchange → Bool
  | performed (.create ..) _ => true
  | _ => false

/-- Whether a link that is up was to be shaped. -/
def adjusts : Exchange → Bool
  | performed (.adjust ..) _ => true
  | _ => false

/-- Whether a new link was not accepted. -/
def vetoes : Exchange → Bool
  | asked _ _ (.ok answer) => !answer.accepted
  | _ => false

/-- An exchange that is not about a link is not counted. -/
theorem uncounted {x : Exchange} (h : x.link? = none) :
    x.creates = false ∧ x.raises = false ∧ x.lowers = false ∧ x.adjusts = false ∧
      x.vetoes = false := by
  cases x with
  | announced => exact ⟨rfl, rfl, rfl, rfl, rfl⟩
  | asked => cases h
  | performed r =>
    cases r with
    | finishStep => exact ⟨rfl, rfl, rfl, rfl, rfl⟩
    | create | raise | lower | adjust => cases h

theorem link?_of_creates {x : Exchange} (h : x.creates = true) :
    ∃ site c, x.link? = some (site, c) := by
  cases hlink : x.link? with
  | none =>
    rw [(uncounted hlink).1] at h
    cases h
  | some link => exact ⟨link.1, link.2, rfl⟩

end Exchange

/-- How many exchanges of some sort have not failed. -/
def tally (sort : Exchange → Bool) (l : List Exchange) : Nat :=
  l.countP fun x => sort x && !x.failed

theorem tally_append (sort : Exchange → Bool) (l l' : List Exchange) :
    tally sort (l ++ l') = tally sort l + tally sort l' :=
  List.countP_append

theorem tally_le (sort : Exchange → Bool) (l : List Exchange) : tally sort l ≤ l.countP sort :=
  List.countP_mono_left fun _ _ h => (Bool.and_eq_true_iff.mp h).1

/-- If none of them has failed all exchanges of the sort are counted. -/
theorem tally_eq_countP {sort : Exchange → Bool} {l : List Exchange}
    (h : ∀ x ∈ l, sort x = true → x.failed = false) : tally sort l = l.countP sort := by
  refine List.countP_congr fun x hx => ?_
  rw [Bool.and_eq_true_iff, Bool.not_eq_true']
  exact and_iff_left_of_imp (h x hx)

theorem tally_eq_zero {sort : Exchange → Bool} {l : List Exchange} (h : ∀ x ∈ l, sort x = false) :
    tally sort l = 0 :=
  List.countP_eq_zero.mpr fun x hx => by rw [h x hx]; exact nofun

/-- Report and store have changed as the exchanges say. -/
structure Tallied (l : List Exchange) (p p' : Progress σ) : Prop where
  created : p'.report.created = p.report.created + tally Exchange.creates l
  linksUp : p'.report.linksUp = p.report.linksUp + tally Exchange.raises l
  linksDown : p'.report.linksDown = p.report.linksDown + tally Exchange.lowers l
  adjusted : p'.report.adjusted = p.report.adjusted + tally Exchange.adjusts l
  refused : p'.report.refused = p.report.refused + l.countP Exchange.vetoes
  active : p'.store.activeCount + tally Exchange.lowers l =
    p.store.activeCount + tally Exchange.raises l
  size : p'.store.size = p.store.size + l.countP Exchange.creates

namespace Tallied

variable {l l' : List Exchange} {p p' p'' : Progress σ}

theorem refl (p : Progress σ) : Tallied [] p p := ⟨rfl, rfl, rfl, rfl, rfl, rfl, rfl⟩

/-- Exchanges that are not about links count nothing. -/
theorem of_plain (h : ∀ x ∈ l, x.link? = none) (p : Progress σ) : Tallied l p p := by
  have hcreates : ∀ x ∈ l, x.creates = false := fun x hx => (Exchange.uncounted (h x hx)).1
  have hraises : ∀ x ∈ l, x.raises = false := fun x hx => (Exchange.uncounted (h x hx)).2.1
  have hlowers : ∀ x ∈ l, x.lowers = false := fun x hx => (Exchange.uncounted (h x hx)).2.2.1
  have hadjusts : ∀ x ∈ l, x.adjusts = false := fun x hx => (Exchange.uncounted (h x hx)).2.2.2.1
  have hvetoes : ∀ x ∈ l, x.vetoes = false := fun x hx => (Exchange.uncounted (h x hx)).2.2.2.2
  have none : ∀ sort : Exchange → Bool, (∀ x ∈ l, sort x = false) → l.countP sort = 0 :=
    fun sort hsort => List.countP_eq_zero.mpr fun x hx => by rw [hsort x hx]; exact nofun
  constructor
  · rw [tally_eq_zero hcreates, Nat.add_zero]
  · rw [tally_eq_zero hraises, Nat.add_zero]
  · rw [tally_eq_zero hlowers, Nat.add_zero]
  · rw [tally_eq_zero hadjusts, Nat.add_zero]
  · rw [none _ hvetoes, Nat.add_zero]
  · rw [tally_eq_zero hlowers, tally_eq_zero hraises]
  · rw [none _ hcreates, Nat.add_zero]

theorem trans (h : Tallied l p p') (h' : Tallied l' p' p'') : Tallied (l ++ l') p p'' := by
  constructor
  · rw [h'.created, h.created, tally_append, Nat.add_assoc]
  · rw [h'.linksUp, h.linksUp, tally_append, Nat.add_assoc]
  · rw [h'.linksDown, h.linksDown, tally_append, Nat.add_assoc]
  · rw [h'.adjusted, h.adjusted, tally_append, Nat.add_assoc]
  · rw [h'.refused, h.refused, List.countP_append, Nat.add_assoc]
  · have hactive := h.active
    have hactive' := h'.active
    rw [tally_append, tally_append]
    omega
  · rw [h'.size, h.size, List.countP_append, Nat.add_assoc]

end Tallied

namespace Setting

variable {s : Setting σ} {t : Task} {p p' : Progress (σ × List Exchange)}

/-- What a move counts is what it exchanges with the backend. -/
theorem Move.tallied (h : s.recorded.Move t p p') (hs : p.store.Numbered) :
    ∃ l, p'.world.2 = p.world.2 ++ l ∧ Tallied l p p' := by
  have hw := hs.toWellFormed
  cases h with
  | tunnel remote ensure =>
    exact ⟨[], by rw [recorded_ensure ensure, List.append_nil], rfl, rfl, rfl, rfl, rfl, rfl, rfl⟩
  | startFailed launch free start =>
    exact ⟨_, recorded_start start, rfl, rfl, rfl, rfl, rfl, rfl, rfl⟩
  | @refused _ _ _ answer _ launch free start no =>
    refine ⟨_, recorded_start start, rfl, rfl, rfl, rfl, ?_, rfl, rfl⟩
    simp [Exchange.vetoes, no, StepReport.countRefused]
  | createFailed launch free start yes create =>
    refine ⟨_, (recorded_perform create).trans (by rw [recorded_start start, List.append_assoc]),
      rfl, rfl, rfl, rfl, ?_, ?_, ?_⟩
    · simp [Exchange.vetoes, yes]
    · exact hw.freshId.activeCount_file_of_free rfl rfl free
    · exact hw.freshId.size_file_of_free rfl rfl free
  | launchFailed launch free start yes create raise =>
    refine ⟨_, (recorded_perform raise).trans (by
      rw [recorded_perform create, recorded_start start, List.append_assoc, List.append_assoc]),
      rfl, rfl, rfl, rfl, ?_, ?_, ?_⟩
    · simp [Exchange.vetoes, yes, StepReport.countCreated]
    · exact hw.freshId.activeCount_file_of_free rfl rfl free
    · exact hw.freshId.size_file_of_free rfl rfl free
  | launched launch free start yes create raise =>
    refine ⟨_, (recorded_perform raise).trans (by
      rw [recorded_perform create, recorded_start start, List.append_assoc, List.append_assoc]),
      rfl, rfl, rfl, rfl, ?_, ?_, ?_⟩
    · simp [Exchange.vetoes, yes, StepReport.countCreated, StepReport.countUp]
    · exact hw.freshId.activeCount_file_of_free rfl rfl free
    · exact hw.freshId.size_file_of_free rfl rfl free
  | raiseFailed revive found down raise =>
    exact ⟨_, recorded_perform raise, rfl, rfl, rfl, rfl, rfl, rfl, rfl⟩
  | @raised _ _ c _ shaping _ revive found down raise =>
    have hactive := hw.activeCount_file_of_found (c := c.raised t.visit.distance shaping)
      (hs.keys_eq found).1 rfl found
    rw [down] at hactive
    exact ⟨_, recorded_perform raise, rfl, rfl, rfl, rfl, rfl, hactive,
      hw.size_file_of_found (hs.keys_eq found).1 rfl found⟩
  | lowerFailed kind far found up lower =>
    exact ⟨_, recorded_perform lower, rfl, rfl, rfl, rfl, rfl, rfl, rfl⟩
  | @lowered v _ c _ kind far found up lower =>
    have hactive := hw.activeCount_file_of_found (c := c.lowered v.distance)
      (hs.keys_eq found).1 rfl found
    rw [up] at hactive
    exact ⟨_, recorded_perform lower, rfl, rfl, rfl, rfl, rfl, hactive,
      hw.size_file_of_found (hs.keys_eq found).1 rfl found⟩
  | adjustFailed adjust found up shape =>
    exact ⟨_, recorded_shape shape, rfl, rfl, rfl, rfl, rfl, rfl, rfl⟩
  | @adjusted v _ c shaping _ kind adjust found up shape =>
    have hactive := hw.activeCount_file_of_found (c := c.adjusted v.distance shaping)
      (hs.keys_eq found).1 rfl found
    rw [up, show (c.adjusted v.distance shaping).connected = c.connected from rfl, up] at hactive
    exact ⟨_, recorded_shape shape, rfl, rfl, rfl, rfl, rfl, Nat.add_right_cancel hactive,
      hw.size_file_of_found (hs.keys_eq found).1 rfl found⟩
  | hubAdjusted kind found up shape =>
    exact ⟨_, recorded_shape shape, rfl, rfl, rfl, rfl, rfl, rfl, rfl⟩

/-- So is what any number of due moves count, and to report a failure counts nothing. -/
theorem proceeds_tallied {due : Task → Prop} (h : ReflTransGen (s.recorded.Proceeds due) p p')
    (hs : p.store.Numbered) : ∃ l, p'.world.2 = p.world.2 ++ l ∧ Tallied l p p' := by
  suffices htallied : p'.store.Numbered ∧ ∃ l, p'.world.2 = p.world.2 ++ l ∧ Tallied l p p' from
    htallied.2
  induction h with
  | refl => exact ⟨hs, [], (List.append_nil _).symm, .refl p⟩
  | tail _ hproceeds ih =>
    obtain ⟨hn, l, hl, hrest⟩ := ih
    refine ⟨hproceeds.numbered hn, ?_⟩
    cases hproceeds with
    | move _ hmove =>
      obtain ⟨l', hl', hlast⟩ := hmove.tallied hn
      exact ⟨l ++ l', by rw [hl', hl, List.append_assoc], hrest.trans hlast⟩
    | failure =>
      exact ⟨l, hl, hrest.created, hrest.linksUp, hrest.linksDown, hrest.adjusted, hrest.refused,
        hrest.active, hrest.size⟩

end Setting

/-! ### Steps -/

namespace Engine

variable {e : Engine σ μ}

variable [Movement μ]

/-- A step counts what it exchanges with the backend. -/
theorem applyDistances_tallied (hs : e.store.Numbered) (distances : DistanceMatrix) :
    Tallied (e.history [.apply distances]) (e.progress (.blank e.step 0))
      ((e.applyDistances distances).2.progress (e.applyDistances distances).1) := by
  by_cases hskip : ((e.changed distances).isEmpty && e.step != 0) = true
  · obtain ⟨hreport, hstore, -, -⟩ := applyDistances_skipped hskip
    rw [history_skipped hskip, hreport]
    exact ⟨rfl, rfl, rfl, rfl, rfl, congrArg ConnectionStore.activeCount hstore,
      congrArg ConnectionStore.size hstore⟩
  · obtain ⟨p, q, all, result, commitError, hps, hblank, hbefore, hq, hhistory, hreport, hstore⟩ :=
      applyDistances_recorded hskip
    rw [← hps] at hs
    obtain ⟨l, hl, hvisits⟩ : ∃ l, q.world.2 = p.world.2 ++ l ∧ Tallied l p q := by
      rw [← hq]
      exact Setting.proceeds_tallied (Setting.reconcileAll_entries _ _ _ _ hs) hs
    have hopening : ∀ x ∈ p.world.2, x.link? = none := by
      intro x hx
      rw [hbefore] at hx
      rcases List.mem_pair.mp hx with rfl | rfl <;> rfl
    have hclosing : ∀ x ∈ [Exchange.announced (.changesApplied e.step (e.changed distances) all),
        .performed (.finishStep e.step all) result], x.link? = none := by
      intro x hx
      rcases List.mem_pair.mp hx with rfl | rfl <;> rfl
    have hwhole := ((Tallied.of_plain hopening p).trans hvisits).trans (.of_plain hclosing q)
    rw [← hl, ← hhistory] at hwhole
    have hactive := hwhole.active
    have hsize := hwhole.size
    rw [← hstore, hps] at hactive hsize
    rw [hreport]
    refine ⟨?_, ?_, ?_, ?_, ?_, hactive, hsize⟩
    · exact hwhole.created.trans (by rw [hblank]; rfl)
    · exact hwhole.linksUp.trans (by rw [hblank]; rfl)
    · exact hwhole.linksDown.trans (by rw [hblank]; rfl)
    · exact hwhole.adjusted.trans (by rw [hblank]; rfl)
    · exact hwhole.refused.trans (by rw [hblank]; rfl)

end Engine

/-- The report of a step adds up: every count is the number of calls that have returned, the links
that are up and the links that there are have changed as it says, and what it lists are, in their
order and with their distances, the changed pairs at which something went wrong. -/
theorem report_adds_up [Movement μ] {e : Engine σ μ} (he : e.Reachable) (distances : DistanceMatrix) :
    let report := (e.applyDistances distances).1
    let e' := (e.applyDistances distances).2
    let history := e.history [.apply distances]
    report.created = tally Exchange.creates history ∧
      report.linksUp = tally Exchange.raises history ∧
      report.linksDown = tally Exchange.lowers history ∧
      report.adjusted = tally Exchange.adjusts history ∧
      report.refused = history.countP Exchange.vetoes ∧
      e'.store.activeCount + report.linksDown = e.store.activeCount + report.linksUp ∧
      e.store.size + report.created ≤ e'.store.size ∧
      (report.failures = [] → e'.store.size = e.store.size + report.created) ∧
      (report.failures.Pairwise fun f g => rank f.pair < rank g.pair) ∧
      (∀ f ∈ report.failures, (e.changed distances).get? f.pair = some f.distance) ∧
      ∀ q, q ∈ report.failedPairs ↔ (e.changed distances).contains q = true ∧
        (Setting.Strange e.nodes q ∨
          ∃ m ∈ ofPair q (e.chronicle [.apply distances]), m.deed.failed = true) := by
  intro report e' history
  have hs := he.numbered
  have hk := he.keyed
  have htallied : Tallied history (e.progress (.blank e.step 0)) (e'.progress report) :=
    Engine.applyDistances_tallied hs distances
  have hcreated : report.created = tally Exchange.creates history :=
    htallied.created.trans (Nat.zero_add _)
  have hup : report.linksUp = tally Exchange.raises history := htallied.linksUp.trans (Nat.zero_add _)
  have hdown : report.linksDown = tally Exchange.lowers history :=
    htallied.linksDown.trans (Nat.zero_add _)
  have hactive : e'.store.activeCount + tally Exchange.lowers history =
      e.store.activeCount + tally Exchange.raises history := htallied.active
  have hsize : e'.store.size = e.store.size + history.countP Exchange.creates := htallied.size
  obtain ⟨hascending, hchanged⟩ := Engine.failures_ascending hs distances
  refine ⟨hcreated, hup, hdown, htallied.adjusted.trans (Nat.zero_add _),
    htallied.refused.trans (Nat.zero_add _), ?_, ?_, fun hnone => ?_, hascending, hchanged,
    Engine.failedPairs_iff hs hk distances⟩
  · rw [hup, hdown, hactive]
  · rw [hsize, hcreated]
    exact Nat.add_le_add_left (tally_le _ _) _
  · rw [hsize, hcreated, tally_eq_countP]
    intro x hx hcreates
    by_contra hfailed
    -- a link that could not be set up would be reported with its pair
    obtain ⟨site, c, hlink⟩ := Exchange.link?_of_creates hcreates
    have hreported : c.pair ∈ report.failedPairs :=
      Engine.failed_reported hs hk hx (eq_true_of_ne_false hfailed) hlink
    rw [StepReport.failedPairs, hnone] at hreported
    cases hreported

/-- Three nodes, of which the first has no link brought up and the third has its first link vetoed. -/
def discord : Engine Script Stationary :=
  ((Engine.start ⟨.unshaped .none, .equal, Script.backend, .local⟩ none
    [⟨.raise, none, some ⟨1⟩, 0, none, some (.timeout 5), .yes⟩,
      ⟨.start, none, some ⟨3⟩, 0, some 1, none, .no⟩]).run (twoNodes.map .addNode)).perform
    (.addNode ⟨⟨3⟩, .emulation, [⟨.mesh, 0⟩]⟩)

/-- When the three come together two links are set up, one of which comes up, one is vetoed, and the
first pair is reported. -/
theorem discord_adds_up :
    let report := (discord.applyDistances together).1
    let e' := (discord.applyDistances together).2
    report.created = 2 ∧ report.linksUp = 1 ∧ report.refused = 1 ∧
      report.failedPairs = [⟨⟨1⟩, ⟨2⟩⟩] ∧
      report.linksUp = tally Exchange.raises (discord.history [.apply together]) ∧
      e'.store.activeCount + report.linksDown = discord.store.activeCount + report.linksUp ∧
      discord.store.size + report.created ≤ e'.store.size ∧
      ((discord.changed together).contains ⟨⟨1⟩, ⟨2⟩⟩ = true ∧
        (Setting.Strange discord.nodes ⟨⟨1⟩, ⟨2⟩⟩ ∨
          ∃ m ∈ ofPair ⟨⟨1⟩, ⟨2⟩⟩ (discord.chronicle [.apply together]), m.deed.failed = true)) := by
  intro report e'
  have hreach : discord.Reachable :=
    ((Engine.ReachableBy.start _ _ _).run (twoNodes.map .addNode) fun _ _ _ => trivial).perform trivial
  have hfailed : report.failedPairs = [⟨⟨1⟩, ⟨2⟩⟩] := by decide +kernel
  obtain ⟨-, hup, -, -, -, hactive, hsize, -, -, -, hreported⟩ := report_adds_up hreach together
  refine ⟨by decide +kernel, by decide +kernel, by decide +kernel, hfailed, hup, hactive, hsize, ?_⟩
  refine (hreported _).mp ?_
  show _ ∈ report.failedPairs
  rw [hfailed]
  exact List.mem_singleton_self _

end ProximityNet
