import ProximityNet.Proofs.Containment
import ProximityNet.Proofs.Forgetting
import ProximityNet.Proofs.Routes
import ProximityNet.Proofs.Tellings

/-!
# Tunnels and links in one record

A chronicle tells in one list what an engine exchanged with its backend and which tunnels it asked
for, each with the world it happened in.  In a step the part about one pair of nodes has one of four
shapes: it is empty, it is all about links that stay on the server, it is a tunnel and then links that
run between servers, or it is a tunnel that failed and nothing else.

* `Deed`, `Moment`, `ofPair` — what is done, when, and about which pair;
* `Engine.chronicled`, `Engine.chronicle` — the same engine, which keeps a chronicle;
* `Engine.history_eq` — the exchanges in a chronicle are those of the history;
* `Passage` — the four shapes; `Encounter.passage` — what reconciling a pair tells of it;
* `Crossing`, `Spares` — what becomes of a pair on its own visit and on the visits to others, which
  `reconcileAll_crossing` puts together;
* `Engine.perform_crossing` — what a step of either kind tells of a pair.
-/

namespace ProximityNet

variable {σ μ : Type}

/-! ### Chronicles -/

/-- An exchange with the backend, or a tunnel that was asked for. -/
inductive Deed where
  | exchanged (x : Exchange)
  | ensured (pair : NodePair) (result : Except TunnelError Unit)

/-- A deed, and the world before it. -/
structure Moment (σ : Type) where
  world : σ
  deed : Deed

namespace Moment

/-- The exchange with the backend, if it is one. -/
def exchange? (m : Moment σ) : Option Exchange :=
  match m.deed with
  | .exchanged x => some x
  | .ensured .. => none

/-- The link that something is said about, if it is about one. -/
def link? (m : Moment σ) : Option (LinkSite × Connection) := m.exchange?.bind Exchange.link?

/-- The pair that it is about, if it is about one. -/
def pair? (m : Moment σ) : Option NodePair :=
  match m.deed with
  | .exchanged x => x.link?.map fun link => link.2.pair
  | .ensured pair _ => some pair

/-- It is about a link of the pair, which runs between servers or does not. -/
def Runs (q : NodePair) (remote : Bool) (m : Moment σ) : Prop :=
  ∃ site c, m.link? = some (site, c) ∧ c.pair = q ∧ site.route.isRemote = remote

theorem Runs.pair? {q : NodePair} {remote : Bool} {m : Moment σ} (h : m.Runs q remote) :
    m.pair? = some q := by
  obtain ⟨site, c, hlink, rfl, -⟩ := h
  obtain ⟨w, x | ⟨pair, result⟩⟩ := m
  · have hx : x.link? = some (site, c) := hlink
    show x.link?.map _ = _
    rw [hx]
    rfl
  · cases hlink

/-- An exchange that is not about a link is about no pair. -/
theorem pair?_of_plain {w : σ} {x : Exchange} (hx : x.link? = none) (q : NodePair) :
    (⟨w, .exchanged x⟩ : Moment σ).pair? ≠ some q := by
  show x.link?.map _ ≠ some q
  rw [hx]
  exact nofun

theorem Runs.not_ensured {q : NodePair} {remote : Bool} {m : Moment σ} (h : m.Runs q remote)
    (pair : NodePair) (result : Except TunnelError Unit) : m.deed ≠ .ensured pair result := by
  obtain ⟨site, c, hlink, -⟩ := h
  intro hdeed
  rw [Moment.link?, Moment.exchange?, hdeed] at hlink
  cases hlink

end Moment

/-- The moments about one pair. -/
def ofPair (q : NodePair) (l : List (Moment σ)) : List (Moment σ) :=
  l.filter fun m => m.pair? = some q

theorem ofPair_append (q : NodePair) (l l' : List (Moment σ)) :
    ofPair q (l ++ l') = ofPair q l ++ ofPair q l' :=
  List.filter_append l l'

theorem ofPair_of_forall {q : NodePair} {l : List (Moment σ)} (h : ∀ m ∈ l, m.pair? = some q) :
    ofPair q l = l :=
  List.filter_eq_self.mpr fun m hm => decide_eq_true (h m hm)

theorem ofPair_of_other {q : NodePair} {l : List (Moment σ)} (h : ∀ m ∈ l, m.pair? ≠ some q) :
    ofPair q l = [] :=
  List.filter_eq_nil_iff.mpr fun m hm hq => h m hm (of_decide_eq_true hq)

/-- The same backend, which writes down every call and the world it was made in. -/
def Backend.chronicled (b : Backend σ) : Backend (σ × List (Moment σ)) where
  announce a w := (b.announce a w.1, w.2 ++ [⟨w.1, .exchanged (.announced a)⟩])
  start site c w :=
    let (answer, world) := b.start site c w.1
    (answer, (world, w.2 ++ [⟨w.1, .exchanged (.asked site c answer)⟩]))
  perform r w :=
    let (result, world) := b.perform r w.1
    (result, (world, w.2 ++ [⟨w.1, .exchanged (.performed r result)⟩]))

/-- The same policy, which writes down every tunnel that it was asked for. -/
def TunnelPolicy.chronicled (t : TunnelPolicy σ) : TunnelPolicy (σ × List (Moment σ)) where
  isRemote w := t.isRemote w.1
  ensure pair w :=
    let (result, world) := t.ensure pair w.1
    (result, (world, w.2 ++ [⟨w.1, .ensured pair result⟩]))
  isDistributed := t.isDistributed

def Setting.chronicled (s : Setting σ) : Setting (σ × List (Moment σ)) where
  model := s.model
  pairing := s.pairing
  backend := s.backend.chronicled
  policy := s.policy.chronicled

namespace Engine

/-- The same engine, which keeps a chronicle from now on. -/
def chronicled (e : Engine σ μ) : Engine (σ × List (Moment σ)) μ where
  setting := e.setting.chronicled
  nodes := e.nodes
  movement := e.movement
  tracker := e.tracker
  store := e.store
  step := e.step
  hooks := e.hooks.map fun hook st w => (hook st w.1, w.2)
  world := (e.world, [])

/-- Everything that happens in a run, in its order. -/
def chronicle [Movement μ] (e : Engine σ μ) (ops : List Operation) : List (Moment σ) :=
  (e.chronicled.run ops).world.2

/-- Keeping a chronicle changes nothing else. -/
theorem chronicled_shows (e : Engine σ μ) : e.chronicled.Shows Prod.fst e where
  setting := ⟨rfl, rfl, ⟨fun _ _ => rfl, fun _ _ _ => rfl, fun _ _ => rfl⟩,
    ⟨fun _ _ _ => rfl, fun _ _ => rfl⟩⟩
  nodes := rfl
  movement := rfl
  tracker := rfl
  store := rfl
  step := rfl
  hooks := by
    show List.Forall₂ _ (e.hooks.map _) e.hooks
    rw [List.forall₂_map_left_iff, List.forall₂_same]
    intro hook _ st w
    rfl
  world := rfl

/-- What a chronicle says of exchanges is what a record says. -/
theorem chronicled_shows_recorded (e : Engine σ μ) :
    e.chronicled.Shows (Prod.map id (List.filterMap Moment.exchange?)) e.recorded where
  setting := by
    refine ⟨rfl, rfl, ⟨fun a w => ?_, fun site c w => ?_, fun r w => ?_⟩,
      ⟨fun _ _ _ => rfl, fun pair w => ?_⟩⟩
    · exact Prod.ext rfl (List.filterMap_append ..)
    · exact Prod.ext rfl (Prod.ext rfl (List.filterMap_append ..))
    · exact Prod.ext rfl (Prod.ext rfl (List.filterMap_append ..))
    · refine Prod.ext rfl (Prod.ext rfl ?_)
      exact (List.filterMap_append ..).trans (List.append_nil _)
  nodes := rfl
  movement := rfl
  tracker := rfl
  store := rfl
  step := rfl
  hooks := by
    show List.Forall₂ _ (e.hooks.map _) (e.hooks.map _)
    rw [List.forall₂_map_left_iff, List.forall₂_map_right_iff, List.forall₂_same]
    intro hook _ st w
    rfl
  world := rfl

theorem history_eq [Movement μ] (e : Engine σ μ) (ops : List Operation) :
    e.history ops = (e.chronicle ops).filterMap Moment.exchange? :=
  (congrArg Prod.snd (run_shows e.chronicled_shows_recorded ops).world).symm

end Engine

/-! ### The shapes -/

/-- What happens to one pair of nodes in a step. -/
inductive Passage (t : TunnelPolicy σ) (q : NodePair) : List (Moment σ) → Prop
  | idle : Passage t q []
  /-- The nodes were on one server when the first link had its turn. -/
  | near {m : Moment σ} {l : List (Moment σ)} (here : t.isRemote m.world q.low q.high = false)
      (links : ∀ x ∈ m :: l, x.Runs q false) : Passage t q (m :: l)
  | stranded {w : σ} {fault : TunnelError} (remote : t.isRemote w q.low q.high = true) :
      Passage t q [⟨w, .ensured q (.error fault)⟩]
  | tunnelled {w : σ} {l : List (Moment σ)} (remote : t.isRemote w q.low q.high = true)
      (links : ∀ x ∈ l, x.Runs q true) : Passage t q (⟨w, .ensured q (.ok ())⟩ :: l)

namespace Passage

variable {t : TunnelPolicy σ} {q : NodePair} {l : List (Moment σ)}

theorem pair? (h : Passage t q l) : ∀ m ∈ l, m.pair? = some q := by
  intro m hm
  cases h with
  | idle => cases hm
  | near _ links => exact (links m hm).pair?
  | stranded => rw [List.mem_singleton.mp hm]; rfl
  | tunnelled _ links =>
    rcases List.mem_cons.mp hm with rfl | hm
    · rfl
    · exact (links m hm).pair?

/-- A link that something is said about has the route that its pair had in the beginning, and if that
is between servers, the tunnel comes first. -/
theorem link (h : Passage t q l) {m : Moment σ} (hm : m ∈ l) {site : LinkSite} {c : Connection}
    (hlink : m.link? = some (site, c)) :
    ∃ first rest, l = first :: rest ∧
      site.route.isRemote = t.isRemote first.world q.low q.high ∧
      (site.route.isRemote = true → first.deed = .ensured q (.ok ())) := by
  have route : ∀ {b}, m.Runs q b → site.route.isRemote = b := by
    rintro b ⟨site', c', hlink', -, hroute⟩
    obtain ⟨rfl, -⟩ := Prod.mk.inj (Option.some.inj (hlink.symm.trans hlink'))
    exact hroute
  cases h with
  | idle => cases hm
  | near here links =>
    have hroute := route (links m hm)
    refine ⟨_, _, rfl, hroute.trans here.symm, fun hremote => ?_⟩
    rw [hroute] at hremote
    cases hremote
  | stranded =>
    rw [List.mem_singleton.mp hm] at hlink
    cases hlink
  | tunnelled remote links =>
    rcases List.mem_cons.mp hm with rfl | hm
    · cases hlink
    · exact ⟨_, _, rfl, (route (links m hm)).trans remote.symm, fun _ => rfl⟩

/-- Where the tunnel fails nothing else happens. -/
theorem failed (h : Passage t q l) {m : Moment σ} (hm : m ∈ l) {fault : TunnelError}
    (hdeed : m.deed = .ensured q (.error fault)) : l = [m] := by
  cases h with
  | idle => cases hm
  | near _ links => exact absurd hdeed ((links m hm).not_ensured _ _)
  | stranded => rw [List.mem_singleton.mp hm]
  | tunnelled _ links =>
    rcases List.mem_cons.mp hm with rfl | hm
    · cases hdeed
    · exact absurd hdeed ((links m hm).not_ensured _ _)

end Passage

/-! ### One visit -/

/-- What has been said since the world was `w`: it is about links of one pair and one route, and the
first of it was said in that world. -/
structure Since (w : σ) (l₀ : List (Moment σ)) (q : NodePair) (remote : Bool)
    (w' : σ × List (Moment σ)) : Prop where
  told : ∃ l, w'.2 = l₀ ++ l ∧ (∀ m ∈ l, m.Runs q remote) ∧
    ((l = [] ∧ w'.1 = w) ∨ ∃ m rest, l = m :: rest ∧ m.world = w)

namespace Since

variable {w : σ} {l₀ : List (Moment σ)} {q : NodePair} {remote : Bool}
  {w' w'' : σ × List (Moment σ)}

theorem refl (w' : σ × List (Moment σ)) : Since w'.1 w'.2 q remote w' :=
  ⟨[], (List.append_nil _).symm, fun _ hm => (by cases hm), Or.inl ⟨rfl, rfl⟩⟩

theorem go_on (h : Since w l₀ q remote w') {deed : Deed} (htold : w''.2 = w'.2 ++ [⟨w'.1, deed⟩])
    (hruns : (⟨w'.1, deed⟩ : Moment σ).Runs q remote) : Since w l₀ q remote w'' := by
  obtain ⟨l, hl, hall, hfirst⟩ := h.told
  refine ⟨l ++ [⟨w'.1, deed⟩], by rw [htold, hl, List.append_assoc], ?_, Or.inr ?_⟩
  · intro m hm
    rcases List.mem_append.mp hm with hm | hm
    · exact hall m hm
    · rw [List.mem_singleton.mp hm]
      exact hruns
  · rcases hfirst with ⟨rfl, hw⟩ | ⟨m, rest, rfl, hm⟩
    · exact ⟨_, [], rfl, hw⟩
    · exact ⟨m, _, rfl, hm⟩

end Since

namespace Setting

variable {s : Setting σ} {q : NodePair} {p p' p'' : Progress (σ × List (Moment σ))}

/-- All that is said while the links of a pair have their turn is about links of the pair. -/
theorem guardsAt_since (s : Setting σ) (v : Visit) (w : σ) (l₀ : List (Moment σ)) :
    s.chronicled.settled.GuardsAt v (Since w l₀ v.pair v.isRemote) := by
  refine ⟨fun hconcerns h => ?_, fun hconcerns h => ?_, fun hlink hconcerns h => ?_,
    fun _ h => h⟩
  · exact h.go_on rfl ⟨_, _, rfl, hconcerns.1, hconcerns.2⟩
  · exact h.go_on rfl ⟨_, _, rfl, hconcerns.1, hconcerns.2⟩
  · refine h.go_on rfl ⟨_, _, ?_, hconcerns.1, hconcerns.2⟩
    show Option.map _ (Request.link? _) = _
    rw [hlink]
    rfl

/-- What reconciling a pair tells of it. -/
theorem Encounter.passage {r : Except ReconcileError Unit × Progress (σ × List (Moment σ))}
    (h : s.chronicled.Encounter q p r) (hs : p.store.Numbered) :
    ∃ l, r.2.world.2 = p.world.2 ++ l ∧ Passage s.policy q l ∧
      ∀ m ∈ l, ∀ fault, m.deed = .ensured q (.error fault) →
        r.1 = .error (.tunnel fault) ∧ r.2.store = p.store := by
  cases h with
  | passed result => exact ⟨[], (List.append_nil _).symm, .idle, fun _ hm => by cases hm⟩
  | @near v _ hv here route moves =>
    -- the first link that is mentioned is mentioned in the world in which the pair was looked up
    have hsince := (s.guardsAt_since v p.world.1 p.world.2).moves moves hs (.refl _)
    rw [hv, route] at hsince
    obtain ⟨l, hl, hruns, ⟨rfl, -⟩ | ⟨m, rest, rfl, hm⟩⟩ := hsince.told
    · exact ⟨[], hl, .idle, fun _ hm => by cases hm⟩
    · refine ⟨_, hl, .near (by rw [hm]; exact here) hruns, fun m' hm' fault hdeed => ?_⟩
      exact absurd hdeed ((hruns m' hm').not_ensured _ _)
  | @stranded fault w remote ensure =>
    obtain ⟨hresult, rfl⟩ := Prod.mk.inj ensure
    have hstranded : Passage s.policy q [⟨p.world.1, .ensured q (.error fault)⟩] := .stranded remote
    refine ⟨_, ?_, hstranded, fun m hm fault' hdeed => ?_⟩
    · exact congrArg (fun result => p.world.2 ++ [⟨p.world.1, .ensured q result⟩]) hresult
    · rw [List.mem_singleton.mp hm] at hdeed
      obtain ⟨-, hfault⟩ := Deed.ensured.inj hdeed
      rw [Except.error.inj hfault]
      exact ⟨rfl, rfl⟩
  | @tunnelled v w _ hv remote route ensure moves =>
    obtain ⟨hresult, rfl⟩ := Prod.mk.inj ensure
    have hsince := (s.guardsAt_since v _ _).moves moves hs (.refl _)
    rw [hv, route] at hsince
    obtain ⟨l, hl, hruns, -⟩ := hsince.told
    refine ⟨⟨p.world.1, .ensured q (.ok ())⟩ :: l, ?_, .tunnelled remote hruns,
      fun m hm fault hdeed => ?_⟩
    · rw [hl, ← hresult]
      exact List.append_assoc _ _ _
    · rcases List.mem_cons.mp hm with rfl | hm
      · cases hdeed
      · exact absurd hdeed ((hruns m hm).not_ensured _ _)

/-! ### The visits of a step -/

/-- What a part of a step does with one pair of nodes. -/
structure Crossing (t : TunnelPolicy σ) (q : NodePair) (p p' : Progress (σ × List (Moment σ))) :
    Prop where
  numbered : p'.store.Numbered
  failures : ∀ f ∈ p.report.failures, f ∈ p'.report.failures
  told : ∃ l, ofPair q p'.world.2 = ofPair q p.world.2 ++ l ∧ Passage t q l ∧
    ∀ m ∈ l, ∀ fault, m.deed = .ensured q (.error fault) →
      (∀ i, p'.store.find? q i = p.store.find? q i) ∧
        ∃ d, ⟨q, d, .tunnel fault⟩ ∈ p'.report.failures

/-- A part of a step that has nothing to do with a pair. -/
structure Spares (q : NodePair) (p p' : Progress (σ × List (Moment σ))) : Prop where
  numbered : p'.store.Numbered
  same : ∀ i, p'.store.find? q i = p.store.find? q i
  failures : ∀ f ∈ p.report.failures, f ∈ p'.report.failures
  told : ofPair q p'.world.2 = ofPair q p.world.2

/-- To say things that are not about the pair is nothing to it. -/
theorem Spares.said {l : List (Moment σ)} (hs : p.store.Numbered) (hstore : p'.store = p.store)
    (hfailures : p'.report.failures = p.report.failures) (htold : p'.world.2 = p.world.2 ++ l)
    (hl : ∀ m ∈ l, m.pair? ≠ some q) : Spares q p p' := by
  refine ⟨by rw [hstore]; exact hs, fun i => by rw [hstore], fun f hf => by rwa [hfailures], ?_⟩
  rw [htold, ofPair_append, ofPair_of_other hl, List.append_nil]

theorem Spares.trans (h : Spares q p p') (h' : Spares q p' p'') : Spares q p p'' :=
  ⟨h'.numbered, fun i => (h'.same i).trans (h.same i), fun f hf => h'.failures f (h.failures f hf),
    h'.told.trans h.told⟩

theorem Spares.crossing {t : TunnelPolicy σ} (h : Spares q p p') : Crossing t q p p' :=
  ⟨h.numbered, h.failures, [], by rw [h.told, List.append_nil], .idle, fun _ hm => by cases hm⟩

theorem Spares.before {t : TunnelPolicy σ} (h : Spares q p p') (h' : Crossing t q p' p'') :
    Crossing t q p p'' := by
  obtain ⟨l, hl, hpassage, hfailed⟩ := h'.told
  refine ⟨h'.numbered, fun f hf => h'.failures f (h.failures f hf), l, by rw [hl, h.told], hpassage,
    fun m hm fault hdeed => ?_⟩
  obtain ⟨hsame, hreported⟩ := hfailed m hm fault hdeed
  exact ⟨fun i => (hsame i).trans (h.same i), hreported⟩

theorem Crossing.after {t : TunnelPolicy σ} (h : Crossing t q p p') (h' : Spares q p' p'') :
    Crossing t q p p'' := by
  obtain ⟨l, hl, hpassage, hfailed⟩ := h.told
  refine ⟨h'.numbered, fun f hf => h'.failures f (h.failures f hf), l, by rw [h'.told, hl], hpassage,
    fun m hm fault hdeed => ?_⟩
  obtain ⟨hsame, d, hreported⟩ := hfailed m hm fault hdeed
  exact ⟨fun i => (h'.same i).trans (hsame i), d, h'.failures _ hreported⟩

section Visits

variable {nodes : SortedMap NodeId Node} {step : Nat}

/-- A visit to the pair has one of the four shapes. -/
theorem visited_crossing (distance : Distance) (hs : p.store.Numbered) (hk : Keyed nodes) :
    Crossing s.policy q p (s.chronicled.visited nodes step q distance p) := by
  have hencounter : s.chronicled.Encounter q p (s.chronicled.reconcile nodes step q distance p) :=
    reconcile_encounter hs hk
  obtain ⟨hstore, hworld⟩ : (s.chronicled.visited nodes step q distance p).store = _ ∧ _ :=
    visited_reconciles q distance
  obtain ⟨l, hl, hpassage, hfailed⟩ := hencounter.passage hs
  refine ⟨?_, visited_failures hs, l, ?_, hpassage, fun m hm fault hdeed => ?_⟩
  · rw [hstore]
    exact (reconcile_confined hs).numbered
  · rw [hworld, hl, ofPair_append, ofPair_of_forall hpassage.pair?]
  · obtain ⟨hresult, hsame⟩ := hfailed m hm fault hdeed
    rw [visited_of_error (Prod.ext hresult rfl), hsame]
    exact ⟨fun _ => rfl, distance, List.mem_append_right _ (List.mem_singleton_self _)⟩

/-- A visit to another pair leaves it alone. -/
theorem visited_spares {q' : NodePair} (distance : Distance) (hs : p.store.Numbered)
    (hk : Keyed nodes) (hne : q ≠ q') :
    Spares q p (s.chronicled.visited nodes step q' distance p) := by
  have hencounter : s.chronicled.Encounter q' p (s.chronicled.reconcile nodes step q' distance p) :=
    reconcile_encounter hs hk
  obtain ⟨l, hl, hpassage, -⟩ := hencounter.passage hs
  obtain ⟨hnumbered, hsame, -⟩ :
      (s.chronicled.visited nodes step q' distance p).store.Numbered ∧ _ := visited_of_ne hs hne
  refine ⟨hnumbered, hsame, visited_failures hs, ?_⟩
  have hother : ofPair q l = [] := ofPair_of_other fun m hm hpair =>
    hne (Option.some.inj (hpair.symm.trans (hpassage.pair? m hm)))
  rw [(visited_reconciles q' distance).2, hl, ofPair_append, hother, List.append_nil]

theorem reconcileAll_spares {l : List (NodePair × Distance)} (hs : p.store.Numbered)
    (hk : Keyed nodes) (hl : q ∉ l.map Prod.fst) :
    Spares q p (s.chronicled.reconcileAll nodes step l p) := by
  induction l generalizing p with
  | nil => exact ⟨hs, fun _ => rfl, fun _ hf => hf, rfl⟩
  | cons a rest ih =>
    rw [List.map_cons, List.mem_cons, not_or] at hl
    have hfirst : Spares q p (s.chronicled.visited nodes step a.1 a.2 p) :=
      visited_spares a.2 hs hk hl.1
    rw [reconcileAll_cons]
    exact hfirst.trans (ih hfirst.numbered hl.2)

/-- The visits of a step, no two of which are to one pair. -/
theorem reconcileAll_crossing {l : List (NodePair × Distance)} (hs : p.store.Numbered)
    (hk : Keyed nodes) (hl : (l.map Prod.fst).Nodup) :
    Crossing s.policy q p (s.chronicled.reconcileAll nodes step l p) := by
  induction l generalizing p with
  | nil => exact Spares.crossing ⟨hs, fun _ => rfl, fun _ hf => hf, rfl⟩
  | cons a rest ih =>
    obtain ⟨q', distance⟩ := a
    obtain ⟨hfresh, hrest⟩ := List.nodup_cons.mp hl
    rw [reconcileAll_cons]
    by_cases hq : q = q'
    · -- the visits that follow are to other pairs
      subst hq
      have hcrossing : Crossing s.policy q p (s.chronicled.visited nodes step q distance p) :=
        visited_crossing distance hs hk
      exact hcrossing.after (reconcileAll_spares hcrossing.numbered hk hfresh)
    · have hspares : Spares q p (s.chronicled.visited nodes step q' distance p) :=
        visited_spares distance hs hk hq
      exact hspares.before (ih hspares.numbered hrest)

end Visits

end Setting

/-! ### Steps -/

namespace Engine

variable {e : Engine σ μ}

/-- What is told before and after the visits is not about a pair, and hooks tell nothing. -/
theorem applyDistances_spares (q : NodePair) (hs : e.store.Numbered) {distances : DistanceMatrix}
    (hskip : ¬ ((e.changed distances).isEmpty && e.step != 0) = true) :
    ∃ all, (e.chronicled.applyDistances distances).1.failures =
        (e.chronicled.visits (e.changed distances) all).report.failures ∧
      Setting.Spares q (e.chronicled.progress (.blank e.step 0))
        (e.chronicled.opened (e.changed distances) all) ∧
      ((e.chronicled.visits (e.changed distances) all).store.Numbered →
        Setting.Spares q (e.chronicled.visits (e.changed distances) all)
          ((e.chronicled.applyDistances distances).2.progress
            (e.chronicled.applyDistances distances).1)) := by
  have hskip' : ¬ ((e.chronicled.changed distances).isEmpty && e.chronicled.step != 0) = true := hskip
  obtain ⟨all, commitError, hreport, hstore, hworld⟩ := applyDistances_visits hskip'
  have hfailures : (e.chronicled.applyDistances distances).1.failures =
      (e.chronicled.visits (e.changed distances) all).report.failures := by rw [hreport]; rfl
  have htold : (e.chronicled.applyDistances distances).2.world.2 =
      (e.chronicled.closed (e.changed distances) all
        (e.chronicled.visits (e.changed distances) all).world).2 := by
    rw [hworld]
    split
    · exact runHooks_recorded e.hooks _ _
    · rfl
  refine ⟨all, hfailures, .said (l := [_, _]) hs rfl rfl rfl fun m hm => ?_, fun hvisits =>
    .said (l := [_, _]) hvisits hstore hfailures (htold.trans (List.append_assoc _ _ _))
      fun m hm => ?_⟩
  · rcases List.mem_pair.mp hm with rfl | rfl
    · exact Moment.pair?_of_plain rfl q
    · exact Moment.pair?_of_plain rfl q
  · rcases List.mem_pair.mp hm with rfl | rfl
    · exact Moment.pair?_of_plain rfl q
    · exact Moment.pair?_of_plain rfl q

theorem applyDistances_crossing (q : NodePair) (hs : e.store.Numbered) (hk : Keyed e.nodes)
    (distances : DistanceMatrix) :
    Setting.Crossing e.setting.policy q (e.chronicled.progress (.blank e.step 0))
      ((e.chronicled.applyDistances distances).2.progress
        (e.chronicled.applyDistances distances).1) := by
  by_cases hskip : ((e.changed distances).isEmpty && e.step != 0) = true
  · have hskip' : ((e.chronicled.changed distances).isEmpty && e.chronicled.step != 0) = true := hskip
    obtain ⟨hreport, hstore, hworld, -⟩ := applyDistances_skipped hskip'
    have hfailures : (e.chronicled.applyDistances distances).1.failures = [] := by rw [hreport]; rfl
    refine (Setting.Spares.said (l := []) hs hstore hfailures ?_ fun _ hm => by cases hm).crossing
    exact (congrArg Prod.snd hworld).trans (List.append_nil _).symm
  obtain ⟨all, -, hopened, hclosed⟩ := applyDistances_spares q hs hskip
  have hvisits : Setting.Crossing e.setting.policy q (e.chronicled.opened (e.changed distances) all)
      (e.chronicled.visits (e.changed distances) all) :=
    Setting.reconcileAll_crossing hs hk (SortedMap.keys_nodup _)
  exact hopened.before (hvisits.after (hclosed hvisits.numbered))

variable [Movement μ]

theorem chronicle_one (e : Engine σ μ) (op : Operation) :
    e.chronicle [op] = (e.chronicled.perform op).world.2 := rfl

/-- What a step of either kind tells of a pair, and what becomes of the pair if its tunnel fails. -/
theorem perform_crossing (q : NodePair) (hs : e.store.Numbered) (hk : Keyed e.nodes)
    {op : Operation} (hop : op ≠ .connectManagement) :
    Passage e.setting.policy q (ofPair q (e.chronicle [op])) ∧
      ∀ m ∈ ofPair q (e.chronicle [op]), ∀ fault, m.deed = .ensured q (.error fault) →
        (∀ i, (e.perform op).store.find? q i = e.store.find? q i) ∧
          ∃ report d, e.reportOf? op = some report ∧ ⟨q, d, .tunnel fault⟩ ∈ report.failures := by
  have hstore := (perform_shows e.chronicled_shows op).store
  rw [chronicle_one, ← e.chronicled_shows.reportOf? op, ← hstore]
  rcases e.chronicled.perform_applies hop with ⟨-, _, _, hidle⟩ | ⟨movement, distances, hsome, happ⟩
  · rw [hidle]
    exact ⟨.idle, fun _ hm => by cases hm⟩
  · obtain ⟨-, -, l, hl, hpassage, hfailed⟩ :=
      applyDistances_crossing (e := e.moving movement) q hs hk distances
    have htold : ofPair q ((e.chronicled.moving movement).applyDistances distances).2.world.2 = l := hl
    rw [happ, hsome, htold]
    refine ⟨hpassage, fun m hm fault hdeed => ?_⟩
    obtain ⟨hsame, d, hreported⟩ := hfailed m hm fault hdeed
    exact ⟨hsame, _, d, rfl, hreported⟩

end Engine

end ProximityNet
