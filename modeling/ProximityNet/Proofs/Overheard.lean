import ProximityNet.Backend.Journal
import ProximityNet.Proofs.Recording

/-!
# A journal among other backends

A journal can be one of several backends that everything is passed on to.  It is told everything but
what a backend before it fails at, so its entries follow the exchanges of the engine in their order,
and what is missing are exchanges that failed.

* `Backend.overheard`, `Setting.overheard` — a journal among other backends;
* `overheard_perform`, `overheard_start`, `overheard_announce` — what a call leaves in the journal;
* `Heard` — entries that follow exchanges;
* `Heard.source`, `Heard.mem` — where an entry comes from, and which entries there are;
* `Engine.overheard_history` — the entries of every run from a reset follow its exchanges.
-/

namespace ProximityNet

variable {σ τ μ : Type}

/-! ### Passing on to backends in two groups -/

namespace Backend

theorem announceAll_append (a : Announcement) (bs bs' : List (Backend σ)) (w : σ) :
    announceAll a (bs ++ bs') w = announceAll a bs' (announceAll a bs w) := by
  induction bs generalizing w with
  | nil => rfl
  | cons b rest ih => exact ih (b.announce a w)

theorem startAll_append_of_ok {site : LinkSite} {c : Connection} {bs bs' : List (Backend σ)}
    {sum sum' : StartAnswer} {w w' : σ} (h : startAll site c bs sum w = (.ok sum', w')) :
    startAll site c (bs ++ bs') sum w = startAll site c bs' sum' w' := by
  induction bs generalizing sum w with
  | nil =>
    obtain ⟨hsum, rfl⟩ := Prod.mk.inj h
    rw [← Except.ok.inj hsum, List.nil_append]
  | cons b rest ih =>
    rw [startAll] at h
    rw [List.cons_append, startAll]
    rcases hb : b.start site c w with ⟨_ | answer, w₁⟩
    · rw [hb] at h
      cases h
    · rw [hb] at h
      exact ih h

theorem startAll_append_of_error {site : LinkSite} {c : Connection} {bs : List (Backend σ)}
    (bs' : List (Backend σ)) {sum : StartAnswer} {w w' : σ} {e : BackendError}
    (h : startAll site c bs sum w = (.error e, w')) :
    startAll site c (bs ++ bs') sum w = (.error e, w') := by
  induction bs generalizing sum w with
  | nil => cases h
  | cons b rest ih =>
    rw [startAll] at h
    rw [List.cons_append, startAll]
    rcases hb : b.start site c w with ⟨_ | answer, w₁⟩
    · rw [hb] at h
      exact h
    · rw [hb] at h
      exact ih h

theorem performAll_append_of_ok {r : Request} {bs bs' : List (Backend σ)} {w w' : σ}
    (h : performAll r bs w = (.ok (), w')) :
    performAll r (bs ++ bs') w = performAll r bs' w' := by
  induction bs generalizing w with
  | nil =>
    obtain ⟨_, rfl⟩ := Prod.mk.inj h
    rfl
  | cons b rest ih =>
    rw [performAll] at h
    rw [List.cons_append, performAll]
    rcases hb : b.perform r w with ⟨_ | _, w₁⟩
    · rw [hb] at h
      cases h
    · rw [hb] at h
      exact ih h

theorem performAll_append_of_error {r : Request} {bs : List (Backend σ)}
    (bs' : List (Backend σ)) {w w' : σ} {e : BackendError}
    (h : performAll r bs w = (.error e, w')) :
    performAll r (bs ++ bs') w = (.error e, w') := by
  induction bs generalizing w with
  | nil => cases h
  | cons b rest ih =>
    rw [performAll] at h
    rw [List.cons_append, performAll]
    rcases hb : b.perform r w with ⟨_ | _, w₁⟩
    · rw [hb] at h
      exact h
    · rw [hb] at h
      exact ih h

/-! ### Backends that act on the second part only -/

theorem announceAll_second (a : Announcement) (bs : List (Backend τ)) (w : σ × τ) :
    (announceAll a (bs.map (.within Part.second)) w).1 = w.1 := by
  induction bs generalizing w with
  | nil => rfl
  | cons b rest ih => exact ih (w.1, b.announce a w.2)

theorem startAll_second (site : LinkSite) (c : Connection) (bs : List (Backend τ))
    (sum : StartAnswer) (w : σ × τ) :
    (startAll site c (bs.map (.within Part.second)) sum w).2.1 = w.1 := by
  induction bs generalizing sum w with
  | nil => rfl
  | cons b rest ih =>
    rw [List.map_cons, startAll]
    have hb : (b.within Part.second).start site c w =
      ((b.start site c w.2).1, (w.1, (b.start site c w.2).2)) := rfl
    rw [hb]
    cases (b.start site c w.2).1 with
    | error e => rfl
    | ok answer => exact ih _ (w.1, (b.start site c w.2).2)

theorem performAll_second (r : Request) (bs : List (Backend τ)) (w : σ × τ) :
    (performAll r (bs.map (.within Part.second)) w).2.1 = w.1 := by
  induction bs generalizing w with
  | nil => rfl
  | cons b rest ih =>
    rw [List.map_cons, performAll]
    have hb : (b.within Part.second).perform r w =
      ((b.perform r w.2).1, (w.1, (b.perform r w.2).2)) := rfl
    rw [hb]
    cases (b.perform r w.2).1 with
    | error e => rfl
    | ok u => exact ih (w.1, (b.perform r w.2).2)

end Backend

/-! ### What is left in the journal -/

/-- Passes everything on to some backends, a journal and some more backends. -/
def Backend.overheard (before after : List (Backend τ)) : Backend (Journal × τ) :=
  .broadcast (before.map (.within Part.second) ++
    Journal.backend.within Part.first :: after.map (.within Part.second))

def Setting.overheard (model : LinkModel) (pairing : Pairing) (before after : List (Backend τ))
    (policy : TunnelPolicy τ) : Setting (Journal × τ) where
  model := model
  pairing := pairing
  backend := .overheard before after
  policy := policy.within Part.second

section Calls

variable (before after : List (Backend τ)) (w : Journal × τ)

theorem overheard_announce (a : Announcement) :
    ((Backend.overheard before after).announce a w).1 =
      (Journal.entryOfAnnouncement? a).elim w.1 w.1.add := by
  have hbefore := Backend.announceAll_second a before w
  show (Backend.announceAll a (_ ++ _) w).1 = _
  rw [Backend.announceAll_append, Backend.announceAll, Backend.announceAll_second, ← hbefore]
  rfl

theorem overheard_start (site : LinkSite) (c : Connection) :
    ((Backend.overheard before after).start site c w).2.1 = w.1 := by
  have hbefore := Backend.startAll_second site c before .yes w
  show (Backend.startAll site c (_ ++ _) .yes w).2.1 = _
  rcases hall : Backend.startAll site c (before.map (.within Part.second)) .yes w with ⟨e | sum, w₁⟩
  · rw [Backend.startAll_append_of_error _ hall]
    rw [hall] at hbefore
    exact hbefore
  · rw [Backend.startAll_append_of_ok hall]
    rw [hall] at hbefore
    exact (Backend.startAll_second site c after _ w₁).trans hbefore

/-- The journal writes down what is asked for, unless a backend before it fails. -/
theorem overheard_perform (r : Request) :
    ((Backend.overheard before after).perform r w).2.1 = w.1.add (Journal.entryOfRequest r) ∨
      (((Backend.overheard before after).perform r w).2.1 = w.1 ∧
        ∃ e, ((Backend.overheard before after).perform r w).1 = .error e) := by
  have hbefore := Backend.performAll_second r before w
  have hshow : (Backend.overheard before after).perform r w = Backend.performAll r
    (before.map (.within Part.second) ++
      Journal.backend.within Part.first :: after.map (.within Part.second)) w := rfl
  rw [hshow]
  rcases hall : Backend.performAll r (before.map (.within Part.second)) w with ⟨e | _, w₁⟩
  · rw [Backend.performAll_append_of_error _ hall]
    rw [hall] at hbefore
    exact Or.inr ⟨hbefore, e, rfl⟩
  · rw [Backend.performAll_append_of_ok hall]
    rw [hall] at hbefore
    have hjournal : w₁.1.add (Journal.entryOfRequest r) = w.1.add (Journal.entryOfRequest r) :=
      congrArg (fun j : Journal => j.add (Journal.entryOfRequest r)) hbefore
    exact Or.inl ((Backend.performAll_second r after _).trans hjournal)

end Calls

/-! ### Entries that follow exchanges -/

/-- What a journal writes down of an exchange. -/
def Exchange.entry? : Exchange → Option LinkEvent
  | .announced a => Journal.entryOfAnnouncement? a
  | .asked .. => none
  | .performed r _ => some (Journal.entryOfRequest r)

/-- Entries that follow exchanges in their order; of what failed there may be none. -/
inductive Heard : List Exchange → List LinkEvent → Prop
  | nil : Heard [] []
  | told {history : List Exchange} {entries : List LinkEvent} {x : Exchange} {entry : LinkEvent}
      (rest : Heard history entries) (writes : x.entry? = some entry) :
      Heard (history ++ [x]) (entries ++ [entry])
  | silent {history : List Exchange} {entries : List LinkEvent} {x : Exchange}
      (rest : Heard history entries) (writes : x.entry? = none) : Heard (history ++ [x]) entries
  | missed {history : List Exchange} {entries : List LinkEvent} {r : Request}
      {cause : BackendError} (rest : Heard history entries) :
      Heard (history ++ [.performed r (.error cause)]) entries

variable {history : List Exchange} {entries : List LinkEvent}

/-- Every entry comes from an exchange, and what is written before it from those before. -/
theorem Heard.source (h : Heard history entries) {earlier later : List LinkEvent}
    {entry : LinkEvent} (heq : entries = earlier ++ entry :: later) :
    ∃ before x after, history = before ++ x :: after ∧ Heard before earlier ∧
      x.entry? = some entry := by
  have longer : ∀ {h : List Exchange} {y : Exchange},
      (∃ before x after, h = before ++ x :: after ∧ Heard before earlier ∧ x.entry? = some entry) →
      ∃ before x after, h ++ [y] = before ++ x :: after ∧ Heard before earlier ∧
        x.entry? = some entry := by
    intro h y hsplit
    obtain ⟨before, x, after, rfl, hrest⟩ := hsplit
    exact ⟨before, x, after ++ [y], by rw [List.append_assoc, List.cons_append], hrest⟩
  induction h generalizing later with
  | nil => exact absurd heq.symm (by simp)
  | @told history entries x entry' rest writes ih =>
    rcases List.eq_nil_or_concat later with rfl | ⟨later', z, rfl⟩
    · obtain ⟨rfl, hentry⟩ := List.append_inj' heq rfl
      rw [(List.cons.inj hentry).1] at writes
      exact ⟨history, x, [], rfl, rest, writes⟩
    · rw [List.concat_eq_append, ← List.cons_append, ← List.append_assoc] at heq
      exact longer (ih (List.append_inj' heq rfl).1)
  | silent _ _ ih => exact longer (ih heq)
  | missed _ ih => exact longer (ih heq)

/-- What succeeded is written down. -/
theorem Heard.mem (h : Heard history entries) {r : Request}
    (hr : .performed r (.ok ()) ∈ history) : Journal.entryOfRequest r ∈ entries := by
  induction h with
  | nil => cases hr
  | told rest writes ih =>
    rcases List.mem_append.mp hr with hold | hnew
    · exact List.mem_append_left _ (ih hold)
    · rw [← List.mem_singleton.mp hnew] at writes
      rw [← Option.some.inj writes]
      exact List.mem_append_right _ List.mem_cons_self
  | silent rest writes ih =>
    rcases List.mem_append.mp hr with hold | hnew
    · exact ih hold
    · rw [← List.mem_singleton.mp hnew] at writes
      cases writes
  | missed rest ih =>
    rcases List.mem_append.mp hr with hold | hnew
    · exact ih hold
    · cases List.mem_singleton.mp hnew

/-! ### Runs -/

/-- The entries that a journal has got follow the exchanges. -/
def Overhears (start : Journal) (w : (Journal × τ) × List Exchange) : Prop :=
  ∃ new, w.1.1.entries = start.entries ++ new ∧ Heard w.2 new

variable {start : Journal} {w w' : (Journal × τ) × List Exchange} {x : Exchange}

/-- An exchange of which the journal has written down what there is to write. -/
theorem Overhears.told (h : Overhears start w)
    (hjournal : w'.1.1 = x.entry?.elim w.1.1 w.1.1.add) (hhistory : w'.2 = w.2 ++ [x]) :
    Overhears start w' := by
  obtain ⟨new, hentries, hheard⟩ := h
  cases hentry : x.entry? with
  | none =>
    rw [hentry] at hjournal
    refine ⟨new, ?_, ?_⟩
    · rw [hjournal]
      exact hentries
    · rw [hhistory]
      exact hheard.silent hentry
  | some entry =>
    rw [hentry] at hjournal
    refine ⟨new ++ [entry], ?_, ?_⟩
    · rw [hjournal, Option.elim_some, Journal.entries_add, hentries, List.append_assoc]
    · rw [hhistory]
      exact hheard.told hentry

/-- An exchange that failed before the journal was told. -/
theorem Overhears.missed (h : Overhears start w) {r : Request} {cause : BackendError}
    (hjournal : w'.1.1 = w.1.1) (hhistory : w'.2 = w.2 ++ [.performed r (.error cause)]) :
    Overhears start w' := by
  obtain ⟨new, hentries, hheard⟩ := h
  refine ⟨new, ?_, ?_⟩
  · rw [hjournal]
    exact hentries
  · rw [hhistory]
    exact hheard.missed

theorem Setting.overheard_guards (model : LinkModel) (pairing : Pairing)
    (before after : List (Backend τ)) (policy : TunnelPolicy τ) (start : Journal) :
    (Setting.overheard model pairing before after policy).recorded.Guards (Overhears start) where
  announce {a w} h := h.told (x := .announced a) (overheard_announce before after w.1 a) rfl
  start {site c w answer w'} hstart h := by
    obtain ⟨rfl, rfl⟩ := Prod.mk.inj hstart
    exact h.told (x := .asked site c _) (overheard_start before after w.1 site c) rfl
  perform {r w result w'} hperform h := by
    obtain ⟨rfl, rfl⟩ := Prod.mk.inj hperform
    rcases overheard_perform before after w.1 r with htold | ⟨hkept, cause, hcause⟩
    · exact h.told (x := .performed r _) htold rfl
    · have hhistory : w.2 ++ [.performed r ((Backend.overheard before after).perform r w.1).1] =
          w.2 ++ [.performed r (.error cause)] := by rw [hcause]
      exact h.missed hkept hhistory
  ensure {pair w result w'} hensure h := by
    obtain ⟨_, rfl⟩ := Prod.mk.inj hensure
    exact h

/-- The entries that a journal gets in a run from a reset follow the exchanges of the run. -/
theorem Engine.overheard_history [Movement μ] {e : Engine (Journal × τ) μ} {model : LinkModel}
    {pairing : Pairing} {before after : List (Backend τ)} {policy : TunnelPolicy τ}
    (he : e.setting = .overheard model pairing before after policy)
    (hooks : ∀ hook ∈ e.hooks, ∀ st w, (hook st w).1 = w.1) (ops : List Operation) :
    ∃ new, (e.reset.run ops).world.1.entries = e.world.1.entries ++ new ∧
      Heard (e.reset.history ops) new := by
  have hguards : e.reset.recorded.setting.Guards (Overhears e.world.1) := by
    show e.setting.recorded.Guards _
    rw [he]
    exact Setting.overheard_guards model pairing before after policy e.world.1
  have hstart : e.reset.recorded.Kept fun _ _ w => Overhears e.world.1 w := by
    refine ⟨ConnectionStore.numbered_empty, ⟨[], (List.append_nil _).symm, .nil⟩, ?_⟩
    intro hook hmem nodes st w hw
    obtain ⟨plain, hplain, rfl⟩ := List.mem_map.mp hmem
    obtain ⟨new, hentries, hheard⟩ := hw
    refine ⟨new, ?_, hheard⟩
    show (plain st w.1).1.entries = _
    rw [hooks plain hplain]
    exact hentries
  obtain ⟨hrun, _⟩ := Engine.run_kept hguards.keeps hstart ops
  have hheard := hrun.holds
  rw [(e.reset.recorded_run ops).2] at hheard
  exact hheard

end ProximityNet
