import ProximityNet.Proofs.Broadcasts
import ProximityNet.Proofs.Exports

/-!
# Exported journals

The text of a journal entry reads as that entry, and the text of all entries of a run as these
entries.  An entry is a tagged record: it is read as a whole before its tag is known, and its fields
after that, so what it holds has to be read back either way.

* `LinkEvent.Exportable`, `LinkEvent.floats` — what may be exported, and the floats in it;
* `LinkEvent.depth_toJson_le` — how deep an entry is nested;
* `LinkEvent.codes` — entries of every kind are read back;
* `Call.Exportable`, `Exportable.noted` — calls that leave entries that may be exported;
* `entries_respondAll`, `exportable_respondAll` — the entries that a run of calls leaves;
* `journal_read_back` — the texts of entries and of runs are read back.
-/

namespace ProximityNet

open Json (Codes)

/-! ### Entries -/

/-- Its bandwidth fits into 64 bits, and its floats are finite. -/
structure Shaping.Exportable (s : Shaping) : Prop where
  bandwidth : ∀ n ∈ s.bandwidthKbit, n < NumberText.wordSize
  finite : ∀ x ∈ s.floats, x.isFinite = true

theorem Shaping.Exportable.codes {s : Shaping} (h : s.Exportable)
    (hreads : ∀ x ∈ s.floats, (JsonNumber.float x).ReadsBack) :
    Codes Shaping.toJson Shaping.ofJson? s :=
  Shaping.codes h.bandwidth fun x hx => ⟨h.finite x hx, hreads x hx⟩

namespace LinkEvent

/-- How many pairs changed, if the entry says so. -/
def changed? : LinkEvent → Option Nat
  | distancesChanged _ changed => some changed
  | _ => none

/-- The shaping that an entry tells of, if it tells of one. -/
def shaping? : LinkEvent → Option Shaping
  | linkUp _ _ _ _ shaping | qualityAdjusted _ _ _ shaping => some shaping
  | _ => none

/-- The floats in an entry. -/
def floats (e : LinkEvent) : List Float := e.shaping?.elim [] Shaping.floats

/-- Its numbers fit into 64 bits, and its shaping is finite. -/
structure Exportable (e : LinkEvent) : Prop where
  step : e.step < NumberText.wordSize
  connection : ∀ c ∈ e.connection?, c.value < NumberText.wordSize
  changed : ∀ n ∈ e.changed?, n < NumberText.wordSize
  shaping : ∀ s ∈ e.shaping?, s.Exportable

/-- An endpoint stands in an entry, an interface in the endpoint, and nothing goes deeper. -/
theorem depth_toJson_le (e : LinkEvent) : e.toJson.depth ≤ 3 := by
  have hshaping : ∀ s : Shaping, s.toJson.depth = 1 := by
    rintro ⟨bandwidth, loss, delay⟩
    cases bandwidth <;> cases loss <;> cases delay <;> rfl
  cases e with
  | stepStarted => exact Nat.le_of_ble_eq_true rfl
  | distancesChanged => exact Nat.le_of_ble_eq_true rfl
  | linkCreated => exact Nat.le_of_ble_eq_true rfl
  | linkDown => exact Nat.le_of_ble_eq_true rfl
  | stepCommitted => exact Nat.le_of_ble_eq_true rfl
  | linkUp step c a b shaping =>
    show max 0 (max 0 (max 0 (max 2 (max 2 (max shaping.toJson.depth 0))))) + 1 ≤ 3
    rw [hshaping]
    decide
  | qualityAdjusted step c still shaping =>
    show max 0 (max 0 (max 0 (max 0 (max shaping.toJson.depth 0)))) + 1 ≤ 3
    rw [hshaping]
    decide

/-- An entry is read back inside as many arrays and objects as can be read as a whole. -/
theorem codes {e : LinkEvent} (h : e.Exportable)
    (hreads : ∀ x ∈ e.floats, (JsonNumber.float x).ReadsBack) {outer : Nat}
    (houter : outer + 3 < Json.nestingLimit) : Codes toJson (ofJson? outer) e := by
  have hword : ∀ n < NumberText.wordSize, Codes Json.natural Json.asWord? n :=
    fun _ hn => Json.codes_natural le_rfl hn
  have hend := Endpoint.codes .buffered
  have hdepth : outer + e.toJson.depth < Json.nestingLimit := by
    have hdeep := e.depth_toJson_le
    omega
  cases e with
  | stepStarted step =>
    have hstep := hword step h.step
    refine Json.codes_tagged rfl (fun _ => rfl) (fun _ => rfl) (.refl _) (by decide) (by decide)
      hdepth ?_ ?_
    · simp [toEntries, hstep.written]
    · simp [toEntries, hstep.reads]
  | distancesChanged step changed =>
    have hstep := hword step h.step
    have hchanged := hword changed (h.changed changed rfl)
    refine Json.codes_tagged rfl (fun _ => rfl) (fun _ => rfl) (.refl _) (by decide) (by decide)
      hdepth ?_ ?_
    · simp [toEntries, hstep.written, hchanged.written]
    · simp [toEntries, hstep.reads, hchanged.reads]
  | linkCreated step c kind a b =>
    have hstep := hword step h.step
    have hc := ConnectionId.codes (h.connection c rfl)
    have hkind := ConnectionKind.codes .buffered kind
    refine Json.codes_tagged rfl (fun _ => rfl) (fun _ => rfl) (.refl _) (by decide) (by decide)
      hdepth ?_ ?_
    · simp [toEntries, hstep.written, hc.written, hkind.written, (hend a).written,
        (hend b).written]
    · simp [toEntries, hstep.reads, hc.reads, hkind.reads, (hend a).reads, (hend b).reads]
  | linkUp step c a b shaping =>
    have hstep := hword step h.step
    have hc := ConnectionId.codes (h.connection c rfl)
    have hshaping := (h.shaping shaping rfl).codes hreads
    refine Json.codes_tagged rfl (fun _ => rfl) (fun _ => rfl) (.refl _) (by decide) (by decide)
      hdepth ?_ ?_
    · simp [toEntries, hstep.written, hc.written, (hend a).written, (hend b).written,
        hshaping.written]
    · simp [toEntries, hstep.reads, hc.reads, (hend a).reads, (hend b).reads, hshaping.reads]
  | linkDown step c a b =>
    have hstep := hword step h.step
    have hc := ConnectionId.codes (h.connection c rfl)
    refine Json.codes_tagged rfl (fun _ => rfl) (fun _ => rfl) (.refl _) (by decide) (by decide)
      hdepth ?_ ?_
    · simp [toEntries, hstep.written, hc.written, (hend a).written, (hend b).written]
    · simp [toEntries, hstep.reads, hc.reads, (hend a).reads, (hend b).reads]
  | qualityAdjusted step c still shaping =>
    have hstep := hword step h.step
    have hc := ConnectionId.codes (h.connection c rfl)
    have hstill := Json.codes_bool still
    have hshaping := (h.shaping shaping rfl).codes hreads
    refine Json.codes_tagged rfl (fun _ => rfl) (fun _ => rfl) (.refl _) (by decide) (by decide)
      hdepth ?_ ?_
    · simp [toEntries, hstep.written, hc.written, hstill.written, hshaping.written]
    · simp [toEntries, hstep.reads, hc.reads, hstill.reads, hshaping.reads]
  | stepCommitted step =>
    have hstep := hword step h.step
    refine Json.codes_tagged rfl (fun _ => rfl) (fun _ => rfl) (.refl _) (by decide) (by decide)
      hdepth ?_ ?_
    · simp [toEntries, hstep.written]
    · simp [toEntries, hstep.reads]

end LinkEvent

/-! ### Runs of the journal -/

/-- Its numbers fit into 64 bits. -/
def Announcement.Exportable : Announcement → Prop
  | .stepStarting step _ => step < NumberText.wordSize
  | .changesPending step changed _ =>
    step < NumberText.wordSize ∧ changed.size < NumberText.wordSize
  | .changesApplied .. | .adjusting .. => True

/-- Its numbers fit into 64 bits, and a shaping that is to be put on a link is finite. -/
def Request.Exportable : Request → Prop
  | .finishStep step _ => step < NumberText.wordSize
  | .create site c | .lower site c _ =>
    site.step < NumberText.wordSize ∧ c.id.value < NumberText.wordSize
  | .raise site c shaping | .adjust site c _ shaping =>
    site.step < NumberText.wordSize ∧ c.id.value < NumberText.wordSize ∧ shaping.Exportable

namespace Call

/-- What the journal writes down of this call may be exported. -/
def Exportable : Call → Prop
  | announce a => a.Exportable
  | start .. => True
  | perform r => r.Exportable

/-- The entry that a call leaves in the journal, if it leaves one. -/
def noted? : Call → Option LinkEvent
  | announce a => Journal.entryOfAnnouncement? a
  | start .. => none
  | perform r => some (Journal.entryOfRequest r)

theorem Exportable.noted {call : Call} (h : call.Exportable) {e : LinkEvent}
    (he : call.noted? = some e) : e.Exportable := by
  cases call with
  | announce a =>
    cases a with
    | stepStarting step distances =>
      obtain rfl := Option.some.inj he
      exact ⟨h, nofun, nofun, nofun⟩
    | changesPending step changed all =>
      obtain rfl := Option.some.inj he
      refine ⟨h.1, nofun, fun n hn => ?_, nofun⟩
      rw [← Option.some.inj hn]
      exact h.2
    | changesApplied => cases he
    | adjusting => cases he
  | start => cases he
  | perform r =>
    obtain rfl := Option.some.inj he
    have hlink : ∀ {c : ConnectionId}, c.value < NumberText.wordSize →
        ∀ c' ∈ some c, c'.value < NumberText.wordSize := by
      rintro c hc c' ⟨⟩
      exact hc
    have hput : ∀ {s : Shaping}, s.Exportable → ∀ s' ∈ some s, s'.Exportable := by
      rintro s hs s' ⟨⟩
      exact hs
    cases r with
    | finishStep => exact ⟨h, nofun, nofun, nofun⟩
    | create | lower => exact ⟨h.1, hlink h.2, nofun, nofun⟩
    | raise | adjust => exact ⟨h.1, hlink h.2.1, nofun, hput h.2.2⟩

end Call

namespace Journal

/-- A call adds its entry. -/
theorem entries_respond (call : Call) (j : Journal) :
    (backend.respond call j).2.entries = j.entries ++ call.noted?.toList := by
  cases call with
  | announce a =>
    show ((entryOfAnnouncement? a).elim j j.add).entries = _
    rw [Call.noted?]
    cases entryOfAnnouncement? a with
    | none => exact (List.append_nil _).symm
    | some e => exact j.entries_add e
  | start site c => exact (List.append_nil _).symm
  | perform r => exact j.entries_add _

/-- A run adds the entries of its calls in their order. -/
theorem entries_respondAll (calls : List Call) (j : Journal) :
    (backend.respondAll calls j).2.entries = j.entries ++ calls.filterMap Call.noted? := by
  induction calls generalizing j with
  | nil => exact (List.append_nil _).symm
  | cons call rest ih =>
    rw [Backend.respondAll, ih, entries_respond, List.append_assoc, List.filterMap_cons]
    cases call.noted? <;> rfl

/-- A run of calls that may be exported leaves entries that may be. -/
theorem exportable_respondAll {calls : List Call} (h : ∀ call ∈ calls, call.Exportable) :
    ∀ e ∈ (backend.respondAll calls .empty).2.entries, e.Exportable := by
  rw [entries_respondAll, entries_empty, List.nil_append]
  intro e he
  obtain ⟨call, hcall, hnoted⟩ := List.mem_filterMap.mp he
  exact (h call hcall).noted hnoted

end Journal

/-- The text of an entry reads as that entry, and the text of all entries of a run of the journal as
these entries in their order, if their numbers fit into 64 bits, their shapings are finite and the
floats in them are read back one by one. -/
theorem journal_read_back :
    (∀ e : LinkEvent, e.Exportable → (∀ x ∈ e.floats, (JsonNumber.float x).ReadsBack) →
      (Json.read? e.toJson.compact).bind (LinkEvent.ofJson? 0) = some e ∧
        (Json.read? e.toJson.pretty).bind (LinkEvent.ofJson? 0) = some e) ∧
    ∀ calls : List Call, (∀ call ∈ calls, call.Exportable) →
      let entries := (Journal.backend.respondAll calls .empty).2.entries
      let exported := Json.array (entries.map LinkEvent.toJson)
      (∀ e ∈ entries, ∀ x ∈ e.floats, (JsonNumber.float x).ReadsBack) →
        (Json.read? exported.compact).bind (Json.asList? (LinkEvent.ofJson? 1)) = some entries ∧
          (Json.read? exported.pretty).bind (Json.asList? (LinkEvent.ofJson? 1)) =
            some entries := by
  refine ⟨fun e he hreads => ?_, fun calls hcalls => ?_⟩
  · have hcodes : Codes LinkEvent.toJson (LinkEvent.ofJson? 0) e :=
      LinkEvent.codes he hreads (by decide)
    exact ⟨hcodes.read?_compact, hcodes.read?_pretty⟩
  · intro entries exported hreads
    have hentries : ∀ e ∈ entries, e.Exportable := Journal.exportable_respondAll hcalls
    have hcodes : Codes (fun entries => Json.array (entries.map LinkEvent.toJson))
        (Json.asList? (LinkEvent.ofJson? 1)) entries :=
      Json.codes_list fun e he => LinkEvent.codes (hentries e he) (hreads e he) (by decide)
    exact ⟨hcodes.read?_compact, hcodes.read?_pretty⟩

/-- What a backend is told of a link that is set up, shaped and taken down in the last step there can
be. -/
def lastStep : List Call :=
  let step := 18446744073709551615
  let x : Node := ⟨⟨1⟩, .emulation, [⟨.adHoc, 0⟩]⟩
  let y : Node := ⟨.centralBase, .central, [⟨.hub, 0⟩]⟩
  let site : LinkSite := ⟨x, y, ⟨.adHoc, 0⟩, ⟨.hub, 0⟩, ⟨true, false, false⟩, step⟩
  let c := Connection.fresh ⟨18446744073709551615⟩ ⟨x.id, y.id⟩ ⟨⟨.adHoc, 0⟩, ⟨.hub, 0⟩⟩ .central
    .zero step
  let changed : DistanceMatrix := SortedMap.ofList [(⟨x.id, y.id⟩, .zero)]
  let shaping : Shaping := ⟨some 500, some 0.5, none⟩
  [.announce (.stepStarting step changed), .announce (.changesPending step changed changed),
    .start site c, .perform (.create site c), .perform (.raise site c shaping),
    .announce (.adjusting site c true .none), .perform (.adjust site c true .none),
    .perform (.lower site c .none), .announce (.changesApplied step changed changed),
    .perform (.finishStep step changed)]

/-- The run leaves an entry of each kind, and its text reads as these entries. -/
theorem lastStep_read_back :
    let entries := (Journal.backend.respondAll lastStep .empty).2.entries
    (∀ call ∈ lastStep, call.Exportable) ∧
      (∀ e ∈ entries, ∀ x ∈ e.floats, (JsonNumber.float x).ReadsBack) ∧
      entries.map LinkEvent.tag = ["StepStarted", "DistancesChanged", "LinkCreated", "LinkUp",
        "QualityAdjusted", "LinkDown", "StepCommitted"] ∧
      (∀ e ∈ entries, (Json.read? e.toJson.compact).bind (LinkEvent.ofJson? 0) = some e) ∧
      (Json.read? (Json.array (entries.map LinkEvent.toJson)).compact).bind
        (Json.asList? (LinkEvent.ofJson? 1)) = some entries := by
  intro entries
  have hcalls : ∀ call ∈ lastStep, call.Exportable := by
    have hsome : (⟨some 500, some 0.5, none⟩ : Shaping).Exportable := ⟨by decide, by decide⟩
    have hnone : Shaping.none.Exportable := ⟨by decide, by decide⟩
    have hsize : (SortedMap.ofList [((⟨⟨1⟩, .centralBase⟩ : NodePair), Distance.zero)]).size = 1 := by
      decide
    simp [lastStep, Call.Exportable, Announcement.Exportable, Request.Exportable, Connection.fresh,
      NumberText.wordSize, hsome, hnone, hsize]
  have hreads : ∀ e ∈ entries, ∀ x ∈ e.floats, (JsonNumber.float x).ReadsBack := by
    decide +kernel
  have hentries := Journal.exportable_respondAll hcalls
  refine ⟨hcalls, hreads, by decide +kernel, fun e he => ?_, ?_⟩
  · exact (journal_read_back.1 e (hentries e he) (hreads e he)).1
  · exact (journal_read_back.2 lastStep hcalls hreads).1

end ProximityNet
