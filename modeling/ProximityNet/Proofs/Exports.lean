import ProximityNet.Proofs.Nearest
import ProximityNet.Proofs.Records
import ProximityNet.Snapshot

/-!
# Exported snapshots

The text of a snapshot reads as that snapshot.  A snapshot is a record of lists of records: each
kind of record is read back if what stands in it is.  The unlimited distance is `null`, and a switch
and the limits of a shaping may be missing.

* `NodeId.codes`, `Interface.codes`, `NodePair.codes` — records that are read back in any case;
* `Distance.eq_unlimited`, `Distance.codes` — distances, of which one is unlimited;
* `Shaping.codes`, `Connection.codes`, `Snapshot.codes` — records that are read back if the floats
  in them are;
* `Snapshot.Exportable`, `Snapshot.floats` — what may be exported, and the floats in it;
* `Snapshot.text_read_back` — the text of a snapshot reads as that snapshot.
-/

namespace ProximityNet

open Json (Codes)

/-! ### Nodes and pairs -/

theorem NodeId.codes (id : NodeId) : Codes toJson ofJson? id := by
  have hvalue : Codes Json.natural (Json.asNatural? 4294967296) id.value.toNat :=
    Json.codes_natural (by decide) id.value.toNat_lt
  refine ⟨hvalue.written, ?_⟩
  show (Json.asNatural? 4294967296 (Json.natural id.value.toNat)).map ofNat = some id
  rw [hvalue.reads, Option.map_some, ofNat, UInt32.ofNat_toNat]

theorem InterfaceKind.codes (form : Json.ChoiceForm) (kind : InterfaceKind) :
    Codes toJson (ofJson? form) kind :=
  Json.codes_choice (by cases kind <;> decide)

theorem ConnectionKind.codes (form : Json.ChoiceForm) (kind : ConnectionKind) :
    Codes toJson (ofJson? form) kind :=
  Json.codes_choice (by cases kind <;> decide)

theorem Interface.codes (form : Json.ChoiceForm) (i : Interface) :
    Codes toJson (ofJson? form) i := by
  have hkind := InterfaceKind.codes form i.kind
  have hnumber : Codes Json.natural (Json.asNatural? 65536) i.number.toNat :=
    Json.codes_natural (by decide) i.number.toNat_lt
  refine Json.codes_record rfl (fun _ => rfl) (.refl _) (by decide) (by decide) ?_ ?_
  · simp [hkind.written, hnumber.written]
  · simp [hkind.reads, hnumber.reads]

theorem Endpoint.codes (form : Json.ChoiceForm) (e : Endpoint) :
    Codes toJson (ofJson? form) e := by
  have hnode := NodeId.codes e.node
  have hinterface := Interface.codes form e.interface
  refine Json.codes_record rfl (fun _ => rfl) (.refl _) (by decide) (by decide) ?_ ?_
  · simp [hnode.written, hinterface.written]
  · simp [hnode.reads, hinterface.reads]

theorem NodePair.codes (p : NodePair) : Codes toJson ofJson? p := by
  have hlow := NodeId.codes p.low
  have hhigh := NodeId.codes p.high
  refine Json.codes_record rfl (fun _ => rfl) (.refl _) (by decide) (by decide) ?_ ?_
  · simp [hlow.written, hhigh.written]
  · simp [hlow.reads, hhigh.reads]

theorem InterfacePair.codes (p : InterfacePair) : Codes toJson ofJson? p := by
  have hlow := Interface.codes .plain p.low
  have hhigh := Interface.codes .plain p.high
  refine Json.codes_record rfl (fun _ => rfl) (.refl _) (by decide) (by decide) ?_ ?_
  · simp [hlow.written, hhigh.written]
  · simp [hlow.reads, hhigh.reads]

/-! ### Distances -/

namespace Distance

open Float.Model (UnpackedFloat)
open Float.Model.UnpackedFloat (Sign unpackExponent unpackMantissa unpackSign)

/-- One row of bits alone is positive and infinite. -/
theorem bits_of_unpack_infinity {b : BitVec 64}
    (h : UnpackedFloat.unpack .binary64 b = .infinity .positive) : b = 0x7FF0000000000000#64 := by
  have hparts : @unpackExponent .binary64 b = -1#11 ∧ @unpackMantissa .binary64 b = 0#52 ∧
      @unpackSign .binary64 b = 0#1 := by
    rw [UnpackedFloat.unpack] at h
    dsimp only at h
    split_ifs at h with hexponent hmantissa
    refine ⟨hexponent, hmantissa, ?_⟩
    have hsign := UnpackedFloat.infinity.inj h
    rw [Sign.ofBitVec] at hsign
    split_ifs at hsign with hzero
    exact hzero
  have hexponent := congrArg BitVec.toNat hparts.1
  have hmantissa := congrArg BitVec.toNat hparts.2.1
  have hsign := congrArg BitVec.toNat hparts.2.2
  simp [unpackExponent, unpackMantissa, unpackSign, Nat.shiftRight_eq_div_pow]
    at hexponent hmantissa hsign
  have hlt := b.isLt
  refine BitVec.eq_of_toNat_eq ?_
  rw [BitVec.toNat_ofNat]
  omega

/-- There is one unlimited distance. -/
theorem eq_unlimited {d : Distance} (h : d.isUnlimited = true) : d = unlimited := by
  have hparts : d.parts = .infinity .positive := by
    change d.parts.isInf = true at h
    have hupright : Upright d.parts := upright_unpack d.valid.1 d.valid.2
    generalize d.parts = a at h hupright
    cases hupright with
    | infinity => rfl
    | _ => cases h
  have hunlimited : unlimited.value.toModel.unpack = .infinity .positive := parts_unlimited
  have hbits : d.value.toModel.toBits.toBitVec = unlimited.value.toModel.toBits.toBitVec :=
    (bits_of_unpack_infinity hparts).trans (bits_of_unpack_infinity hunlimited).symm
  obtain ⟨⟨⟨⟨bits⟩, hbits'⟩⟩, hvalid⟩ := d
  obtain rfl := hbits
  rfl

theorem isFinite_value {d : Distance} (h : d.isUnlimited = false) : d.value.isFinite = true := by
  have hnan : d.parts.isNaN = false := d.valid.1
  have hinf : d.parts.isInf = false := h
  show d.parts.isFinite = true
  cases hparts : d.parts with
  | notANumber => rw [hparts] at hnan; cases hnan
  | infinity s => rw [hparts] at hinf; cases hinf
  | zero s => rfl
  | finite => rfl

theorem codes {d : Distance} (h : d.isUnlimited = false → (JsonNumber.float d.value).ReadsBack) :
    Codes toJson ofJson? d := by
  cases hd : d.isUnlimited with
  | true =>
    obtain rfl := eq_unlimited hd
    exact ⟨.null, rfl⟩
  | false =>
    have hvalue := Json.codes_float (isFinite_value hd) (h hd)
    have hjson : d.toJson = .float d.value := if_neg (by rw [hd]; decide)
    refine ⟨hjson ▸ hvalue.written, ?_⟩
    rw [hjson]
    show (Json.asFloat? (Json.float d.value)).bind ofFloat? = some d
    rw [hvalue.reads, Option.bind_some, ofFloat?, dif_pos d.valid]

end Distance

@[simp] theorem Json.distance?_cons {key name : String} {v : Json}
    {entries : List (String × Json)} {named : Bool} :
    (⟨(key, v) :: entries, named⟩ : Json.Fields).distance? name =
      if name = key then Distance.ofJson? v
      else (⟨entries, named⟩ : Json.Fields).distance? name := by
  rw [Json.Fields.distance?, Json.get?_cons]
  by_cases h : name = key
  · rw [if_pos h, if_pos h]
  · rw [if_neg h, if_neg h]
    rfl

theorem DistanceEntry.codes {e : DistanceEntry}
    (h : e.distance.isUnlimited = false → (JsonNumber.float e.distance.value).ReadsBack) :
    Codes toJson ofJson? e := by
  have ha := NodeId.codes e.a
  have hb := NodeId.codes e.b
  have hdistance := Distance.codes h
  refine Json.codes_record rfl (fun _ => rfl) (.refl _) (by decide) (by decide) ?_ ?_
  · simp [ha.written, hb.written, hdistance.written]
  · simp [ha.reads, hb.reads, hdistance.reads]

/-! ### Connections -/

/-- The floats that a shaping sets. -/
def Shaping.floats (s : Shaping) : List Float := s.lossPercent.toList ++ s.delayMs.toList

theorem Shaping.keys_toEntries (s : Shaping) : (s.toEntries.map Prod.fst).Sublist fieldNames := by
  rw [toEntries, List.map_append, List.map_append]
  exact ((Json.keys_entryOf? _ _).append (Json.keys_entryOf? _ _)).append (Json.keys_entryOf? _ _)

theorem Shaping.codes {s : Shaping} (hbandwidth : ∀ n ∈ s.bandwidthKbit, n < NumberText.wordSize)
    (hfloats : ∀ x ∈ s.floats, x.isFinite = true ∧ (JsonNumber.float x).ReadsBack) :
    Codes toJson ofJson? s := by
  have hnatural : ∀ n ∈ s.bandwidthKbit, Codes Json.natural Json.asWord? n :=
    fun n hn => Json.codes_natural le_rfl (hbandwidth n hn)
  have hloss : ∀ x ∈ s.lossPercent, Codes Json.float Json.asFloat? x := fun x hx =>
    have hx := hfloats x (List.mem_append_left _ (Option.mem_toList.mpr hx))
    Json.codes_float hx.1 hx.2
  have hdelay : ∀ x ∈ s.delayMs, Codes Json.float Json.asFloat? x := fun x hx =>
    have hx := hfloats x (List.mem_append_right _ (Option.mem_toList.mpr hx))
    Json.codes_float hx.1 hx.2
  have hreadBandwidth : (⟨s.toEntries, true⟩ : Json.Fields).optional? "bandwidth_kbit"
      Json.asWord? = some s.bandwidthKbit := Json.optional?_eq hnatural (fun _ h => by cases h)
    (by simp [Json.Fields.get?, toEntries, List.lookup_append, Json.lookup_entryOf?])
  have hreadLoss : (⟨s.toEntries, true⟩ : Json.Fields).optional? "loss_percent" Json.asFloat? =
      some s.lossPercent := Json.optional?_eq hloss (fun _ h => by cases h)
    (by simp [Json.Fields.get?, toEntries, List.lookup_append, Json.lookup_entryOf?])
  have hreadDelay : (⟨s.toEntries, true⟩ : Json.Fields).optional? "delay_ms" Json.asFloat? =
      some s.delayMs := Json.optional?_eq hdelay (fun _ h => by cases h)
    (by simp [Json.Fields.get?, toEntries, List.lookup_append, Json.lookup_entryOf?])
  refine Json.codes_record rfl (fun _ => rfl) s.keys_toEntries (by decide) (by decide) ?_ ?_
  · exact List.forall_mem_append.mpr ⟨List.forall_mem_append.mpr
      ⟨Json.written_entryOf? hnatural, Json.written_entryOf? hloss⟩, Json.written_entryOf? hdelay⟩
  · simp [ofFields?, hreadBandwidth, hreadLoss, hreadDelay]

theorem ConnectionId.codes {id : ConnectionId} (h : id.value < NumberText.wordSize) :
    Codes toJson ofJson? id := by
  have hvalue : Codes Json.natural Json.asWord? id.value := Json.codes_natural le_rfl h
  refine ⟨hvalue.written, ?_⟩
  show (Json.asWord? (Json.natural id.value)).map ConnectionId.mk = some id
  rw [hvalue.reads, Option.map_some]

/-- The fields of a connection that are written. -/
def Connection.toEntries (c : Connection) : List (String × Json) :=
  [("id", c.id.toJson), ("pair", c.pair.toJson), ("interfaces", c.interfaces.toJson),
    ("kind", c.kind.toJson), ("connected", .bool c.connected), ("quality", c.shaping.toJson),
    ("step_added", .natural c.stepAdded), ("distance", c.distance.toJson)]
    ++ Json.entryOf? "switch" .text c.switch

theorem Connection.toJson_eq (c : Connection) : c.toJson = .record c.toEntries := rfl

theorem Connection.keys_toEntries (c : Connection) :
    (c.toEntries.map Prod.fst).Sublist fieldNames := by
  rw [toEntries, List.map_append]
  exact .append (.refl _) (Json.keys_entryOf? _ _)

/-- The floats in a connection. -/
def Connection.floats (c : Connection) : List Float := c.distance.value :: c.shaping.floats

/-- Its numbers fit into 64 bits, and what its shaping sets is finite. -/
structure Connection.Exportable (c : Connection) : Prop where
  id : c.id.value < NumberText.wordSize
  stepAdded : c.stepAdded < NumberText.wordSize
  bandwidth : ∀ n ∈ c.shaping.bandwidthKbit, n < NumberText.wordSize
  finite : ∀ x ∈ c.shaping.floats, x.isFinite = true

theorem Connection.codes {c : Connection} (h : c.Exportable)
    (hreads : ∀ x ∈ c.floats, x.isFinite = true → (JsonNumber.float x).ReadsBack) :
    Codes toJson ofJson? c := by
  have hid := ConnectionId.codes h.id
  have hpair := NodePair.codes c.pair
  have hinterfaces := InterfacePair.codes c.interfaces
  have hkind := ConnectionKind.codes .plain c.kind
  have hconnected := Json.codes_bool c.connected
  have hshaping : Codes Shaping.toJson Shaping.ofJson? c.shaping :=
    Shaping.codes h.bandwidth fun x hx => ⟨h.finite x hx, hreads x (.tail _ hx) (h.finite x hx)⟩
  have hstepAdded : Codes Json.natural Json.asWord? c.stepAdded :=
    Json.codes_natural le_rfl h.stepAdded
  have hdistance : Codes Distance.toJson Distance.ofJson? c.distance :=
    Distance.codes fun hlimited => hreads _ (.head _) (Distance.isFinite_value hlimited)
  have hswitch : ∀ s ∈ c.switch, Codes Json.text Json.asText? s := fun s _ => Json.codes_text s
  have hreadSwitch : (⟨Json.entryOf? "switch" .text c.switch, true⟩ : Json.Fields).optional?
      "switch" Json.asText? = some c.switch := Json.optional?_eq hswitch (fun _ h => by cases h)
    (by simp [Json.Fields.get?, Json.lookup_entryOf?])
  refine Json.codes_record c.toJson_eq (fun _ => rfl) c.keys_toEntries (by decide) (by decide)
    (List.forall_mem_append.mpr ⟨?_, Json.written_entryOf? hswitch⟩) ?_
  · simp [hid.written, hpair.written, hinterfaces.written, hkind.written, hconnected.written,
      hshaping.written, hstepAdded.written, hdistance.written]
  · simp [toEntries, hid.reads, hpair.reads, hinterfaces.reads, hkind.reads, hconnected.reads,
      hshaping.reads, hstepAdded.reads, hdistance.reads, hreadSwitch]

/-! ### Snapshots -/

namespace Snapshot

/-- The floats in a snapshot. -/
def floats (s : Snapshot) : List Float :=
  s.distances.map (·.distance.value) ++ s.connections.flatMap Connection.floats

/-- Its numbers fit into 64 bits, and its shapings are finite. -/
structure Exportable (s : Snapshot) : Prop where
  step : s.step < NumberText.wordSize
  connections : ∀ c ∈ s.connections, c.Exportable

theorem codes {s : Snapshot} (h : s.Exportable)
    (hreads : ∀ x ∈ s.floats, x.isFinite = true → (JsonNumber.float x).ReadsBack) :
    Codes toJson ofJson? s := by
  have hstep : Codes Json.natural Json.asWord? s.step := Json.codes_natural le_rfl h.step
  have hconnection : ∀ c ∈ s.connections, Codes Connection.toJson Connection.ofJson? c :=
    fun c hc => Connection.codes (h.connections c hc) fun x hx =>
      hreads x (List.mem_append_right _ (List.mem_flatMap.mpr ⟨c, hc, hx⟩))
  have hdistances := Json.codes_list fun e (he : e ∈ s.distances) =>
    DistanceEntry.codes fun hlimited => hreads e.distance.value
      (List.mem_append_left _ (List.mem_map_of_mem he)) (Distance.isFinite_value hlimited)
  have hactive := Json.codes_list fun c (hc : c ∈ s.active) =>
    hconnection c (List.mem_append_left _ hc)
  have hinactive := Json.codes_list fun c (hc : c ∈ s.inactive) =>
    hconnection c (List.mem_append_right _ hc)
  refine Json.codes_record rfl (fun _ => rfl) (.refl _) (by decide) (by decide) ?_ ?_
  · simp [hstep.written, hdistances.written, hactive.written, hinactive.written]
  · simp [hstep.reads, hdistances.reads, hactive.reads, hinactive.reads]

/-- The text of a snapshot reads as that snapshot, if its floats are read back one by one. -/
theorem text_read_back {s : Snapshot} (h : s.Exportable)
    (hreads : ∀ x ∈ s.floats, x.isFinite = true → (JsonNumber.float x).ReadsBack) :
    (Json.read? s.text).bind ofJson? = some s :=
  (codes h hreads).read?_pretty

/-- Two links, one up with all there is to write and one down with nothing that may be missing, and
a pair out of range. -/
def sample : Snapshot where
  step := 3
  distances := [⟨⟨1⟩, ⟨2⟩, ⟨7.25, by decide⟩⟩, ⟨⟨1⟩, ⟨3⟩, .unlimited⟩]
  active := [{
    id := ⟨0⟩
    pair := ⟨⟨1⟩, ⟨2⟩⟩
    interfaces := ⟨⟨.adHoc, 0⟩, ⟨.wifiDirect, 1⟩⟩
    kind := .user
    connected := true
    shaping := ⟨some 500, some 0.5, some 20.0⟩
    stepAdded := 1
    distance := ⟨7.25, by decide⟩
    switch := some "br\\0 \"a\"\n\x01é" }]
  inactive := [{
    id := ⟨1⟩
    pair := ⟨⟨1⟩, ⟨3⟩⟩
    interfaces := ⟨⟨.management, 0⟩, ⟨.management, 0⟩⟩
    kind := .management
    connected := false
    shaping := .none
    stepAdded := 2
    distance := .unlimited
    switch := none }]

theorem sample_read_back :
    sample.Exportable ∧
      (∀ x ∈ sample.floats, x.isFinite = true → (JsonNumber.float x).ReadsBack) ∧
      (Json.read? sample.text).bind ofJson? = some sample := by
  have h : sample.Exportable :=
    ⟨by decide, List.forall_mem_cons.mpr ⟨⟨by decide, by decide, by decide, by decide⟩,
      List.forall_mem_singleton.mpr ⟨by decide, by decide, by decide, by decide⟩⟩⟩
  have hreads : ∀ x ∈ sample.floats, x.isFinite = true → (JsonNumber.float x).ReadsBack := by
    decide +kernel
  exact ⟨h, hreads, text_read_back h hreads⟩

end Snapshot

end ProximityNet
