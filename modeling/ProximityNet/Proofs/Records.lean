import Mathlib.Data.List.Nodup
import ProximityNet.Json.Fields
import ProximityNet.Proofs.Texts

/-!
# Records are read back

What is written as a JSON value and read from it again is read from its text too, as the text keeps
the value.  This goes by the fields of a record: each is written and read by itself, and one that
may be missing leaves no entry.

* `Json.Codes` — what is written as a value is read from it and from its text;
* `codes_natural`, `codes_text`, `codes_choice`, `codes_list` — values without fields;
* `Written.record`, `fields?_record` — a record with some of its fields in their order;
* `codes_record` — a record is read back if its fields are;
* `required?_cons`, `optional?_cons`, `optional?_eq` — reading a field;
* `Written.isReadable` — what is read back can be read as a whole;
* `tagged?_record`, `codes_tagged` — a tagged record, whose tag says what its fields are.
-/

namespace ProximityNet

namespace Json

/-- What is written for `a` is kept by its text, and `a` is read from it. -/
structure Codes {α : Type} (write : α → Json) (read : Json → Option α) (a : α) : Prop where
  written : (write a).Written
  reads : read (write a) = some a

variable {α : Type} {write : α → Json} {read : Json → Option α}

theorem Codes.read?_pretty {a : α} (h : Codes write read a) :
    (read? (write a).pretty).bind read = some a := by
  rw [h.written.read?_pretty, Option.bind_some, h.reads]

theorem Codes.read?_compact {a : α} (h : Codes write read a) :
    (read? (write a).compact).bind read = some a := by
  rw [h.written.read?_compact, Option.bind_some, h.reads]

theorem codes_natural {limit n : Nat} (hlimit : limit ≤ NumberText.wordSize) (h : n < limit) :
    Codes natural (asNatural? limit) n where
  written := .number (natural_readsBack (h.trans_le hlimit))
  reads := by simp [natural, asNatural?, h]

theorem codes_bool (b : Bool) : Codes bool asBool? b := ⟨.bool b, rfl⟩

theorem codes_text (s : String) : Codes text asText? s := ⟨.text s, rfl⟩

theorem codes_float {x : Float} (hfinite : x.isFinite = true)
    (hreads : (JsonNumber.float x).ReadsBack) : Codes float asFloat? x :=
  ⟨.number hreads, if_pos hfinite⟩

theorem codes_choice {form : ChoiceForm} {name : α → String} {all : List α} {a : α}
    (h : (all.find? fun b => name b = name a) = some a) :
    Codes (fun a => text (name a)) (choice? form name all) a := ⟨.text _, h⟩

theorem codes_list {as : List α} (h : ∀ a ∈ as, Codes write read a) :
    Codes (fun as => array (as.map write)) (asList? read) as where
  written := by
    refine .array fun v hv => ?_
    obtain ⟨a, ha, rfl⟩ := List.mem_map.mp hv
    exact (h a ha).written
  reads := by
    show (as.map write).mapM read = some as
    induction as with
    | nil => rfl
    | cons a as ih =>
      obtain ⟨ha, has⟩ := List.forall_mem_cons.mp h
      rw [List.map_cons, List.mapM_cons, ha.reads, ih has]
      rfl

/-! ### Records -/

variable {names : List String} {entries : List (String × Json)}

theorem Written.record (hkeys : (entries.map Prod.fst).Sublist names)
    (hplain : ∀ name ∈ names, spellingOf name = .plain name)
    (hvalues : ∀ e ∈ entries, e.2.Written) : (Json.record entries).Written := by
  refine .object (fun e he => ?_) (fun e he => ?_)
  · obtain ⟨e, hmem, rfl⟩ := List.mem_map.mp he
    exact ⟨e.1, (hplain e.1 (hkeys.subset (List.mem_map_of_mem hmem))).symm⟩
  · obtain ⟨e, hmem, rfl⟩ := List.mem_map.mp he
    exact hvalues e hmem

theorem isRepeated_record (hnodup : (entries.map Prod.fst).Nodup) (name : String) :
    isRepeated (entries.map fun e => (.plain e.1, e.2)) name = false := by
  have hcount : ((entries.map fun e => (JsonSpelling.plain e.1, e.2)).countP
      fun e => e.1.isText name) = (entries.map Prod.fst).count name := by
    rw [List.count, List.countP_map, List.countP_map]
    rfl
  rw [isRepeated, hcount, decide_eq_false_iff_not, not_lt]
  exact List.nodup_iff_count_le_one.mp hnodup name

theorem namedEntries_record (hnames : ∀ e ∈ entries, e.1 ∈ names) :
    namedEntries names (entries.map fun e => (.plain e.1, e.2)) = entries := by
  rw [namedEntries, List.filterMap_map]
  refine (List.filterMap_congr fun e he => ?_).trans List.filterMap_some
  simp [JsonSpelling.text?, hnames e he]

/-- A record with some of its fields in their order has just these fields. -/
theorem fields?_record (hkeys : (entries.map Prod.fst).Sublist names) (hnodup : names.Nodup) :
    (record entries).fields? names = some ⟨entries, true⟩ := by
  have htexts : (entries.map fun e => (JsonSpelling.plain e.1, e.2)).all
      (fun e => e.1.text?.isSome) = true := by
    simp [JsonSpelling.text?]
  have honce : names.any (isRepeated (entries.map fun e => (.plain e.1, e.2))) = false := by
    simp [isRepeated_record (hnodup.sublist hkeys)]
  have hnamed := namedEntries_record fun e he => hkeys.subset (List.mem_map_of_mem he)
  rw [record, fields?, fieldsByName?, htexts, honce, if_pos (by rfl), hnamed]
  exact nofun

/-- What is written as a record with some of its fields in their order, and read from these. -/
theorem codes_record {readFields : Fields → Option α} {a : α} (hwrite : write a = record entries)
    (hread : ∀ v, read v = (v.fields? names).bind readFields)
    (hkeys : (entries.map Prod.fst).Sublist names) (hnodup : names.Nodup)
    (hplain : ∀ name ∈ names, spellingOf name = .plain name)
    (hvalues : ∀ e ∈ entries, e.2.Written) (hreads : readFields ⟨entries, true⟩ = some a) :
    Codes write read a where
  written := hwrite ▸ .record hkeys hplain hvalues
  reads := by rw [hread, hwrite, fields?_record hkeys hnodup, Option.bind_some, hreads]

/-! ### Fields -/

section Fields

variable {key name : String} {v : Json} {named : Bool}

theorem get?_cons : (⟨(key, v) :: entries, named⟩ : Fields).get? name =
    if name = key then some v else (⟨entries, named⟩ : Fields).get? name := by
  rw [Fields.get?, List.lookup_cons]
  by_cases h : name = key
  · rw [if_pos h, beq_iff_eq.mpr h]
  · rw [if_neg h, beq_eq_false_iff_ne.mpr h]
    rfl

@[simp] theorem required?_cons : (⟨(key, v) :: entries, named⟩ : Fields).required? name read =
    if name = key then read v else (⟨entries, named⟩ : Fields).required? name read := by
  rw [Fields.required?, get?_cons]
  split <;> rfl

@[simp] theorem optional?_cons : (⟨(key, v) :: entries, named⟩ : Fields).optional? name read =
    if name = key then asOption? read v else (⟨entries, named⟩ : Fields).optional? name read := by
  rw [Fields.optional?, Fields.default?, get?_cons]
  by_cases h : name = key
  · rw [if_pos h, if_pos h]
  · rw [if_neg h, if_neg h]
    rfl

end Fields

/-! ### Fields that may be missing -/

section Missing

variable {o : Option α}

theorem keys_entryOf? (key : String) (o : Option α) :
    ((entryOf? key write o).map Prod.fst).Sublist [key] := by
  cases o with
  | none => exact List.nil_sublist _
  | some a => exact .refl _

theorem written_entryOf? {key : String} (h : ∀ a ∈ o, Codes write read a) :
    ∀ e ∈ entryOf? key write o, e.2.Written := by
  cases o with
  | none => exact nofun
  | some a =>
    intro e he
    obtain rfl := List.mem_singleton.mp he
    exact (h a rfl).written

theorem lookup_entryOf? (key name : String) (o : Option α) :
    (entryOf? key write o).lookup name = if name = key then o.map write else none := by
  cases o with
  | none => exact (ite_self none).symm
  | some a =>
    have hget : (⟨[(key, write a)], true⟩ : Fields).get? name = _ := get?_cons
    exact hget

/-- A field that may be missing is read as it was written, if nothing is written as `null`. -/
theorem optional?_eq {f : Fields} {name : String} (h : ∀ a ∈ o, Codes write read a)
    (hnull : ∀ a, write a ≠ .null) (hget : f.get? name = o.map write) :
    f.optional? name read = some o := by
  rw [Fields.optional?, Fields.default?, hget]
  cases o with
  | none => rfl
  | some a =>
    show asOption? read (write a) = _
    rw [asOption?, (h a rfl).reads]
    · rfl
    · exact hnull a

end Missing

/-! ### Tagged records -/

section Tagged

variable {tag name : String} {outer : Nat}

theorem areReadable_iff {items : List Json} :
    areReadable items = true ↔ ∀ v ∈ items, v.isReadable = true := by
  induction items with
  | nil => simp [areReadable]
  | cons v rest ih => simp [areReadable, ih]

theorem areReadableEntries_iff {entries : List (JsonSpelling × Json)} :
    areReadableEntries entries = true ↔
      ∀ e ∈ entries, e.1.text?.isSome = true ∧ e.2.isReadable = true := by
  induction entries with
  | nil => simp [areReadableEntries]
  | cons e rest ih => simp [areReadableEntries, ih, and_assoc]

/-- What can be read back can be read as a whole. -/
theorem Written.isReadable {v : Json} (h : v.Written) : v.isReadable = true := by
  induction h with
  | null => rfl
  | bool b => rfl
  | @number n reads =>
    cases n with
    | integer i => rfl
    | float x => exact JsonNumber.isFinite_of_readsBack reads
  | text s => rfl
  | array each ih => exact areReadable_iff.mpr ih
  | object keys values ih =>
    refine areReadableEntries_iff.mpr fun e he => ⟨?_, ih e he⟩
    obtain ⟨s, hs⟩ := keys e he
    rw [hs, text?_spellingOf]
    rfl

/-- A tagged record is taken apart into its tag and the record behind it. -/
theorem tagged?_record
    (hwritten : (record ((tag, text name) :: entries)).Written)
    (hkeys : (tag :: entries.map Prod.fst).Nodup)
    (hdepth : outer + (record ((tag, text name) :: entries)).depth < nestingLimit) :
    (record ((tag, text name) :: entries)).tagged? tag outer = some (name, record entries) := by
  have hwhole : ((record ((tag, text name) :: entries)).isReadable &&
      decide (outer + (record ((tag, text name) :: entries)).depth < nestingLimit)) = true := by
    rw [hwritten.isReadable, decide_eq_true hdepth, Bool.and_self]
  have hdistinct : (((tag, text name) :: entries).map Prod.fst).Nodup := hkeys
  have honce := isRepeated_record hdistinct tag
  have hbehind : ((entries.map fun e => (JsonSpelling.plain e.1, e.2)).filter
      fun e => !e.1.isText tag) = entries.map fun e => (.plain e.1, e.2) := by
    refine List.filter_eq_self.mpr fun e he => ?_
    obtain ⟨e, hmem, rfl⟩ := List.mem_map.mp he
    have hne : e.1 ≠ tag := by
      rintro rfl
      exact (List.nodup_cons.mp hkeys).1 (List.mem_map_of_mem hmem)
    simp [JsonSpelling.isText, JsonSpelling.text?, hne]
  rw [tagged?.eq_def, if_pos hwhole]
  simp only [record, honce, Bool.false_eq_true, if_false]
  simpa [JsonSpelling.isText, JsonSpelling.text?, entry?, text] using hbehind

/-- What is written as a tagged record, and read from the fields that its tag calls for. -/
theorem codes_tagged {choose : String × Json → Option α} {readFields : Fields → Option α} {a : α}
    (hwrite : write a = record ((tag, text name) :: entries))
    (hread : ∀ v, read v = (v.tagged? tag outer).bind choose)
    (hchoose : ∀ body, choose (name, body) = (body.fields? names).bind readFields)
    (hkeys : (entries.map Prod.fst).Sublist names) (hnodup : (tag :: names).Nodup)
    (hplain : ∀ name ∈ tag :: names, spellingOf name = .plain name)
    (hdepth : outer + (write a).depth < nestingLimit)
    (hvalues : ∀ e ∈ entries, e.2.Written) (hreads : readFields ⟨entries, true⟩ = some a) :
    Codes write read a := by
  have hsublist : (((tag, text name) :: entries).map Prod.fst).Sublist (tag :: names) :=
    hkeys.cons_cons tag
  have hwritten : (record ((tag, text name) :: entries)).Written :=
    .record hsublist hplain (List.forall_mem_cons.mpr ⟨.text name, hvalues⟩)
  refine ⟨hwrite ▸ hwritten, ?_⟩
  rw [hread, hwrite, tagged?_record hwritten (hnodup.sublist hsublist) (hwrite ▸ hdepth),
    Option.bind_some, hchoose, fields?_record hkeys (List.nodup_cons.mp hnodup).2,
    Option.bind_some, hreads]

end Tagged

end Json

end ProximityNet
